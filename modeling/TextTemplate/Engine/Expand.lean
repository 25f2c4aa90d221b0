import TextTemplate.Buffer.Indent
import TextTemplate.Engine.Basic

/-!
# Expansion

Elements are carried out one after the other on a `Work`: a buffer, its marks, and what else the
expansion has to remember. An error stops the expansion and leaves the work as it is. Every list,
template, symbol and deferred element goes one level deeper, and the number of levels is limited.
-/

namespace TextTemplate

/-- Where an expansion put its text, and where it left point. -/
structure Expansion where
  start : Nat
  stop : Nat
  cursor : Nat
deriving DecidableEq, Repr

/-- What stays the same during an expansion. -/
structure Rules (δ : Type) where
  settings : Settings
  filters : List (String → String)
  handlers : List (String → Option (Element δ))
  onRegion : Bool

/-- What an expansion changes. -/
structure Work where
  buffer : Buffer
  marks : Marks
  /-- Where the expansion started; it follows the edits. -/
  origin : Nat
  /-- The end of the region that point is not at, if there is a region; it follows the edits. -/
  regionEnd : Option Nat
  /-- The answers kept under names, the last one first. -/
  answers : List (String × String) := []

namespace Work

/-- Moves all that is remembered with an edit. -/
def track (w : Work) (e : Edit) : Work :=
  { w with
    marks := w.marks.apply e
    origin := e.adjust w.origin
    regionEnd := w.regionEnd.map e.adjust }

/-- Inserts characters at point. -/
def insert (w : Work) (s : List Char) : Work :=
  if s = [] then w
  else { w with buffer := w.buffer.insertText s }.track (.insert w.buffer.point s.length)

/-- Adds a mark at point. -/
def markPoint (w : Work) : Work := { w with marks := w.marks.add w.buffer.point }

/-- Indents the line of point. -/
def reindent (w : Work) : Work :=
  let (b, edits) := w.buffer.reindentLine
  edits.foldl track { w with buffer := b }

/-- Swaps point with the other end of the region. -/
def exchange (w : Work) : Work :=
  match w.regionEnd with
  | some p => { w with regionEnd := some w.buffer.point, buffer := w.buffer.moveTo p }
  | none => w

/-- Goes to the other end of the region, or marks point if there is no region. -/
def regionPoint (w : Work) (onRegion indent : Bool) : Work :=
  if onRegion then
    if indent then w.exchange.reindent else w.exchange
  else w.markPoint

/-- Asks a prompt, inserts the answer and keeps it if it has a name. -/
def ask (w : Work) (p : Prompt) : Work × Option Error :=
  match w.buffer.ask p.text with
  | (b, none) => ({ w with buffer := b }, some (.promptCancelled p.text))
  | (b, some a) =>
    let w := { w with buffer := b }.insert a.toList
    match p.name with
    | some name => ({ w with answers := (name, a) :: w.answers }, none)
    | none => (w, none)

/-- Inserts a line feed unless there are only blanks in a text. -/
def newlineUnlessBlank (w : Work) (s : List Char) : Work :=
  if Text.allBlank s then w else w.insert ['\n']

/-- What deferred elements can see. -/
def context (w : Work) (onRegion : Bool) : EvalContext := ⟨w.buffer.point, onRegion, w.answers⟩

/-! ### Views of insertions and indentations -/

@[simp] theorem buffer_foldl_track (w : Work) (es : List Edit) :
    (es.foldl track w).buffer = w.buffer := by
  induction es generalizing w with
  | nil => rfl
  | cons e es ih => exact ih (w.track e)

@[simp] theorem buffer_reindent (w : Work) : w.reindent.buffer = w.buffer.reindentLine.1 :=
  buffer_foldl_track ..

@[simp] theorem buffer_insert (w : Work) (s : List Char) :
    (w.insert s).buffer = w.buffer.insertText s := by
  unfold insert
  split
  · next h => rw [h, Buffer.insertText_nil]
  · rfl

@[simp] theorem marks_insert (w : Work) (s : List Char) :
    (w.insert s).marks = w.marks.apply (.insert w.buffer.point s.length) := by
  unfold insert
  split
  · next h => rw [h, List.length_nil, Marks.apply_insert_zero]
  · rfl

@[simp] theorem origin_insert (w : Work) (s : List Char) :
    (w.insert s).origin = (Edit.insert w.buffer.point s.length).adjust w.origin := by
  unfold insert
  split
  · next h => rw [h, List.length_nil, Edit.adjust_insert_zero]
  · rfl

@[simp] theorem regionEnd_insert (w : Work) (s : List Char) :
    (w.insert s).regionEnd = w.regionEnd.map (Edit.insert w.buffer.point s.length).adjust := by
  unfold insert
  split
  · next h =>
    have hid : (Edit.insert w.buffer.point 0).adjust = id :=
      funext (Edit.adjust_insert_zero w.buffer.point)
    rw [h, List.length_nil, hid, Option.map_id, id]
  · rfl

@[simp] theorem answers_insert (w : Work) (s : List Char) : (w.insert s).answers = w.answers := by
  unfold insert
  split <;> rfl

/-! ### Prompts -/

/-- A prompt that gets no answer is asked and no more. -/
theorem ask_of_none {w : Work} {p : Prompt} (h : (w.buffer.ask p.text).2 = none) :
    w.ask p = ({ w with buffer := (w.buffer.ask p.text).1 }, some (.promptCancelled p.text)) := by
  unfold ask
  rcases hask : w.buffer.ask p.text with ⟨c, _ | a⟩
  · rfl
  · rw [hask] at h
    cases h

/-- A prompt that gets an answer inserts it, and keeps it if it has a name. -/
theorem ask_of_some {w : Work} {p : Prompt} {a : String} (h : (w.buffer.ask p.text).2 = some a) :
    let v := { w with buffer := (w.buffer.ask p.text).1 }.insert a.toList
    w.ask p = ({ v with answers := (p.name.map (·, a)).toList ++ v.answers }, none) := by
  unfold ask
  rcases hask : w.buffer.ask p.text with ⟨c, _ | a'⟩
  · rw [hask] at h
    cases h
  · rw [hask] at h
    obtain rfl : a' = a := Option.some.inj h
    cases p.name <;> rfl

end Work

namespace Rules

variable {δ : Type}

/-- The text after all filters. -/
def filtered (r : Rules δ) (s : String) : String := r.filters.foldl (fun s f => f s) s

/-- What the first handler that knows a symbol makes of it. -/
def resolve? (r : Rules δ) (name : String) : Option (Element δ) := r.handlers.findSome? (· name)

/-- Whether a prompt is asked. -/
def asks (r : Rules δ) (p : Prompt) : Bool := r.settings.interactive || p.always

end Rules

namespace Element

variable {δ : Type}

/-- Carries out elements in order until one fails. -/
def runAll (run : Element δ → Work → Work × Option Error) :
    List (Element δ) → Work → Work × Option Error
  | [], w => (w, none)
  | e :: es, w =>
    match run e w with
    | (w, none) => runAll run es w
    | (w, some err) => (w, some err)

/-- Carries out an element where so many more levels are allowed. -/
def run [Deferral δ] (r : Rules δ) : Nat → Element δ → Work → Work × Option Error
  | 0, _, w => (w, some (.recursionLimit r.settings.maxDepth))
  | n + 1, e, w =>
    match e with
    | text s => (w.insert (r.filtered s).toList, none)
    | point => (w.markPoint, none)
    | prompt p => if r.asks p then w.ask p else (w.markPoint, none)
    | regionPoint indent => (w.regionPoint r.onRegion indent, none)
    | regionPrompt p indent =>
      if r.settings.interactive then w.ask p else (w.regionPoint r.onRegion indent, none)
    | conditionalNewline =>
      (w.newlineUnlessBlank (w.buffer.slice w.buffer.lineBounds.1 w.buffer.point), none)
    | conditionalNewlineAfter =>
      (w.newlineUnlessBlank (w.buffer.slice w.buffer.point w.buffer.lineBounds.2), none)
    | newline => (w.insert ['\n'], none)
    | newlineIndent => ((w.insert ['\n']).reindent, none)
    | reindent => (w.reindent, none)
    | saved name =>
      match w.answers.lookup name with
      | some a => (w.insert a.toList, none)
      | none => (w, none)
    | list es => runAll (run r n) es w
    | template _ es => runAll (run r n) es w
    | symbol name =>
      match r.resolve? name with
      | some e => run r n e w
      | none => (w, some (.unknownElement name))
    | empty => (w, none)
    | deferred code => run r n (Deferral.evaluate code (w.context r.onRegion)) w

end Element

/-- What an operation on an engine and a buffer leaves, and what it answers. -/
structure Outcome (δ : Type) (α : Type) where
  engine : Engine δ
  buffer : Buffer
  result : Except Error α

/-- What an operation answers can be read off as an option, which is decidable. -/
theorem Outcome.result_eq_ok {δ α : Type} {o : Outcome δ α} {a : α}
    (h : o.result.toOption = some a) : o.result = .ok a := by
  cases hresult : o.result with
  | error e =>
    rw [hresult] at h
    cases h
  | ok a' =>
    rw [hresult] at h
    exact congrArg Except.ok (Option.some.inj h)

namespace Engine

variable {δ : Type} [Deferral δ]

/-- The rules of an expansion. -/
def rules (g : Engine δ) (onRegion : Bool) : Rules δ :=
  ⟨g.settings, g.filters, g.handlers, onRegion⟩

/-- The buffer with point where an expansion starts, and the other end of the region. -/
def startOfRegion (b : Buffer) : Bool → Except Error (Buffer × Option Nat)
  | false => .ok (b, none)
  | true =>
    match b.region with
    | none => .error (.missingRegion b.id)
    | some (p, q) => .ok (b.moveTo (min p q), some (max p q))

omit [Deferral δ] in
/-- An expansion starts at point, or at the first end of the region. -/
theorem startOfRegion_cases {b c : Buffer} {onRegion : Bool} {regionEnd : Option Nat}
    (h : startOfRegion b onRegion = .ok (c, regionEnd)) :
    (onRegion = false ∧ c = b ∧ regionEnd = none) ∨
      ∃ p q, onRegion = true ∧ b.region = some (p, q) ∧ c = b.moveTo (min p q) ∧
        regionEnd = some (max p q) := by
  cases onRegion with
  | false =>
    obtain ⟨⟩ := h
    exact .inl ⟨rfl, rfl, rfl⟩
  | true =>
    simp only [startOfRegion] at h
    split at h
    · cases h
    · next p q hregion =>
      obtain ⟨⟩ := h
      exact .inr ⟨p, q, rfl, hregion, rfl, rfl⟩

omit [Deferral δ] in
theorem id_startOfRegion {b c : Buffer} {onRegion : Bool} {regionEnd : Option Nat}
    (h : startOfRegion b onRegion = .ok (c, regionEnd)) : c.id = b.id := by
  rcases startOfRegion_cases h with ⟨-, rfl, -⟩ | ⟨p, q, -, -, rfl, -⟩
  · rfl
  · rfl

omit [Deferral δ] in
theorem dings_startOfRegion {b c : Buffer} {onRegion : Bool} {regionEnd : Option Nat}
    (h : startOfRegion b onRegion = .ok (c, regionEnd)) : c.dings = b.dings := by
  rcases startOfRegion_cases h with ⟨-, rfl, -⟩ | ⟨p, q, -, -, rfl, -⟩
  · rfl
  · rfl

/-- Keeps the marks of a work. -/
def keepMarks (g : Engine δ) (w : Work) : Engine δ :=
  g.setState w.buffer.id { g.stateOf w.buffer.id with marks := w.marks }

omit [Deferral δ] in
@[simp] theorem marks_keepMarks (g : Engine δ) (w : Work) (i : BufferId) :
    (g.keepMarks w).marks i = if i = w.buffer.id then w.marks else g.marks i :=
  g.marks_setState ..

/-- The work that an expansion starts with: its first mark is where it starts. -/
def startWork (g : Engine δ) (b : Buffer) (regionEnd : Option Nat) : Work :=
  { buffer := b, marks := (g.marks b.id).add b.point, origin := b.point, regionEnd }

/-- What an expansion leaves and answers once its elements are carried out. An error leaves point
where it is; otherwise the end is marked, and point goes to the first mark after the start. -/
def finish (g : Engine δ) : Work × Option Error → Outcome δ Expansion
  | (w, some e) => ⟨g.keepMarks w, w.buffer, .error e⟩
  | (w, none) =>
    let w := w.markPoint
    let cursor := (w.marks.forward w.origin).getD w.origin
    ⟨g.keepMarks w, w.buffer.moveTo cursor, .ok ⟨w.origin, w.buffer.point, cursor⟩⟩

omit [Deferral δ] in
@[simp] theorem marks_finish_error (g : Engine δ) (w : Work) (e : Error) :
    (g.finish (w, some e)).engine.marks w.buffer.id = w.marks := by
  rw [finish, marks_keepMarks, if_pos rfl]

omit [Deferral δ] in
@[simp] theorem marks_finish_ok (g : Engine δ) (w : Work) :
    (g.finish (w, none)).engine.marks w.buffer.id = w.markPoint.marks :=
  (g.marks_keepMarks w.markPoint w.buffer.id).trans (if_pos rfl)

omit [Deferral δ] in
/-- An expansion answers the error that stopped it, and none but that. -/
theorem result_finish_eq_error_iff {g : Engine δ} {p : Work × Option Error} {e : Error} :
    (g.finish p).result = .error e ↔ p.2 = some e := by
  obtain ⟨w, _ | err⟩ := p
  · exact ⟨nofun, nofun⟩
  · constructor
    · intro h
      exact congrArg some (Except.error.inj h)
    · intro h
      exact congrArg Except.error (Option.some.inj h)

/-- Expands a template at point, or around the region. -/
def insertTemplate (g : Engine δ) (b : Buffer) (t : Template δ) (onRegion : Bool) :
    Outcome δ Expansion :=
  match startOfRegion b onRegion with
  | .error e => ⟨g, b, .error e⟩
  | .ok (b, regionEnd) =>
    let levels := g.settings.maxDepth + 1
    g.finish <|
      Element.runAll (Element.run (g.rules onRegion) levels) t.elements (g.startWork b regionEnd)

/-- Expands the template with a name. -/
def insertNamed (g : Engine δ) (b : Buffer) (name : String) (onRegion : Bool) :
    Outcome δ Expansion :=
  match g.lookup name with
  | .ok t => g.insertTemplate b t onRegion
  | .error e => ⟨g, b, .error e⟩

end Engine

end TextTemplate
