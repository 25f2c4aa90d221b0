import TextTemplate.Proofs.RegexEscapes

/-!
# Classes are read alike

A class is read alike in front of any rest that goes on alike (`class?_local`).  Its pieces look
further ahead than others: a named class of ASCII characters is one only if its name is (`[:alpha:]`),
and behind a hyphen blanks are looked past to see whether a range goes on.
-/

namespace TextTemplate.Regex

open Scanner

/-! ## Named classes -/

/-- A named class of ASCII characters after its colon and its caret. -/
def asciiName? (negated : Bool) (r : List Char) : Option (ClassSet × List Char) :=
  (Text.after? [':', ']'] (r.dropWhile (· != ':'))).bind fun rest =>
    (AsciiClass.ofName? (r.takeWhile (· != ':'))).map fun k => (.ascii k negated, rest)

theorem asciiClass?_caret (r : List Char) : asciiClass? (':' :: '^' :: r) = asciiName? true r := by
  simp only [asciiClass?, asciiName?]
  cases Text.after? [':', ']'] (r.dropWhile (· != ':')) <;> rfl

theorem asciiClass?_colon {r : List Char} (hr : r.head? ≠ some '^') :
    asciiClass? (':' :: r) = asciiName? false r := by
  cases r with
  | nil => rfl
  | cons c r =>
    have hc : c ≠ '^' := fun hc => hr (hc ▸ rfl)
    cases hafter : Text.after? [':', ']'] ((c :: r).dropWhile (· != ':')) with
    | none => simp [asciiClass?, asciiName?, hc, hafter]
    | some rest => simp [asciiClass?, asciiName?, hc, hafter]

theorem asciiClass?_of_ne {c : Char} (hc : c ≠ ':') (r : List Char) :
    asciiClass? (c :: r) = none := by
  rw [asciiClass?]
  exact fun _ h => hc (List.cons.inj h).1

theorem paren_not_mem_of_ofName? {name : List Char} {k : AsciiClass}
    (h : AsciiClass.ofName? name = some k) : ')' ∉ name := by
  rw [AsciiClass.ofName?] at h
  split at h
  all_goals first
    | next heq => rw [← String.toList_ofList (l := name), heq]; decide
    | cases h

theorem exists_of_asciiName? {negated : Bool} {s r : List Char} {k : ClassSet}
    (h : asciiName? negated s = some (k, r)) :
    ∃ name, s = name ++ ':' :: ']' :: r ∧ ')' ∉ name ∧
      ∀ t, asciiName? negated (name ++ ':' :: ']' :: t) = some (k, t) := by
  obtain ⟨rest, hafter, h⟩ := Option.bind_eq_some_iff.mp h
  obtain ⟨k, hk, heq⟩ := Option.map_eq_some_iff.mp h
  cases heq
  rw [Text.after?_eq_some_iff] at hafter
  refine ⟨s.takeWhile (· != ':'), ?_, paren_not_mem_of_ofName? hk, fun t => ?_⟩
  · have hs := List.takeWhile_append_dropWhile (p := (· != ':')) (l := s)
    rw [hafter] at hs
    exact hs.symm
  · have hstops : Stops (· != ':') (':' :: ']' :: t) := stops_cons.mpr rfl
    rw [asciiName?, dropWhile_takeWhile_append hstops, takeWhile_takeWhile_append hstops, hk]
    rfl

/-- A named class is told by its name alone, where no group ends. -/
theorem exists_of_asciiClass? {s r : List Char} {k : ClassSet}
    (h : asciiClass? s = some (k, r)) :
    ∃ w, s = w ++ r ∧ ')' ∉ w ∧ ∀ t, asciiClass? (w ++ t) = some (k, t) := by
  cases s with
  | nil => cases h
  | cons c s =>
    by_cases hc : c = ':'
    · subst hc
      by_cases hs : s.head? = some '^'
      · obtain ⟨s, rfl⟩ := List.head?_eq_some_iff.mp hs
        rw [asciiClass?_caret] at h
        obtain ⟨name, rfl, hname, hread⟩ := exists_of_asciiName? h
        refine ⟨':' :: '^' :: name ++ [':', ']'], by simp, by simp [hname], fun t => ?_⟩
        rw [← hread t, ← asciiClass?_caret]
        simp
      · rw [asciiClass?_colon hs] at h
        obtain ⟨name, rfl, hname, hread⟩ := exists_of_asciiName? h
        refine ⟨':' :: name ++ [':', ']'], by simp, by simp [hname], fun t => ?_⟩
        rw [← hread t, ← asciiClass?_colon]
        · simp
        · cases name <;> simp_all
    · rw [asciiClass?_of_ne hc] at h
      cases h

theorem Alike.asciiClass?_eq_none {s t : List Char} (h : Alike s t)
    (hs : asciiClass? s = none) : asciiClass? t = none := by
  rw [Option.eq_none_iff_forall_ne_some]
  rintro ⟨k, r⟩ ht
  obtain ⟨w, rfl, hw, hread⟩ := exists_of_asciiClass? ht
  obtain ⟨q, rfl, -⟩ := h.symm.exists_of_append hw
  rw [hread] at hs
  cases hs

/-! ## Items -/

/-- An atom that may be an item of a class, which a word boundary may not. -/
theorem classAtom?_local {spaced : Bool} {s r : List Char} {a : Atom}
    (h : classAtom? spaced s = some (a, r)) (ha : a.toItem? ≠ none) :
    ∃ c q, s = c :: q ∧ Local (fun q => classAtom? spaced (c :: q)) q a r := by
  cases s with
  | nil => cases h
  | cons c q =>
    refine ⟨c, q, rfl, ?_⟩
    by_cases hc : c = '\\'
    · subst hc
      exact escape?_local h fun hboundary => ha (hboundary ▸ rfl)
    · have hliteral (q : List Char) :
          classAtom? spaced (c :: q) = some (.literal { char := c }, q) := by
        rw [classAtom?]
        exact hc
      rw [hliteral] at h
      cases h
      simp only [hliteral]
      exact .pure _ _

/-- What is seen past the blanks behind a hyphen, and past one sign of a comment. -/
def past (s : List Char) : List Char :=
  let t := s.dropWhile Text.isBlank
  if t.head? = some '#' then t.tail.dropWhile Text.isBlank else t

theorem Alike.past {s t : List Char} (h : Alike s t) : Alike (past s) (past t) := by
  have hdrop : Alike (s.dropWhile Text.isBlank) (t.dropWhile Text.isBlank) := h.dropWhile (by decide)
  have hhead := hdrop.head?_eq_some_iff (c := '#') (by decide)
  rw [Regex.past, Regex.past]
  by_cases hs : (s.dropWhile Text.isBlank).head? = some '#'
  · have ht := hhead.mp hs
    rw [if_pos hs, if_pos ht]
    rw [← List.cons_head?_tail hs, ← List.cons_head?_tail ht] at hdrop
    obtain ⟨r, heq, hr⟩ := hdrop.exists_of_cons (by decide)
    rw [(List.cons.inj heq).2]
    exact hr.dropWhile (by decide)
  · rw [if_neg hs, if_neg (mt hhead.mpr hs)]
    exact hdrop

theorem past_of_solid {c : Char} (s : List Char) (hblank : Text.isBlank c = false) (hc : c ≠ '#') :
    past (c :: s) = c :: s := by
  have hdrop : (c :: s).dropWhile Text.isBlank = c :: s :=
    List.dropWhile_cons_of_neg (by rw [hblank]; exact nofun)
  simp [past, hdrop, hc]

theorem peek_eq_some_iff {s : List Char} {c : Char} (hblank : Text.isBlank c = false)
    (hc : c ≠ '#') : peek true s = some c ↔ (past s).head? = some c := by
  have hpeek : peek true s = (past s ++ s).head? := rfl
  rw [hpeek]
  cases hpast : past s with
  | nil =>
    refine iff_of_false (fun hs => ?_) nofun
    rw [List.nil_append] at hs
    rw [← List.cons_head?_tail hs, past_of_solid _ hblank hc] at hpast
    cases hpast
  | cons d t => rfl

/-- The same is seen behind a hyphen. -/
theorem Alike.peek_eq_some_iff {spaced : Bool} {s t : List Char} {c : Char} (h : Alike s t)
    (hblank : Text.isBlank c = false) (hc : c ≠ '#') (hparen : c ≠ ')') :
    peek spaced s = some c ↔ peek spaced t = some c := by
  cases spaced with
  | false => exact h.head?_eq_some_iff hparen
  | true =>
    rw [Regex.peek_eq_some_iff hblank hc, Regex.peek_eq_some_iff hblank hc]
    exact h.past.head?_eq_some_iff hparen

/-- Whether a hyphen stands for itself in front of a text. -/
abbrev Single (spaced : Bool) (s : List Char) : Prop :=
  peek spaced s = some ']' ∨ peek spaced s = some '-'

theorem Alike.single_iff {spaced : Bool} {s t : List Char} (h : Alike s t) :
    Single spaced s ↔ Single spaced t :=
  or_congr (h.peek_eq_some_iff (by decide) (by decide) (by decide))
    (h.peek_eq_some_iff (by decide) (by decide) (by decide))

/-- The range between two atoms. -/
def range? (first last : Atom) : Option ClassSet := do
  let first ← first.toLiteral?
  let last ← last.toLiteral?
  if first.char ≤ last.char then return .range first last else none

theorem range?_eq_some {first last : Atom} {k : ClassSet} (h : range? first last = some k) :
    first.toItem? ≠ none ∧ last.toItem? ≠ none := by
  cases first <;> cases last <;> simp_all [range?, Atom.toLiteral?, Atom.toItem?]

/-- A range after its hyphen. -/
def rangeFrom? (spaced : Bool) (first : Atom) (s : List Char) : Option (ClassSet × List Char) :=
  (classAtom? spaced (skip spaced s)).bind fun x => (range? first x.1).map (·, x.2)

theorem rangeFrom?_local {spaced : Bool} {first : Atom} {s r : List Char} {k : ClassSet}
    (h : rangeFrom? spaced first s = some (k, r)) : Local (rangeFrom? spaced first) s k r := by
  obtain ⟨⟨last, _⟩, hlast, h⟩ := Option.bind_eq_some_iff.mp h
  obtain ⟨_, hrange, heq⟩ := Option.map_eq_some_iff.mp h
  cases heq
  obtain ⟨c, q, hskip, hlocal⟩ := classAtom?_local hlast (range?_eq_some hrange).2
  refine (hlocal.mapOption (range? first) hrange).of_skip hskip fun t u htu _ => ?_
  rw [rangeFrom?, htu]

/-- What follows the first atom of an item of a class.  Here the item may be the last thing that is
left. -/
def itemFrom? (spaced : Bool) (first : Atom) (s : List Char) : Option (ClassSet × List Char) :=
  match skip spaced s with
  | '-' :: q =>
    if Single spaced q then first.toItem?.map (·, '-' :: q) else rangeFrom? spaced first q
  | r => first.toItem?.map (·, r)

/-- An item of a class, which may be the last thing that is left. -/
def item? (spaced : Bool) (s : List Char) : Option (ClassSet × List Char) :=
  (classAtom? spaced s).bind fun x => itemFrom? spaced x.1 x.2

section Item

variable {spaced : Bool} {s r q : List Char} {first : Atom} {k : ClassSet}

theorem itemFrom?_of_hyphen (hskip : skip spaced s = '-' :: q) :
    itemFrom? spaced first s =
      if Single spaced q then first.toItem?.map (·, '-' :: q) else rangeFrom? spaced first q := by
  rw [itemFrom?, hskip]
  rfl

theorem itemFrom?_of_ne (hskip : (skip spaced s).head? ≠ some '-') :
    itemFrom? spaced first s = first.toItem?.map (·, skip spaced s) := by
  rw [itemFrom?]
  split
  · next heq =>
    rw [heq] at hskip
    exact absurd rfl hskip
  · rfl

theorem itemFrom?_local (h : itemFrom? spaced first s = some (k, r)) (hr : r ≠ []) :
    Local (itemFrom? spaced first) s k r := by
  have hstay (hs : first.toItem? = some k) (u : List Char) :
      Local (fun s => first.toItem?.map (·, s)) u k u :=
    ⟨[], rfl, fun t _ => by simp [hs]⟩
  by_cases hhyphen : (skip spaced s).head? = some '-'
  · have hskip := (List.cons_head?_tail hhyphen).symm
    rw [itemFrom?_of_hyphen hskip] at h
    split at h
    · next hsingle =>
      obtain ⟨_, hitem, heq⟩ := Option.map_eq_some_iff.mp h
      cases heq
      rw [← hskip]
      refine (hstay hitem _).skip (by rw [hskip]; exact List.cons_ne_nil _ _) fun t ht => ?_
      rw [hskip] at ht
      obtain ⟨u, hu, halike⟩ := ht.exists_of_cons (by decide)
      rw [itemFrom?_of_hyphen hu, if_pos (halike.single_iff.mp hsingle), hu]
    · next hsingle =>
      refine (rangeFrom?_local h).of_skip hskip fun t u htu halike => ?_
      rw [itemFrom?_of_hyphen htu, if_neg (mt halike.single_iff.mpr hsingle)]
  · rw [itemFrom?_of_ne hhyphen] at h
    obtain ⟨_, hitem, heq⟩ := Option.map_eq_some_iff.mp h
    cases heq
    refine (hstay hitem _).skip hr fun t ht => itemFrom?_of_ne ?_
    rwa [Ne, ← ht.head?_eq_some_iff (by decide)]

theorem itemFrom?_eq_some (h : itemFrom? spaced first s = some (k, r)) : first.toItem? ≠ none := by
  rw [itemFrom?] at h
  split at h
  · split at h
    · exact fun hnone => by simp [hnone] at h
    · obtain ⟨x, -, h⟩ := Option.bind_eq_some_iff.mp h
      obtain ⟨_, hrange, -⟩ := Option.map_eq_some_iff.mp h
      exact (range?_eq_some hrange).1
  · exact fun hnone => by simp [hnone] at h

theorem item?_local (h : item? spaced s = some (k, r)) (hr : r ≠ []) :
    ∃ c q, s = c :: q ∧ Local (fun q => item? spaced (c :: q)) q k r := by
  obtain ⟨⟨first, r'⟩, hfirst, hrest⟩ := Option.bind_eq_some_iff.mp h
  obtain ⟨c, q, rfl, hlocal⟩ := classAtom?_local hfirst (itemFrom?_eq_some hrest)
  exact ⟨c, q, rfl, hlocal.bind (itemFrom?_local hrest hr)⟩

theorem classItem?_of_hyphen (hfirst : classAtom? spaced s = some (first, r))
    (hskip : skip spaced r = '-' :: q) : classItem? spaced s = itemFrom? spaced first r := by
  rw [classItem?, hfirst, Option.bind_eq_bind, Option.bind_some, itemFrom?_of_hyphen hskip]
  simp only [hskip]
  split
  · cases first.toItem? <;> rfl
  · rw [rangeFrom?]
    cases classAtom? spaced (skip spaced q) with
    | none => rfl
    | some x =>
      simp only [Option.bind_eq_bind, Option.bind_some, range?]
      cases first.toLiteral? <;> cases x.1.toLiteral? <;> simp only [Option.bind_none, Option.bind_some]
      · rfl
      · rfl
      · rfl
      · split <;> rfl

theorem classItem?_of_ne {c : Char} (hfirst : classAtom? spaced s = some (first, r))
    (hskip : skip spaced r = c :: q) (hc : c ≠ '-') :
    classItem? spaced s = itemFrom? spaced first r := by
  have hhead : (skip spaced r).head? ≠ some '-' := by
    rw [hskip]
    simpa using hc
  rw [classItem?, hfirst, Option.bind_eq_bind, Option.bind_some, itemFrom?_of_ne hhead]
  dsimp only
  rw [hskip]
  split
  · next heq => cases heq
  · next heq => exact absurd (List.cons.inj heq).1 hc
  · cases first.toItem? <;> rfl

/-- Where something has to follow, it does not matter whether an item may be the last thing. -/
theorem classItem?_bind {β : Type} {f : ClassSet × List Char → Option β}
    (hf : ∀ k, f (k, []) = none) : (classItem? spaced s).bind f = (item? spaced s).bind f := by
  rw [item?]
  cases hfirst : classAtom? spaced s with
  | none => rw [classItem?, hfirst]; rfl
  | some x =>
    obtain ⟨first, r⟩ := x
    rw [Option.bind_some]
    cases hskip : skip spaced r with
    | nil =>
      have hnone : classItem? spaced s = none := by
        rw [classItem?, hfirst, Option.bind_eq_bind, Option.bind_some]
        simp only [hskip]
      rw [hnone, itemFrom?_of_ne (by rw [hskip]; exact nofun), hskip]
      cases first.toItem? with
      | none => rfl
      | some k => exact (hf k).symm
    | cons c q =>
      by_cases hc : c = '-'
      · rw [classItem?_of_hyphen hfirst (hc ▸ hskip)]
      · rw [classItem?_of_ne hfirst hskip hc]

end Item

/-! ## The start of a class -/

/-- The start of a class after its caret. -/
def classLead (spaced negated : Bool) (s : List Char) : Bool × List ClassSet × List Char :=
  match takeRun spaced (· == '-') false s with
  | ([], ']' :: r) => (negated, [.literal { char := ']' }], r)
  | (hyphens, r) => (negated, hyphens.map fun c => .literal { char := c }, r)

theorem classStart_of_caret {spaced : Bool} {s r : List Char} (h : skip spaced s = '^' :: r) :
    classStart spaced s = classLead spaced true r := by
  rw [classStart, h]
  rfl

theorem classStart_of_ne {spaced : Bool} {s : List Char} (h : (skip spaced s).head? ≠ some '^') :
    classStart spaced s = classLead spaced false (skip spaced s) := by
  rw [classStart]
  split
  next negated r heq =>
    split at heq
    · next heq' => exact absurd (congrArg List.head? heq') h
    · cases heq
      rfl

/-- What the start of a class tells, apart from what is left after it. -/
def ofStart (x : Bool × List ClassSet × List Char) : Option ((Bool × List ClassSet) × List Char) :=
  some ((x.1, x.2.1), x.2.2)

/-- The start of a class as a piece of it. -/
def classStart? (spaced : Bool) (s : List Char) : Option ((Bool × List ClassSet) × List Char) :=
  ofStart (classStart spaced s)

theorem classLead_local {spaced turned : Bool} {s r : List Char} {a : Bool × List ClassSet}
    (h : ofStart (classLead spaced turned s) = some (a, r)) (hr : r ≠ []) :
    Local (fun s => ofStart (classLead spaced turned s)) s a r := by
  rw [classLead] at h
  split at h
  · next q hrun =>
    cases h
    obtain ⟨hstops, w, rfl, hw⟩ := exists_of_takeRun hrun (List.cons_ne_nil _ _)
    refine ⟨w ++ [']'], by simp, fun t _ => ?_⟩
    have hrun' := hw (']' :: t) (stops_cons.mpr (stops_cons.mp hstops))
    dsimp only
    rw [List.append_assoc, List.singleton_append, classLead, hrun']
    rfl
  · next hyphens q hbracket hrun =>
    cases h
    obtain ⟨hstops, w, rfl, hw⟩ := exists_of_takeRun hrun hr
    refine ⟨w, rfl, fun t ht => ?_⟩
    dsimp only
    rw [classLead, hw t (ht.stops (passed_paren (by decide)) hstops)]
    split
    · next u heq =>
      obtain ⟨rfl, rfl⟩ := Prod.mk.inj heq
      obtain ⟨v, hv, -⟩ := ht.symm.exists_of_cons (by decide)
      exact (hbracket v rfl hv).elim
    · next heq =>
      cases heq
      rfl

theorem classStart?_local {spaced : Bool} {s r : List Char} {a : Bool × List ClassSet}
    (h : classStart? spaced s = some (a, r)) (hr : r ≠ []) : Local (classStart? spaced) s a r := by
  rw [classStart?] at h
  by_cases hcaret : (skip spaced s).head? = some '^'
  · have hskip := (List.cons_head?_tail hcaret).symm
    rw [classStart_of_caret hskip] at h
    refine (classLead_local h hr).of_skip hskip fun t u htu _ => ?_
    rw [classStart?, classStart_of_caret htu]
  · rw [classStart_of_ne hcaret] at h
    have hskip : skip spaced s ≠ [] := by
      intro hnil
      rw [hnil] at h
      cases h
      exact hr rfl
    refine (classLead_local h hr).skip hskip fun t ht => ?_
    rw [classStart?, classStart_of_ne]
    rwa [Ne, ← ht.head?_eq_some_iff (by decide)]

/-! ## The rest of a class -/

theorem classBody?_nil (spaced : Bool) (n : Nat) (pending : Option (ClassOp × ClassSet))
    (items : List ClassSet) : classBody? spaced n pending items [] = none := by
  cases n with
  | zero => rfl
  | succ n => rw [classBody?, skip_nil]

section Body

variable {spaced : Bool} {n : Nat} {pending : Option (ClassOp × ClassSet)} {items : List ClassSet}
  {s q r : List Char} {k : ClassSet}

theorem classBody?_of_close (hskip : skip spaced s = ']' :: q) :
    classBody? spaced (n + 1) pending items s = some (ClassSet.close pending items, q) := by
  rw [classBody?, hskip]
  rfl

theorem classBody?_of_name (hskip : skip spaced s = '[' :: q)
    (hname : asciiClass? q = some (k, r)) :
    classBody? spaced (n + 1) pending items s = classBody? spaced n pending (k :: items) r := by
  rw [classBody?, hskip]
  simp only [hname]

theorem classBody?_of_class (hskip : skip spaced s = '[' :: q) (hname : asciiClass? q = none) :
    classBody? spaced (n + 1) pending items s =
      (classStart? spaced q).bind fun x =>
        (classBody? spaced n none x.1.2.reverse x.2).bind fun y =>
          classBody? spaced n pending (.bracketed x.1.1 y.1 :: items) y.2 := by
  rw [classBody?, hskip]
  simp only [hname]
  rfl

/-- An operation starts with a character that stands twice. -/
def operation? (c : Char) : Option ClassOp :=
  match c with
  | '&' => some .intersection
  | '-' => some .difference
  | '~' => some .symmetricDifference
  | _ => none

theorem classBody?_of_operation {c : Char} {op : ClassOp} (hskip : skip spaced s = c :: c :: q)
    (hop : operation? c = some op) :
    classBody? spaced (n + 1) pending items s =
      classBody? spaced n (some (op, ClassSet.close pending items)) [] q := by
  rw [classBody?, hskip]
  unfold operation? at hop
  split at hop
  all_goals
    cases hop
    try rfl

/-- What neither opens or closes a class nor is an operation is an item. -/
theorem classBody?_of_item {c : Char} (hskip : skip spaced s = c :: q) (hopen : c ≠ '[')
    (hclose : c ≠ ']') (htwice : operation? c ≠ none → q.head? ≠ some c) :
    classBody? spaced (n + 1) pending items s =
      (item? spaced (c :: q)).bind fun x => classBody? spaced n pending (x.1 :: items) x.2 := by
  rw [← classItem?_bind fun k => classBody?_nil spaced n pending (k :: items), classBody?, hskip]
  split
  · next heq => cases heq
  · next heq => exact absurd (List.cons.inj heq).1 hopen
  · next heq => exact absurd (List.cons.inj heq).1 hclose
  · next heq =>
    cases heq
    exact absurd rfl (htwice nofun)
  · next heq =>
    cases heq
    exact absurd rfl (htwice nofun)
  · next heq =>
    cases heq
    exact absurd rfl (htwice nofun)
  · rfl

/-- The rest of a class is read alike in front of any text that goes on alike, with enough fuel for
its characters. -/
def LocalBody (spaced : Bool) (pending : Option (ClassOp × ClassSet)) (items : List ClassSet)
    (s : List Char) (k : ClassSet) (r : List Char) : Prop :=
  ∃ w, s = w ++ r ∧
    ∀ n t, w.length ≤ n → Alike r t → classBody? spaced n pending items (w ++ t) = some (k, t)

namespace LocalBody

variable {pending' : Option (ClassOp × ClassSet)} {items' : List ClassSet} {u : List Char}
  {α : Type} {f : List Char → Option (α × List Char)} {a : α} {c : Char}

theorem close (hskip : skip spaced s = ']' :: r) :
    LocalBody spaced pending items s (ClassSet.close pending items) r := by
  obtain ⟨w, rfl, hw⟩ := exists_of_skip_cons hskip
  refine ⟨w ++ [']'], by simp, fun n t hn _ => ?_⟩
  obtain ⟨n, rfl⟩ : ∃ m, n = m + 1 := ⟨n - 1, by simp at hn; omega⟩
  rw [List.append_assoc]
  exact classBody?_of_close (hw t)

/-- One more piece of a class in front of its rest. -/
theorem step (hskip : skip spaced s = c :: q) (hf : Local f q a u)
    (h : LocalBody spaced pending' items' u k r)
    (hstep : ∀ n t v v', skip spaced t = c :: v → Alike q v → f v = some (a, v') →
      classBody? spaced (n + 1) pending items t = classBody? spaced n pending' items' v') :
    LocalBody spaced pending items s k r := by
  obtain ⟨w, rfl, hw⟩ := exists_of_skip_cons hskip
  obtain ⟨v, rfl, hf⟩ := hf
  obtain ⟨x, rfl, hbody⟩ := h
  refine ⟨w ++ c :: (v ++ x), by simp, fun n t hn ht => ?_⟩
  obtain ⟨n, rfl⟩ : ∃ m, n = m + 1 := ⟨n - 1, by simp at hn; omega⟩
  have hskip' := hw (v ++ (x ++ t))
  have halike := ht.append x
  have hlist : w ++ c :: (v ++ x) ++ t = w ++ c :: (v ++ (x ++ t)) := by simp
  rw [hlist, hstep n _ _ _ hskip' (halike.append v) (hf _ halike)]
  exact hbody n t (by simp at hn; omega) ht

/-- A class within a class in front of the rest of that. -/
theorem nested {x : Bool × List ClassSet} {v : List Char} {inner : ClassSet}
    (hskip : skip spaced s = '[' :: q) (hname : asciiClass? q = none)
    (hstart : Local (classStart? spaced) q x u)
    (hinner : LocalBody spaced none x.2.reverse u inner v)
    (h : LocalBody spaced pending (.bracketed x.1 inner :: items) v k r) :
    LocalBody spaced pending items s k r := by
  obtain ⟨w, rfl, hw⟩ := exists_of_skip_cons hskip
  obtain ⟨w₁, rfl, hstart⟩ := hstart
  obtain ⟨w₂, rfl, hinner⟩ := hinner
  obtain ⟨w₃, rfl, hbody⟩ := h
  refine ⟨w ++ '[' :: (w₁ ++ (w₂ ++ w₃)), by simp, fun n t hn ht => ?_⟩
  obtain ⟨n, rfl⟩ : ∃ m, n = m + 1 := ⟨n - 1, by simp at hn; omega⟩
  have hskip' := hw (w₁ ++ (w₂ ++ (w₃ ++ t)))
  have halike := ht.append w₃
  have hname' := ((halike.append w₂).append w₁).asciiClass?_eq_none hname
  have hlist : w ++ '[' :: (w₁ ++ (w₂ ++ w₃)) ++ t = w ++ '[' :: (w₁ ++ (w₂ ++ (w₃ ++ t))) := by
    simp
  simp only [List.length_append, List.length_cons] at hn
  rw [hlist, classBody?_of_class hskip' hname', hstart _ (halike.append w₂), Option.bind_some,
    hinner n _ (by omega) halike, Option.bind_some]
  exact hbody n t (by omega) ht

end LocalBody

theorem asciiClass?_local (h : asciiClass? s = some (k, r)) : Local asciiClass? s k r := by
  obtain ⟨w, hs, -, hread⟩ := exists_of_asciiClass? h
  exact ⟨w, hs, fun t _ => hread t⟩

theorem classBody?_local (h : classBody? spaced n pending items s = some (k, r)) :
    LocalBody spaced pending items s k r := by
  induction n generalizing pending items s k r with
  | zero => cases h
  | succ n ih =>
    cases hskip : skip spaced s with
    | nil =>
      rw [classBody?, hskip] at h
      cases h
    | cons c q =>
      by_cases hopen : c = '['
      · subst hopen
        cases hname : asciiClass? q with
        | some x =>
          rw [classBody?_of_name hskip hname] at h
          exact .step hskip (asciiClass?_local hname) (ih h) fun n t v v' htv _ hv =>
            classBody?_of_name htv hv
        | none =>
          rw [classBody?_of_class hskip hname] at h
          obtain ⟨⟨x, u⟩, hstart, h⟩ := Option.bind_eq_some_iff.mp h
          obtain ⟨⟨inner, v⟩, hinner, hrest⟩ := Option.bind_eq_some_iff.mp h
          have hu : u ≠ [] := by
            rintro rfl
            rw [classBody?_nil] at hinner
            cases hinner
          exact .nested hskip hname (classStart?_local hstart hu) (ih hinner) (ih hrest)
      by_cases hclose : c = ']'
      · subst hclose
        rw [classBody?_of_close hskip] at h
        cases h
        exact .close hskip
      by_cases htwice : operation? c ≠ none ∧ q.head? = some c
      · obtain ⟨hop, hq⟩ := htwice
        obtain ⟨op, hop⟩ := Option.ne_none_iff_exists'.mp hop
        obtain ⟨q, rfl⟩ := List.head?_eq_some_iff.mp hq
        rw [classBody?_of_operation hskip hop] at h
        refine .step hskip (again?_local c q) (ih h) fun n t v v' htv _ hv => ?_
        obtain rfl := again?_eq_some_iff.mp hv
        exact classBody?_of_operation htv hop
      · have hitem (hop : operation? c ≠ none) : q.head? ≠ some c := fun hq => htwice ⟨hop, hq⟩
        rw [classBody?_of_item hskip hopen hclose hitem] at h
        obtain ⟨⟨item, u⟩, hread, hrest⟩ := Option.bind_eq_some_iff.mp h
        have hu : u ≠ [] := by
          rintro rfl
          rw [classBody?_nil] at hrest
          cases hrest
        obtain ⟨d, q', heq, hlocal⟩ := item?_local hread hu
        cases heq
        refine .step hskip hlocal (ih hrest) fun n t v v' htv halike hv => ?_
        have hitem' (hop : operation? c ≠ none) : v.head? ≠ some c := by
          rw [Ne, ← halike.head?_eq_some_iff]
          · exact hitem hop
          · rintro rfl
            exact hop rfl
        rw [classBody?_of_item htv hopen hclose hitem', hv, Option.bind_some]

end Body

theorem class?_eq (spaced : Bool) (s : List Char) :
    class? spaced s = (classStart? spaced s).bind fun x =>
      (classBody? spaced (x.2.length + 1) none x.1.2.reverse x.2).map fun y =>
        (.bracketed x.1.1 y.1, y.2) := by
  rw [class?, classStart?]
  obtain ⟨negated, first, r⟩ := classStart spaced s
  simp only [ofStart, Option.bind_eq_bind, Option.bind_some]
  cases classBody? spaced (r.length + 1) none first.reverse r <;> rfl

theorem class?_local {spaced : Bool} {s r : List Char} {a : Ast}
    (h : class? spaced s = some (a, r)) : Local (class? spaced) s a r := by
  rw [class?_eq] at h
  obtain ⟨⟨x, u⟩, hstart, h⟩ := Option.bind_eq_some_iff.mp h
  obtain ⟨⟨inner, v⟩, hinner, heq⟩ := Option.map_eq_some_iff.mp h
  cases heq
  have hu : u ≠ [] := by
    rintro rfl
    rw [classBody?_nil] at hinner
    cases hinner
  obtain ⟨w₁, rfl, hread⟩ := classStart?_local hstart hu
  obtain ⟨w₂, rfl, hbody⟩ := classBody?_local hinner
  refine ⟨w₁ ++ w₂, by simp, fun t ht => ?_⟩
  have hlength : w₂.length ≤ (w₂ ++ t).length + 1 := by
    rw [List.length_append]
    omega
  rw [class?_eq, List.append_assoc, hread _ (ht.append w₂), Option.bind_some, hbody _ t hlength ht]
  rfl

end TextTemplate.Regex
