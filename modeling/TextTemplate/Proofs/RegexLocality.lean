import TextTemplate.Pattern
import Mathlib.Data.List.Basic
import Mathlib.Data.List.TakeWhile

/-!
# Readers that look no further than they have to

What reads a piece of a pattern looks behind the piece only to see that it goes on no further.  So it
reads the same piece in front of every rest that goes on alike, up to where a pattern or a group may
end (`Alike`).  A reader with this property is `Local`, and so are readers that are made of such
(`Local.bind`).

Blanks and comments are passed over in front of what is read.  A comment may still be open where
nothing is left, and what is put behind is then swallowed.  So most facts here ask that something is
left.
-/

namespace TextTemplate.Regex

open Scanner

/-! ## Texts that go on alike -/

/-- Whether a text starts with none of some characters. -/
def Stops (p : Char → Bool) (s : List Char) : Prop := ∀ c, s.head? = some c → p c = false

/-- Whether a pattern or a group may end in front of a text. -/
abbrev AtEnd (s : List Char) : Prop := Stops (· != ')') s

theorem stops_nil {p : Char → Bool} : Stops p [] := nofun

theorem stops_cons {p : Char → Bool} {c : Char} {s : List Char} : Stops p (c :: s) ↔ p c = false :=
  ⟨fun h => h c rfl, fun h _ hd => Option.some.inj hd ▸ h⟩

theorem AtEnd.eq_nil_or_cons {s : List Char} (h : AtEnd s) : s = [] ∨ ∃ r, s = ')' :: r := by
  cases s with
  | nil => exact .inl rfl
  | cons c r =>
    obtain rfl : c = ')' := by simpa using stops_cons.mp h
    exact .inr ⟨r, rfl⟩

/-- Texts that are the same up to a place where a pattern or a group may end in both. -/
inductive Alike : List Char → List Char → Prop
  | atEnd {s t : List Char} (hs : AtEnd s) (ht : AtEnd t) : Alike s t
  | cons (c : Char) {s t : List Char} (h : Alike s t) : Alike (c :: s) (c :: t)

namespace Alike

variable {s t : List Char}

theorem symm (h : Alike s t) : Alike t s := by
  induction h with
  | atEnd hs ht => exact .atEnd ht hs
  | cons c h ih => exact .cons c ih

theorem append (w : List Char) (h : Alike s t) : Alike (w ++ s) (w ++ t) := by
  induction w with
  | nil => exact h
  | cons c w ih => exact .cons c ih

theorem exists_of_cons {c : Char} (h : Alike (c :: s) t) (hc : c ≠ ')') :
    ∃ r, t = c :: r ∧ Alike s r := by
  cases h with
  | atEnd hs ht => exact absurd (stops_cons.mp hs) (by simpa using hc)
  | cons _ h => exact ⟨_, rfl, h⟩

theorem exists_of_append {w : List Char} (h : Alike (w ++ s) t) (hw : ')' ∉ w) :
    ∃ r, t = w ++ r ∧ Alike s r := by
  induction w generalizing t with
  | nil => exact ⟨t, rfl, h⟩
  | cons c w ih =>
    obtain ⟨hc, hw⟩ := List.ne_and_not_mem_of_not_mem_cons hw
    obtain ⟨t, rfl, hrest⟩ := h.exists_of_cons hc.symm
    obtain ⟨r, rfl, hr⟩ := ih hrest hw
    exact ⟨r, rfl, hr⟩

theorem head?_eq_some_iff {c : Char} (h : Alike s t) (hc : c ≠ ')') :
    s.head? = some c ↔ t.head? = some c := by
  cases h with
  | atEnd hs ht =>
    exact iff_of_false (fun h => hc (by simpa using hs c h)) (fun h => hc (by simpa using ht c h))
  | cons d h => rfl

theorem stops {p : Char → Bool} (h : Alike s t) (hp : p ')' = false) (hs : Stops p s) :
    Stops p t := by
  cases h with
  | atEnd _ ht =>
    intro c hc
    rw [show c = ')' by simpa using ht c hc]
    exact hp
  | cons d h => exact stops_cons.mpr (stops_cons.mp hs)

theorem dropWhile {p : Char → Bool} (h : Alike s t) (hp : p ')' = false) :
    Alike (s.dropWhile p) (t.dropWhile p) := by
  have hstays {s : List Char} (hs : AtEnd s) : s.dropWhile p = s := by
    cases s with
    | nil => rfl
    | cons c s =>
      obtain rfl : c = ')' := by simpa using stops_cons.mp hs
      exact List.dropWhile_cons_of_neg (by rw [hp]; exact nofun)
  induction h with
  | atEnd hs ht =>
    rw [hstays hs, hstays ht]
    exact .atEnd hs ht
  | cons c h ih =>
    rw [List.dropWhile_cons, List.dropWhile_cons]
    split
    · exact ih
    · exact .cons c h

end Alike

/-! ## Local readers -/

section Local

variable {α β : Type}

/-- Whether what a reader makes of a text is due to the piece in front of what it leaves: in front of
any rest that is alike, it makes the same of it. -/
def Local (f : List Char → Option (α × List Char)) (s : List Char) (a : α) (r : List Char) : Prop :=
  ∃ w, s = w ++ r ∧ ∀ t, Alike r t → f (w ++ t) = some (a, t)

namespace Local

variable {f g : List Char → Option (α × List Char)} {s q r : List Char} {a : α} {b : β}

theorem pure (a : α) (s : List Char) : Local (fun s => some (a, s)) s a s :=
  ⟨[], rfl, fun _ _ => rfl⟩

/-- Locality is kept if the reader reads at least as much. -/
theorem of_imp (h : Local f s a r) (hfg : ∀ t x, Alike s t → f t = some x → g t = some x) :
    Local g s a r := by
  obtain ⟨w, rfl, h⟩ := h
  exact ⟨w, rfl, fun t ht => hfg _ _ (ht.append w) (h t ht)⟩

theorem of_eq (h : Local f s a r) (hfg : ∀ t, Alike s t → g t = f t) : Local g s a r :=
  h.of_imp fun t _ ht hf => (hfg t ht).trans hf

theorem map (k : α → β) (h : Local f s a r) :
    Local (fun s => (f s).map fun x => (k x.1, x.2)) s (k a) r := by
  obtain ⟨w, rfl, h⟩ := h
  exact ⟨w, rfl, fun t ht => by simp only [h t ht, Option.map_some]⟩

/-- Two readers one after the other. -/
theorem bind {g : α → List Char → Option (β × List Char)} (hf : Local f s a q)
    (hg : Local (g a) q b r) : Local (fun s => (f s).bind fun x => g x.1 x.2) s b r := by
  obtain ⟨w, rfl, hf⟩ := hf
  obtain ⟨v, rfl, hg⟩ := hg
  refine ⟨w ++ v, (List.append_assoc ..).symm, fun t ht => ?_⟩
  simp only [List.append_assoc, hf _ (ht.append v), Option.bind_some, hg t ht]

/-- A reader whose value is worked out by a function that may fail. -/
theorem mapOption (k : α → Option β) (h : Local f s a r) (hk : k a = some b) :
    Local (fun s => (f s).bind fun x => (k x.1).map (·, x.2)) s b r :=
  h.bind (g := fun a s => (k a).map (·, s)) ⟨[], rfl, fun t _ => by simp only [hk]; rfl⟩

theorem cons {c : Char} (h : Local (fun s => f (c :: s)) s a r) : Local f (c :: s) a r := by
  obtain ⟨w, rfl, h⟩ := h
  exact ⟨c :: w, rfl, h⟩

end Local

end Local

/-! ## Blanks and runs -/

/-- The characters that a run passes over. -/
def passed (spaced : Bool) (p : Char → Bool) (c : Char) : Bool :=
  spaced && (Text.isBlank c || c == '#') || p c

theorem passed_paren {spaced : Bool} {p : Char → Bool} (hp : p ')' = false) :
    passed spaced p ')' = false := by
  rw [passed, hp]
  cases spaced <;> decide

theorem takeRun_of_stops {spaced : Bool} {p : Char → Bool} {s : List Char}
    (h : Stops (passed spaced p) s) : takeRun spaced p false s = ([], s) := by
  cases s with
  | nil => rfl
  | cons c s =>
    have hc := stops_cons.mp h
    simp only [passed, Bool.or_eq_false_iff, Bool.and_eq_false_iff] at hc
    rw [takeRun]
    grind

/-- A run that leaves something stops in front of any text that it does not go on in. -/
theorem exists_of_takeRun {spaced : Bool} {p : Char → Bool} {comment : Bool}
    {s ds r : List Char} (h : takeRun spaced p comment s = (ds, r)) (hr : r ≠ []) :
    Stops (passed spaced p) r ∧
      ∃ w, s = w ++ r ∧ ∀ t, Stops (passed spaced p) t → takeRun spaced p comment (w ++ t) = (ds, t) := by
  fun_induction takeRun spaced p comment s generalizing ds with
  | case1 =>
    cases h
    exact absurd rfl hr
  | case2 c s ih =>
    obtain ⟨hstops, w, rfl, hw⟩ := ih h
    refine ⟨hstops, c :: w, rfl, fun t ht => ?_⟩
    rw [List.cons_append, takeRun, hw t ht]
  | case3 c s hblank ih =>
    obtain ⟨hstops, w, rfl, hw⟩ := ih h
    refine ⟨hstops, c :: w, rfl, fun t ht => ?_⟩
    rw [List.cons_append, takeRun, if_pos hblank, hw t ht]
  | case4 c s hblank hcomment ih =>
    obtain ⟨hstops, w, rfl, hw⟩ := ih h
    refine ⟨hstops, c :: w, rfl, fun t ht => ?_⟩
    rw [List.cons_append, takeRun, if_neg hblank, if_pos hcomment, hw t ht]
  | case5 c s hblank hcomment hp =>
    rename_i run ih
    cases h
    obtain ⟨hstops, w, hs, hw⟩ := ih rfl
    refine ⟨hstops, c :: w, congrArg (c :: ·) hs, fun t ht => ?_⟩
    rw [List.cons_append, takeRun, if_neg hblank, if_neg hcomment, if_pos hp, hw t ht]
  | case6 c s hblank hcomment hp =>
    cases h
    have hc : passed spaced p c = false := by grind [passed]
    exact ⟨stops_cons.mpr hc, [], rfl, fun t ht => takeRun_of_stops ht⟩

theorem skip_eq_takeRun (spaced : Bool) (s : List Char) :
    takeRun spaced (fun _ => false) false s = ([], skip spaced s) := by
  have hblanks (comment : Bool) (s : List Char) :
      takeRun true (fun _ => false) comment s = ([], skipBlanks comment s) := by
    fun_induction skipBlanks comment s with
    | case1 => rfl
    | case2 c s ih => rw [takeRun, ih]
    | case3 c s hblank ih => rw [takeRun, if_pos (by simpa using hblank), ih]
    | case4 s hblank ih => rw [takeRun, if_neg (by simpa using hblank), if_pos (by decide), ih]
    | case5 c s hblank hcomment => grind [takeRun]
  cases spaced with
  | false => cases s <;> rfl
  | true => exact hblanks false s

theorem exists_of_skip {spaced : Bool} {s r : List Char} (h : skip spaced s = r) (hr : r ≠ []) :
    Stops (passed spaced fun _ => false) r ∧
      ∃ w, s = w ++ r ∧ ∀ t, Stops (passed spaced fun _ => false) t → skip spaced (w ++ t) = t := by
  subst h
  obtain ⟨hstops, w, hs, hw⟩ := exists_of_takeRun (skip_eq_takeRun spaced s) hr
  refine ⟨hstops, w, hs, fun t ht => ?_⟩
  have hrun := hw t ht
  rw [skip_eq_takeRun] at hrun
  exact congrArg Prod.snd hrun

theorem skip_of_stops {spaced : Bool} {s : List Char}
    (h : Stops (passed spaced fun _ => false) s) : skip spaced s = s := by
  have hrun := takeRun_of_stops h
  rw [skip_eq_takeRun] at hrun
  exact congrArg Prod.snd hrun

theorem skip_nil (spaced : Bool) : skip spaced [] = [] := skip_of_stops stops_nil

theorem skip_paren (spaced : Bool) (s : List Char) : skip spaced (')' :: s) = ')' :: s :=
  skip_of_stops (stops_cons.mpr (passed_paren rfl))

/-- Blanks and comments are passed over alike in front of a character and anything behind it. -/
theorem exists_of_skip_cons {spaced : Bool} {s r : List Char} {c : Char}
    (h : skip spaced s = c :: r) :
    ∃ w, s = w ++ c :: r ∧ ∀ t, skip spaced (w ++ c :: t) = c :: t := by
  obtain ⟨hstops, w, hs, hw⟩ := exists_of_skip h (List.cons_ne_nil c r)
  exact ⟨w, hs, fun t => hw _ (stops_cons.mpr (stops_cons.mp hstops))⟩

/-- What is not passed over is not passed over in front of anything else. -/
theorem skip_cons {spaced : Bool} {s r : List Char} {c : Char} (h : skip spaced s = c :: r)
    (t : List Char) : skip spaced (c :: t) = c :: t := by
  obtain ⟨hstops, -⟩ := exists_of_skip h (List.cons_ne_nil c r)
  exact skip_of_stops (stops_cons.mpr (stops_cons.mp hstops))

/-- What a run starts with, past blanks and comments. -/
theorem exists_skip_of_takeRun {spaced : Bool} {p : Char → Bool} {s run r : List Char} {c : Char}
    (h : takeRun spaced p false s = (c :: run, r)) : p c = true ∧ ∃ q, skip spaced s = c :: q := by
  have hrun {comment : Bool} {s : List Char} (h : takeRun spaced p comment s = (c :: run, r)) :
      p c = true ∧ ∃ q, takeRun spaced (fun _ => false) comment s = ([], c :: q) := by
    fun_induction takeRun spaced p comment s with
    | case1 => cases h
    | case2 d s ih =>
      rw [takeRun]
      exact ih h
    | case3 d s hblank ih =>
      rw [takeRun, if_pos hblank]
      exact ih h
    | case4 d s hblank hcomment ih =>
      rw [takeRun, if_neg hblank, if_pos hcomment]
      exact ih h
    | case5 d s hblank hcomment hp =>
      cases h
      refine ⟨hp, s, ?_⟩
      rw [takeRun, if_neg hblank, if_neg hcomment, if_neg Bool.false_ne_true]
    | case6 => cases h
  obtain ⟨hc, q, hq⟩ := hrun h
  rw [skip_eq_takeRun] at hq
  exact ⟨hc, q, congrArg Prod.snd hq⟩

theorem stops_dropWhile (p : Char → Bool) (s : List Char) : Stops p (s.dropWhile p) := by
  intro c hc
  have hnot := List.head?_dropWhile_not p s
  rw [hc] at hnot
  simpa using hnot

section While

variable {p : Char → Bool} {s t : List Char} (ht : Stops p t)

include ht

theorem takeWhile_of_stops : t.takeWhile p = [] := by
  cases t with
  | nil => rfl
  | cons c t => exact List.takeWhile_cons_of_neg (by rw [stops_cons.mp ht]; exact nofun)

theorem dropWhile_of_stops : t.dropWhile p = t := by
  cases t with
  | nil => rfl
  | cons c t => exact List.dropWhile_cons_of_neg (by rw [stops_cons.mp ht]; exact nofun)

theorem takeWhile_takeWhile_append : (s.takeWhile p ++ t).takeWhile p = s.takeWhile p := by
  rw [List.takeWhile_append_of_pos fun c hc => List.mem_takeWhile_imp hc, takeWhile_of_stops ht,
    List.append_nil]

theorem dropWhile_takeWhile_append : (s.takeWhile p ++ t).dropWhile p = t := by
  rw [List.dropWhile_append_of_pos fun c hc => List.mem_takeWhile_imp hc, dropWhile_of_stops ht]

end While

namespace Local

variable {α : Type} {f g : List Char → Option (α × List Char)} {spaced : Bool}
  {s q r : List Char} {a : α}

/-- A reader that goes on as another one past blanks and comments. -/
theorem skip (hs : Scanner.skip spaced s ≠ []) (h : Local f (Scanner.skip spaced s) a r)
    (hfg : ∀ t, Alike (Scanner.skip spaced s) (Scanner.skip spaced t) →
      g t = f (Scanner.skip spaced t)) : Local g s a r := by
  obtain ⟨hstops, w, hw, hskip⟩ := exists_of_skip rfl hs
  obtain ⟨v, hv, hf⟩ := h
  refine ⟨w ++ v, by rw [List.append_assoc, ← hv, ← hw], fun t ht => ?_⟩
  have hstops' : Stops (passed spaced fun _ => false) (v ++ t) :=
    (ht.append v).stops (passed_paren rfl) (hv ▸ hstops)
  have hskip' := hskip _ hstops'
  rw [List.append_assoc, hfg _ (by rw [hskip', hv]; exact ht.append v), hskip', hf t ht]

/-- A reader that takes a character past blanks and comments, and then goes on as another one. -/
theorem of_skip {c : Char} (hs : Scanner.skip spaced s = c :: q) (h : Local f q a r)
    (hfg : ∀ t u, Scanner.skip spaced t = c :: u → Alike q u → g t = f u) : Local g s a r := by
  obtain ⟨w, rfl, hskip⟩ := exists_of_skip_cons hs
  obtain ⟨v, rfl, hf⟩ := h
  refine ⟨w ++ c :: v, by rw [List.append_assoc, List.cons_append], fun t ht => ?_⟩
  have hskip' := hskip (v ++ t)
  rw [List.append_assoc, List.cons_append, hfg _ _ hskip' (ht.append v), hf t ht]

end Local

/-- A run up to a character that ends it. -/
def runTo? (spaced : Bool) (p : Char → Bool) (stop : Char) (s : List Char) :
    Option (List Char × List Char) :=
  match takeRun spaced p false s with
  | (run, c :: r) => if c = stop then some (run, r) else none
  | _ => none

theorem runTo?_of_takeRun {spaced : Bool} {p : Char → Bool} {c : Char} {s run r : List Char}
    (h : takeRun spaced p false s = (run, c :: r)) : runTo? spaced p c s = some (run, r) := by
  simp [runTo?, h]

theorem runTo?_local {spaced : Bool} {p : Char → Bool} {stop : Char} {s run r : List Char}
    (h : runTo? spaced p stop s = some (run, r)) : Local (runTo? spaced p stop) s run r := by
  rw [runTo?] at h
  split at h
  · next run c r hrun =>
    split at h
    · next hc =>
      subst hc
      cases h
      obtain ⟨hstops, w, rfl, hw⟩ := exists_of_takeRun hrun (List.cons_ne_nil c r)
      refine ⟨w ++ [c], by simp, fun t _ => ?_⟩
      rw [List.append_assoc]
      exact runTo?_of_takeRun (hw _ (stops_cons.mpr (stops_cons.mp hstops)))
    · cases h
  · cases h

/-- A given character. -/
def again? (c : Char) (s : List Char) : Option (Unit × List Char) :=
  (Text.after? [c] s).map (Unit.unit, ·)

theorem again?_eq_some_iff {c : Char} {s r : List Char} : again? c s = some ((), r) ↔ s = c :: r := by
  rw [again?, Option.map_eq_some_iff]
  constructor
  · rintro ⟨_, hs, heq⟩
    cases heq
    exact Text.after?_eq_some_iff.mp hs
  · intro hs
    exact ⟨r, Text.after?_eq_some_iff.mpr hs, rfl⟩

theorem again?_local (c : Char) (s : List Char) : Local (again? c) (c :: s) () s :=
  ⟨[c], rfl, fun _ _ => again?_eq_some_iff.mpr rfl⟩

end TextTemplate.Regex
