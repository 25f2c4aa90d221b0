import TextTemplate.Proofs.RegexClasses

/-!
# Repetitions and openings are read alike

Counts of repetitions (`counted?_local`) and what opens a group (`opening?_local`) are read alike in
front of any rest that goes on alike.
-/

namespace TextTemplate.Regex

open Scanner

/-! ## Repetitions -/

theorem greed_of_ne {s : List Char} (h : s.head? ≠ some '?') : greed s = (true, s) := by
  rw [greed]
  exact fun r hr => h (congrArg List.head? hr)

theorem greed_local (s : List Char) : Local (fun s => some (greed s)) s (greed s).1 (greed s).2 := by
  by_cases h : s.head? = some '?'
  · obtain ⟨s, rfl⟩ := List.head?_eq_some_iff.mp h
    exact (Local.pure false s).cons
  · rw [greed_of_ne h]
    refine (Local.pure true s).of_eq fun t ht => ?_
    rw [greed_of_ne (by rwa [Ne, ← ht.head?_eq_some_iff (by decide)])]

theorem decimal?_nil (spaced : Bool) : decimal? spaced [] = none := rfl

theorem decimal?_local {spaced : Bool} {s r : List Char} {n : Nat}
    (h : decimal? spaced s = some (n, r)) (hr : r ≠ []) : Local (decimal? spaced) s n r := by
  obtain ⟨k, hk, heq⟩ := Option.bind_eq_some_iff.mp h
  rcases hrun : takeRun spaced Char.isDigit false (s.dropWhile Text.isBlank) with ⟨ds, u⟩
  rw [hrun] at hk heq
  cases heq
  have hu : u ≠ [] := by
    rintro rfl
    exact hr (skip_nil spaced)
  obtain ⟨hstops, w, hw, hread⟩ := exists_of_takeRun hrun hu
  obtain ⟨hstops', w', hw', hread'⟩ := exists_of_skip rfl hr
  have hblank : Text.isBlank ')' = false := by decide
  refine ⟨s.takeWhile Text.isBlank ++ (w ++ (u.takeWhile Text.isBlank ++ w')), ?_, fun t ht => ?_⟩
  · simp only [List.append_assoc, ← hw', List.takeWhile_append_dropWhile, ← hw]
  -- what follows each of the four pieces goes on alike
  have hrest : Alike (u.dropWhile Text.isBlank) (w' ++ t) := hw' ▸ ht.append w'
  have hnumber : Alike u (u.takeWhile Text.isBlank ++ (w' ++ t)) := by
    have := hrest.append (u.takeWhile Text.isBlank)
    rwa [List.takeWhile_append_dropWhile] at this
  have hstart : Alike (s.dropWhile Text.isBlank) (w ++ (u.takeWhile Text.isBlank ++ (w' ++ t))) :=
    hw ▸ hnumber.append w
  rw [decimal?, List.append_assoc, List.append_assoc, List.append_assoc,
    dropWhile_takeWhile_append (hstart.stops hblank (stops_dropWhile _ _)),
    hread _ (hnumber.stops (passed_paren (by decide)) hstops)]
  dsimp only
  rw [hk, dropWhile_takeWhile_append (hrest.stops hblank (stops_dropWhile _ _)),
    hread' t (ht.stops (passed_paren rfl) hstops')]
  rfl

/-- The end of a counted repetition. -/
def countedEnd? (t : Option Times) (s : List Char) : Option (Times × List Char) :=
  match s with
  | '\x7d' :: r => t.map (·, r)
  | _ => none

theorem countedEnd?_local {x : Option Times} {s r : List Char} {t : Times}
    (h : countedEnd? x s = some (t, r)) : Local (countedEnd? x) s t r := by
  unfold countedEnd? at h
  split at h
  · obtain ⟨t, rfl, heq⟩ := Option.map_eq_some_iff.mp h
    cases heq
    exact ⟨['\x7d'], rfl, fun _ _ => rfl⟩
  · cases h

/-- A counted repetition after its comma. -/
def countedMost? (spaced : Bool) (least : Nat) (s : List Char) : Option (Times × List Char) :=
  match skip spaced s with
  | '\x7d' :: r => some (⟨least, none⟩, r)
  | r => (decimal? spaced r).bind fun x =>
    countedEnd? (if least ≤ x.1 then some ⟨least, some x.1⟩ else none) x.2

theorem countedMost?_of_brace {spaced : Bool} {s r : List Char} {least : Nat}
    (h : skip spaced s = '\x7d' :: r) :
    countedMost? spaced least s = some (⟨least, none⟩, r) := by
  rw [countedMost?, h]
  rfl

theorem countedMost?_of_ne {spaced : Bool} {s : List Char} {least : Nat}
    (h : (skip spaced s).head? ≠ some '\x7d') :
    countedMost? spaced least s = (decimal? spaced (skip spaced s)).bind fun x =>
      countedEnd? (if least ≤ x.1 then some ⟨least, some x.1⟩ else none) x.2 := by
  rw [countedMost?]
  split
  · next heq => exact absurd (congrArg List.head? heq) h
  · rfl

theorem countedMost?_local {spaced : Bool} {s r : List Char} {least : Nat} {t : Times}
    (h : countedMost? spaced least s = some (t, r)) : Local (countedMost? spaced least) s t r := by
  by_cases hbrace : (skip spaced s).head? = some '\x7d'
  · have hskip := (List.cons_head?_tail hbrace).symm
    rw [countedMost?_of_brace hskip] at h
    cases h
    exact (Local.pure _ _).of_skip hskip fun t u htu _ => countedMost?_of_brace htu
  · rw [countedMost?_of_ne hbrace] at h
    obtain ⟨⟨most, u⟩, hmost, hend⟩ := Option.bind_eq_some_iff.mp h
    have hu : u ≠ [] := by
      rintro rfl
      cases hend
    have hskip : skip spaced s ≠ [] := fun hnil => by
      rw [hnil, decimal?_nil] at hmost
      cases hmost
    have hlocal := (decimal?_local hmost hu).bind
      (g := fun most => countedEnd? (if least ≤ most then some ⟨least, some most⟩ else none))
      (countedEnd?_local hend)
    refine hlocal.skip hskip fun t ht => countedMost?_of_ne ?_
    rwa [Ne, ← ht.head?_eq_some_iff (by decide)]

/-- A counted repetition after its first number. -/
def countedFrom? (spaced : Bool) (least : Nat) (s : List Char) : Option (Times × List Char) :=
  match s with
  | '\x7d' :: r => some (⟨least, some least⟩, r)
  | ',' :: r => countedMost? spaced least r
  | _ => none

theorem countedFrom?_local {spaced : Bool} {s r : List Char} {least : Nat} {t : Times}
    (h : countedFrom? spaced least s = some (t, r)) : Local (countedFrom? spaced least) s t r := by
  unfold countedFrom? at h
  split at h
  · cases h
    exact ⟨['\x7d'], rfl, fun _ _ => rfl⟩
  · exact (countedMost?_local h).cons
  · cases h

theorem counted?_eq (spaced : Bool) (s : List Char) :
    counted? spaced s =
      (decimal? spaced (skip spaced s)).bind fun x => countedFrom? spaced x.1 x.2 := by
  rw [counted?]
  cases decimal? spaced (skip spaced s) with
  | none => rfl
  | some x =>
    obtain ⟨least, r⟩ := x
    simp only [Option.bind_eq_bind, Option.bind_some]
    split
    · rfl
    · rw [countedFrom?]
      split
      · next hskip =>
        rw [countedMost?_of_brace hskip]
        rfl
      · next r _ _ hbrace =>
        rw [countedMost?_of_ne fun hhead => hbrace _ (List.cons_head?_tail hhead).symm]
        refine Option.bind_congr fun x _ => ?_
        obtain ⟨most, u⟩ := x
        split
        · next heq =>
          cases heq
          rw [countedEnd?]
          split <;> rfl
        · next hend =>
          unfold countedEnd?
          split
          · next r heq => exact (hend r heq).elim
          · rfl
    · next hbrace hcomma =>
      unfold countedFrom?
      split
      · exact (hbrace _ rfl).elim
      · exact (hcomma _ rfl).elim
      · rfl

theorem counted?_local {spaced : Bool} {s r : List Char} {t : Times}
    (h : counted? spaced s = some (t, r)) : Local (counted? spaced) s t r := by
  rw [counted?_eq] at h
  obtain ⟨⟨least, u⟩, hleast, hrest⟩ := Option.bind_eq_some_iff.mp h
  have hu : u ≠ [] := by
    rintro rfl
    cases hrest
  have hskip : skip spaced s ≠ [] := fun hnil => by
    rw [hnil, decimal?_nil] at hleast
    cases hleast
  exact ((decimal?_local hleast hu).bind (countedFrom?_local hrest)).skip hskip fun t _ =>
    counted?_eq spaced t

/-- The count of a repetition starts with a digit or a blank. -/
theorem exists_of_counted? {spaced : Bool} {s : List Char} {x : Times × List Char}
    (h : counted? spaced s = some x) :
    ∃ c q, skip spaced s = c :: q ∧ isBoundaryName c = false := by
  rw [counted?_eq] at h
  obtain ⟨⟨least, v⟩, hleast, -⟩ := Option.bind_eq_some_iff.mp h
  cases hskip : skip spaced s with
  | nil =>
    rw [hskip] at hleast
    cases hleast
  | cons c q =>
    refine ⟨c, q, rfl, ?_⟩
    rw [hskip] at hleast
    cases hblank : Text.isBlank c with
    | true => exact isBoundaryName_of_isBlank hblank
    | false =>
      obtain ⟨k, hk, -⟩ := Option.bind_eq_some_iff.mp hleast
      rw [List.dropWhile_cons_of_neg (by rw [hblank]; exact nofun)] at hk
      rcases hrun : takeRun spaced Char.isDigit false (c :: q) with ⟨_ | ⟨d, ds⟩, w⟩
      · rw [hrun] at hk
        cases hk
      · obtain ⟨hd, q', hq'⟩ := exists_skip_of_takeRun hrun
        rw [skip_cons hskip] at hq'
        cases hq'
        exact isBoundaryName_of_isDigit hd

/-! ## Groups -/

theorem groupName?_local {s r : List Char} {name : String}
    (h : groupName? s = some (name, r)) : Local groupName? s name r := by
  rw [groupName?] at h
  split at h
  · next c cs r' htake hdrop =>
    have hs := List.takeWhile_append_dropWhile (p := (· != '>')) (l := s)
    rw [hdrop] at hs
    refine ⟨s.takeWhile (· != '>') ++ ['>'], ?_, fun t _ => ?_⟩
    · split at h
      · cases h
        rw [List.append_assoc]
        exact hs.symm
      · cases h
    · have hstops : Stops (· != '>') ('>' :: t) := stops_cons.mpr rfl
      rw [List.append_assoc, List.singleton_append, groupName?, takeWhile_takeWhile_append hstops,
        dropWhile_takeWhile_append hstops, htake]
      split at h
      · next hname =>
        cases h
        exact if_pos hname
      · cases h
  · cases h

/-- Flags are read up to a character that ends them. -/
theorem exists_of_flagChanges? {negated afterHyphen : Bool} {changes fs : FlagChanges}
    {s r : List Char} (h : flagChanges? negated changes afterHyphen s = some (fs, r)) :
    ∃ w c u, s = w ++ c :: u ∧ r = c :: u ∧
      ∀ t, flagChanges? negated changes afterHyphen (w ++ c :: t) = some (fs, c :: t) := by
  fun_induction flagChanges? negated changes afterHyphen s with
  | case1 => cases h
  | case2 => cases h
  | case3 negated changes afterHyphen c s hc hhyphen =>
    cases h
    refine ⟨[], c, s, rfl, rfl, fun t => ?_⟩
    rw [List.nil_append, flagChanges?, if_pos hc, if_neg hhyphen]
  | case4 => cases h
  | case5 negated changes afterHyphen s hc hneg ih =>
    obtain ⟨w, d, u, rfl, rfl, hread⟩ := ih h
    refine ⟨'-' :: w, d, u, rfl, rfl, fun t => ?_⟩
    rw [List.cons_append, flagChanges?, if_neg hc, if_pos rfl, if_neg hneg]
    exact hread t
  | case6 => cases h
  | case7 negated changes afterHyphen c s hc hhyphen f hf hnew ih =>
    obtain ⟨w, d, u, rfl, rfl, hread⟩ := ih h
    refine ⟨c :: w, d, u, rfl, rfl, fun t => ?_⟩
    rw [List.cons_append, flagChanges?, if_neg hc, if_neg hhyphen, hf]
    simp only [if_neg hnew]
    exact hread t
  | case8 => cases h

/-- What an opening parenthesis and a question mark start, with flags or none. -/
def flagsOpening? (s : List Char) : Option (Opening × List Char) :=
  match flagChanges? false [] false s with
  | some (fs, ')' :: r) => if fs = [] then none else some (.changes fs, r)
  | some (fs, ':' :: r) => some (.group (.plain fs) none, r)
  | _ => none

/-- What an opening parenthesis and a question mark start with a name. -/
def nameOpening? (s : List Char) : Option (Opening × List Char) :=
  (groupName? s).map fun (name, r) => (.group .capture (some name), r)

/-- What an opening parenthesis and a question mark start. -/
def questionOpening? (s : List Char) : Option (Opening × List Char) :=
  match s with
  | '=' :: _ | '!' :: _ | '<' :: '=' :: _ | '<' :: '!' :: _ => none
  | 'P' :: '<' :: r | '<' :: r => nameOpening? r
  | r => flagsOpening? r

theorem flagsOpening?_local {s r : List Char} {o : Opening} (h : flagsOpening? s = some (o, r)) :
    Local flagsOpening? s o r := by
  rw [flagsOpening?] at h
  split at h
  · next fs r' hflags =>
    obtain ⟨w, c, u, rfl, heq, hread⟩ := exists_of_flagChanges? hflags
    cases heq
    split at h
    · cases h
    · next hfs =>
      cases h
      refine ⟨w ++ [')'], by simp, fun t _ => ?_⟩
      rw [List.append_assoc, List.singleton_append, flagsOpening?, hread]
      exact if_neg hfs
  · next fs r' hflags =>
    obtain ⟨w, c, u, rfl, heq, hread⟩ := exists_of_flagChanges? hflags
    cases heq
    cases h
    refine ⟨w ++ [':'], by simp, fun t _ => ?_⟩
    rw [List.append_assoc, List.singleton_append, flagsOpening?, hread]
    rfl
  · cases h

theorem nameOpening?_local {s r : List Char} {o : Opening} (h : nameOpening? s = some (o, r)) :
    Local nameOpening? s o r := by
  obtain ⟨⟨name, _⟩, hname, heq⟩ := Option.map_eq_some_iff.mp h
  cases heq
  exact (groupName?_local hname).map fun name => Opening.group .capture (some name)

theorem opening?_of_ne {spaced : Bool} {s : List Char} (h : (skip spaced s).head? ≠ some '?') :
    opening? spaced s = some (.group .capture none, skip spaced s) := by
  rw [opening?]
  split
  all_goals first | rfl | next heq => exact absurd (congrArg List.head? heq) h

theorem questionOpening?_of_angle {s : List Char} (hequal : s.head? ≠ some '=')
    (hnot : s.head? ≠ some '!') : questionOpening? ('<' :: s) = nameOpening? s := by
  rw [questionOpening?]
  · exact fun r hr => hequal (congrArg List.head? hr)
  · exact fun r hr => hnot (congrArg List.head? hr)

theorem opening?_of_question {spaced : Bool} {s q : List Char} (h : skip spaced s = '?' :: q) :
    opening? spaced s = questionOpening? q := by
  rw [opening?, h]
  split
  · next heq => cases heq; rfl
  · next heq => cases heq; rfl
  · next heq => cases heq; rfl
  · next heq => cases heq; rfl
  · next heq => cases heq; rfl
  · next r hequal hnot heq =>
    cases heq
    rw [questionOpening?_of_angle]
    · rfl
    · exact fun hr => hequal _ (List.cons_head?_tail hr).symm
    · exact fun hr => hnot _ (List.cons_head?_tail hr).symm
  · next heq =>
    cases heq
    rw [questionOpening?]
    · rfl
    all_goals assumption
  · next hquestion => exact (hquestion _ rfl).elim

theorem questionOpening?_of_flags {s : List Char}
    (h : ∀ c ∈ ['=', '!', '<', 'P'], s.head? ≠ some c) :
    questionOpening? s = flagsOpening? s := by
  unfold questionOpening?
  split
  all_goals first
    | rfl
    | exact absurd rfl (h _ (by simp))

theorem questionOpening?_local {s r : List Char} {o : Opening}
    (h : questionOpening? s = some (o, r)) : Local questionOpening? s o r := by
  by_cases hangle : s.head? = some '<'
  · obtain ⟨s, rfl⟩ := List.head?_eq_some_iff.mp hangle
    have hequal : s.head? ≠ some '=' := fun hs => by
      rw [← List.cons_head?_tail hs] at h
      cases h
    have hnot : s.head? ≠ some '!' := fun hs => by
      rw [← List.cons_head?_tail hs] at h
      cases h
    rw [questionOpening?_of_angle hequal hnot] at h
    refine ((nameOpening?_local h).of_eq fun t ht => questionOpening?_of_angle ?_ ?_).cons
    · rwa [Ne, ← ht.head?_eq_some_iff (by decide)]
    · rwa [Ne, ← ht.head?_eq_some_iff (by decide)]
  by_cases hletter : s.head? = some 'P'
  · obtain ⟨s, rfl⟩ := List.head?_eq_some_iff.mp hletter
    cases s with
    | nil => cases h
    | cons c q =>
      by_cases hc : c = '<'
      · subst hc
        exact ((nameOpening?_local h).of_eq fun t _ => rfl).cons.cons
      · rw [questionOpening?] at h
        · cases h
        all_goals simp [hc]
  have hstart : ∀ c ∈ ['=', '!', '<', 'P'], s.head? ≠ some c := by
    intro c hc hs
    simp only [List.mem_cons, List.not_mem_nil, or_false] at hc
    rcases hc with rfl | rfl | rfl | rfl
    · rw [← List.cons_head?_tail hs] at h
      cases h
    · rw [← List.cons_head?_tail hs] at h
      cases h
    · exact hangle hs
    · exact hletter hs
  rw [questionOpening?_of_flags hstart] at h
  refine (flagsOpening?_local h).of_eq fun t ht => questionOpening?_of_flags fun c hc => ?_
  rw [Ne, ← ht.head?_eq_some_iff (by rintro rfl; simp at hc)]
  exact hstart c hc

theorem opening?_local {spaced : Bool} {s r : List Char} {o : Opening}
    (h : opening? spaced s = some (o, r)) (hs : skip spaced s ≠ []) :
    Local (opening? spaced) s o r := by
  by_cases hquestion : (skip spaced s).head? = some '?'
  · have hskip := (List.cons_head?_tail hquestion).symm
    rw [opening?_of_question hskip] at h
    exact (questionOpening?_local h).of_skip hskip fun t u htu _ => opening?_of_question htu
  · rw [opening?_of_ne hquestion] at h
    cases h
    refine (Local.pure _ _).skip hs fun t ht => opening?_of_ne ?_
    rwa [Ne, ← ht.head?_eq_some_iff (by decide)]

end TextTemplate.Regex
