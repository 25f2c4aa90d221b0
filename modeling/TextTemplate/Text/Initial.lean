/-!
# Initial segments

The longest common initial segment of texts, and the rest of a text after a given one. What texts
have in common is measured in bytes, and then cut off the first of them.
-/

namespace TextTemplate.Text

/-- What follows an initial segment, if the text starts with it. -/
def after? : List Char → List Char → Option (List Char)
  | [], s => some s
  | _ :: _, [] => none
  | p :: ps, c :: cs => if p = c then after? ps cs else none

/-- What follows an initial segment of a string, if it starts with it. -/
def afterString? (lead s : String) : Option String :=
  (after? lead.toList s.toList).map String.ofList

theorem after?_eq_some_iff {p s r : List Char} : after? p s = some r ↔ s = p ++ r := by
  fun_induction after? p s <;> grind

/-! ## Bytes -/

/-- How many bytes a text takes. -/
def byteLength : List Char → Nat
  | [] => 0
  | c :: cs => c.utf8Size + byteLength cs

/-- The characters of a text, each with where it starts, in bytes; the text itself starts at `i`. -/
def indices (i : Nat) : List Char → List (Nat × Char)
  | [] => []
  | c :: cs => (i, c) :: indices (i + c.utf8Size) cs

/-- The characters that lie within the first bytes of a text. -/
def firstBytes : Nat → List Char → List Char
  | _, [] => []
  | n, c :: cs => if c.utf8Size ≤ n then c :: firstBytes (n - c.utf8Size) cs else []

@[simp] theorem byteLength_nil : byteLength [] = 0 := rfl

@[simp] theorem byteLength_cons (c : Char) (s : List Char) :
    byteLength (c :: s) = c.utf8Size + byteLength s := rfl

/-- Initial segments of a text lie within its first bytes if they take no more of them. -/
theorem prefix_firstBytes_iff {q s : List Char} {n : Nat} :
    q <+: firstBytes n s ↔ q <+: s ∧ byteLength q ≤ n := by
  induction s generalizing q n with
  | nil =>
    rw [firstBytes, List.prefix_nil]
    exact ⟨fun h => ⟨h, by simp [h]⟩, And.left⟩
  | cons c s ih =>
    cases q with
    | nil => simp
    | cons d q =>
      rw [firstBytes]
      split
      · next hc =>
        rw [List.cons_prefix_cons, List.cons_prefix_cons, ih, byteLength_cons, and_assoc]
        refine and_congr_right fun hd => and_congr_right fun _ => ?_
        rw [hd]
        omega
      · next hc =>
        rw [List.cons_prefix_cons, List.prefix_nil, byteLength_cons]
        constructor
        · rintro ⟨⟩
        · rintro ⟨⟨rfl, -⟩, hle⟩
          omega

/-- Of two initial segments of a text the one with fewer bytes is an initial segment of the other. -/
theorem prefix_iff_byteLength_le {q r s : List Char} (hq : q <+: s) (hr : r <+: s) :
    q <+: r ↔ byteLength q ≤ byteLength r := by
  induction s generalizing q r with
  | nil => simp [List.prefix_nil.mp hq]
  | cons c s ih =>
    cases q with
    | nil => simp
    | cons d q =>
      have hd := d.utf8Size_pos
      cases r with
      | nil => simp; omega
      | cons e r =>
        obtain ⟨rfl, hqs⟩ := List.cons_prefix_cons.mp hq
        obtain ⟨rfl, hrs⟩ := List.cons_prefix_cons.mp hr
        rw [List.cons_prefix_cons, ih hqs hrs, byteLength_cons, byteLength_cons,
          Nat.add_le_add_iff_left]
        exact and_iff_right rfl

/-- So many bytes as an initial segment takes are that segment. -/
theorem firstBytes_byteLength {q s : List Char} (hq : q <+: s) : firstBytes (byteLength q) s = q := by
  have hlead : q <+: firstBytes (byteLength q) s := prefix_firstBytes_iff.mpr ⟨hq, Nat.le_refl _⟩
  obtain ⟨hfirst, hle⟩ := prefix_firstBytes_iff.mp (List.prefix_refl (firstBytes (byteLength q) s))
  have hback := (prefix_iff_byteLength_le hfirst hq).mpr hle
  exact (hback.eq_of_length_le hlead.length_le)

/-! ## What texts have in common -/

/-- How many bytes two texts have in common at their starts: the end of the last character up to
which they agree. -/
def agreement (s t : List Char) : Nat :=
  (((indices 0 s).zip t).takeWhile fun p => p.1.2 == p.2).getLast?.elim 0 fun p =>
    p.1.1 + p.1.2.utf8Size

/-- How many bytes a text has in common with some others. -/
def sharedLength (s : List Char) (ss : List (List Char)) : Nat :=
  ss.foldl (fun n t => min (agreement s t) n) (byteLength s)

/-- The longest common initial segment of a list of texts; that of no texts is empty. -/
def commonInitial : List (List Char) → List Char
  | [] => []
  | s :: ss => firstBytes (sharedLength s ss) s

/-- Two texts agree on an initial segment of both that is the longest one. -/
theorem exists_agreement (s t : List Char) :
    ∃ r, byteLength r = agreement s t ∧ ∀ q, q <+: r ↔ q <+: s ∧ q <+: t := by
  -- where the text starts makes no difference to how many bytes agree
  have hfrom (i : Nat) : ∃ r,
      i + byteLength r = (((indices i s).zip t).takeWhile fun p => p.1.2 == p.2).getLast?.elim i
        (fun p => p.1.1 + p.1.2.utf8Size) ∧ ∀ q, q <+: r ↔ q <+: s ∧ q <+: t := by
    induction s generalizing t i with
    | nil => exact ⟨[], rfl, by simp +contextual⟩
    | cons c s ih =>
      cases t with
      | nil => exact ⟨[], rfl, by simp +contextual⟩
      | cons d t =>
        by_cases hcd : c = d
        · subst hcd
          obtain ⟨r, hr, hlongest⟩ := ih t (i + c.utf8Size)
          refine ⟨c :: r, ?_, fun q => ?_⟩
          · simp only [indices, List.zip_cons_cons, List.takeWhile_cons, BEq.rfl, if_true,
              List.getLast?_cons, Option.elim_some]
            rw [byteLength_cons, ← Nat.add_assoc, hr]
            cases (((indices (i + c.utf8Size) s).zip t).takeWhile
              fun p => p.1.2 == p.2).getLast? <;> rfl
          · cases q with
            | nil => simp
            | cons e q =>
              rw [List.cons_prefix_cons, List.cons_prefix_cons, List.cons_prefix_cons, hlongest,
                and_and_and_comm, and_self]
        · refine ⟨[], by simp [indices, hcd], fun q => ?_⟩
          cases q with
          | nil => simp
          | cons e q => grind
  obtain ⟨r, hr, hlongest⟩ := hfrom 0
  exact ⟨r, by rw [← Nat.zero_add (byteLength r), hr, agreement], hlongest⟩

/-- An initial segment of a text is one of another text if they agree on that many bytes. -/
theorem byteLength_le_agreement_iff {q s t : List Char} (hq : q <+: s) :
    byteLength q ≤ agreement s t ↔ q <+: t := by
  obtain ⟨r, hr, hlongest⟩ := exists_agreement s t
  have hrs : r <+: s := ((hlongest r).mp (List.prefix_refl r)).1
  rw [← hr, ← prefix_iff_byteLength_le hq hrs, hlongest]
  exact and_iff_right hq

theorem le_sharedLength_iff {n : Nat} {s : List Char} {ss : List (List Char)} :
    n ≤ sharedLength s ss ↔ n ≤ byteLength s ∧ ∀ t ∈ ss, n ≤ agreement s t := by
  have hfold (k : Nat) : n ≤ ss.foldl (fun n t => min (agreement s t) n) k ↔
      n ≤ k ∧ ∀ t ∈ ss, n ≤ agreement s t := by
    induction ss generalizing k with
    | nil => simp
    | cons t ts ih =>
      rw [List.foldl_cons, ih, List.forall_mem_cons, Nat.le_min, and_assoc, and_left_comm]
  exact hfold (byteLength s)

/-- What some texts have in common is the longest of their common initial segments. -/
theorem prefix_commonInitial_iff {q : List Char} {ss : List (List Char)} (hss : ss ≠ []) :
    q <+: commonInitial ss ↔ ∀ s ∈ ss, q <+: s := by
  cases ss with
  | nil => exact absurd rfl hss
  | cons s ss =>
    rw [commonInitial, prefix_firstBytes_iff, le_sharedLength_iff, List.forall_mem_cons]
    refine and_congr_right fun hq => ?_
    have hle : byteLength q ≤ byteLength s :=
      (prefix_iff_byteLength_le hq (List.prefix_refl s)).mp hq
    simp only [hle, true_and, byteLength_le_agreement_iff hq]

/-- The first text is cut between two characters, never within one. -/
theorem byteLength_commonInitial (s : List Char) (ss : List (List Char)) :
    byteLength (commonInitial (s :: ss)) = sharedLength s ss := by
  have hfold : ∀ r, r <+: s → ∃ q, q <+: s ∧
      byteLength q = ss.foldl (fun n t => min (agreement s t) n) (byteLength r) := by
    induction ss with
    | nil => exact fun r hr => ⟨r, hr, rfl⟩
    | cons t ts ih =>
      intro r hr
      obtain ⟨q, hq, hlongest⟩ := exists_agreement s t
      have hqs : q <+: s := ((hlongest q).mp (List.prefix_refl q)).1
      rw [List.foldl_cons, ← hq]
      rcases Nat.le_total (byteLength q) (byteLength r) with hle | hle
      · rw [Nat.min_eq_left hle]
        exact ih q hqs
      · rw [Nat.min_eq_right hle]
        exact ih r hr
  obtain ⟨q, hq, hlength⟩ := hfold s (List.prefix_refl s)
  rw [commonInitial, sharedLength, ← hlength, firstBytes_byteLength hq]

/-- Of two letters that differ in their last byte only, none is left. -/
example : commonInitial ["hé".toList, "hè".toList] = "h".toList := by decide

end TextTemplate.Text
