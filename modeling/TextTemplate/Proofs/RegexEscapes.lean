import TextTemplate.Proofs.RegexLocality

/-!
# Escapes are read alike

What follows a backslash is read alike in front of any rest that goes on alike (`escape?_local`),
with one exception.  Behind a word boundary a brace may open the name of another assertion or a
repetition, and which of them it is depends on what is in the brace.
-/

namespace TextTemplate.Regex

open Scanner

theorem hexDigits?_of_cons {spaced : Bool} {n : Nat} {s q : List Char} {c : Char}
    (hskip : skip spaced s = c :: q) :
    hexDigits? spaced (n + 1) s =
      if isHex c then (hexDigits? spaced n q).map fun x => (c :: x.1, x.2) else none := by
  rw [hexDigits?, hskip]

theorem hexDigits?_local {spaced : Bool} {n : Nat} {s ds r : List Char}
    (h : hexDigits? spaced n s = some (ds, r)) : Local (hexDigits? spaced n) s ds r := by
  induction n generalizing s ds with
  | zero =>
    cases h
    exact .pure [] _
  | succ n ih =>
    cases hskip : skip spaced s with
    | nil => simp [hexDigits?, hskip] at h
    | cons c q =>
      rw [hexDigits?_of_cons hskip] at h
      split at h
      · next hc =>
        obtain ⟨⟨es, _⟩, hes, heq⟩ := Option.map_eq_some_iff.mp h
        cases heq
        refine ((ih hes).map (c :: ·)).of_skip hskip fun t u htu _ => ?_
        rw [hexDigits?_of_cons htu, if_pos hc]
      · cases h

/-- The character of digits in braces. -/
def bracedLiteral? (ds : List Char) : Option Literal :=
  if ds ≠ [] ∧ ds.all isHex then (charOf? (hexNumber ds)).map fun c => { char := c } else none

/-- The character of so many digits. -/
def plainLiteral? (n : Nat) (ds : List Char) : Option Literal :=
  (charOf? (hexNumber ds)).map fun c => { char := c, byte := n == 2 }

theorem hexLiteral?_of_brace {spaced : Bool} {n : Nat} {s q : List Char}
    (hskip : skip spaced s = '\x7b' :: q) :
    hexLiteral? spaced n s =
      (runTo? spaced (· != '\x7d') '\x7d' q).bind fun x => (bracedLiteral? x.1).map (·, x.2) := by
  rw [hexLiteral?, hskip]
  rcases hrun : takeRun spaced (· != '\x7d') false q with ⟨ds, _ | ⟨c, r⟩⟩
  · simp [runTo?, hrun]
  · by_cases hc : c = '\x7d'
    · subst hc
      rw [runTo?_of_takeRun hrun, Option.bind_some, bracedLiteral?]
      simp only [hrun]
      split
      · cases charOf? (hexNumber ds) <;> rfl
      · rfl
    · simp [runTo?, hrun, hc]

theorem hexLiteral?_of_ne {spaced : Bool} {n : Nat} {s q : List Char} {c : Char}
    (hskip : skip spaced s = c :: q) (hc : c ≠ '\x7b') :
    hexLiteral? spaced n s =
      (hexDigits? spaced n (c :: q)).bind fun x => (plainLiteral? n x.1).map (·, x.2) := by
  rw [hexLiteral?, hskip]
  split
  · next heq => exact absurd (List.cons.inj heq).1 hc
  · cases hexDigits? spaced n (c :: q) with
    | none => rfl
    | some x =>
      simp only [Option.bind_eq_bind, Option.bind_some, plainLiteral?]
      cases charOf? (hexNumber x.1) <;> rfl

theorem hexLiteral?_local {spaced : Bool} {n : Nat} {s r : List Char} {l : Literal}
    (h : hexLiteral? spaced (n + 1) s = some (l, r)) : Local (hexLiteral? spaced (n + 1)) s l r := by
  cases hskip : skip spaced s with
  | nil => simp [hexLiteral?, hskip, hexDigits?, skip_nil] at h
  | cons c q =>
    by_cases hc : c = '\x7b'
    · subst hc
      rw [hexLiteral?_of_brace hskip] at h
      obtain ⟨⟨ds, _⟩, hrun, h⟩ := Option.bind_eq_some_iff.mp h
      obtain ⟨_, hl, heq⟩ := Option.map_eq_some_iff.mp h
      cases heq
      exact ((runTo?_local hrun).mapOption bracedLiteral? hl).of_skip hskip fun t u htu _ =>
        hexLiteral?_of_brace htu
    · rw [hexLiteral?_of_ne hskip hc] at h
      obtain ⟨⟨ds, _⟩, hds, h⟩ := Option.bind_eq_some_iff.mp h
      obtain ⟨_, hl, heq⟩ := Option.map_eq_some_iff.mp h
      cases heq
      rw [hexDigits?_of_cons (skip_cons hskip q)] at hds
      split at hds
      · next hhex =>
        obtain ⟨⟨es, _⟩, hes, heq⟩ := Option.map_eq_some_iff.mp hds
        cases heq
        have hlocal := ((hexDigits?_local hes).map (c :: ·)).mapOption (plainLiteral? (n + 1)) hl
        refine hlocal.of_skip hskip fun t u htu _ => ?_
        rw [hexLiteral?_of_ne htu hc, hexDigits?_of_cons (skip_cons hskip u), if_pos hhex]
      · cases hds

/-- The property with a name in braces. -/
def namedProperty (negated : Bool) (name : List Char) : Atom :=
  .property (propertyQuery name).1 (negated != (propertyQuery name).2)

theorem property?_of_brace {spaced negated : Bool} {s q : List Char}
    (hskip : skip spaced s = '\x7b' :: q) :
    property? spaced negated s =
      (runTo? spaced (· != '\x7d') '\x7d' q).map fun x => (namedProperty negated x.1, x.2) := by
  rw [property?, hskip]
  rcases hrun : takeRun spaced (· != '\x7d') false q with ⟨name, _ | ⟨c, r⟩⟩
  · simp [runTo?, hrun]
  · by_cases hc : c = '\x7d'
    · subst hc
      rw [runTo?_of_takeRun hrun]
      simp only [hrun]
      rfl
    · simp [runTo?, hrun, hc]

theorem property?_of_ne {spaced negated : Bool} {s q : List Char} {c : Char}
    (hskip : skip spaced s = c :: q) (hbackslash : c ≠ '\\') (hbrace : c ≠ '\x7b') :
    property? spaced negated s = some (.property (.named (.ofList [c])) negated, q) := by
  rw [property?, hskip]
  split
  · next heq => cases heq
  · next heq => exact absurd (List.cons.inj heq).1 hbackslash
  · next heq => exact absurd (List.cons.inj heq).1 hbrace
  · next heq =>
    cases heq
    rfl

theorem property?_local {spaced negated : Bool} {s r : List Char} {a : Atom}
    (h : property? spaced negated s = some (a, r)) : Local (property? spaced negated) s a r := by
  cases hskip : skip spaced s with
  | nil => simp [property?, hskip] at h
  | cons c q =>
    by_cases hbackslash : c = '\\'
    · simp [property?, hskip, hbackslash] at h
    by_cases hbrace : c = '\x7b'
    · subst hbrace
      rw [property?_of_brace hskip] at h
      obtain ⟨⟨name, _⟩, hrun, heq⟩ := Option.map_eq_some_iff.mp h
      cases heq
      exact ((runTo?_local hrun).map (namedProperty negated)).of_skip hskip fun t u htu _ =>
        property?_of_brace htu
    · rw [property?_of_ne hskip hbackslash hbrace] at h
      cases h
      exact (Local.pure _ _).of_skip hskip fun t u htu _ => property?_of_ne htu hbackslash hbrace

/-- Whether a character may stand in the name of a word assertion. -/
def isBoundaryName (c : Char) : Bool := c.isAlpha || c == '-'

theorem toNat_of_isBoundaryName {c : Char} (h : isBoundaryName c = true) :
    c.toNat = 45 ∨ 65 ≤ c.toNat ∧ c.toNat ≤ 90 ∨ 97 ≤ c.toNat ∧ c.toNat ≤ 122 := by
  have hranges : (decide ('A'.val ≤ c.val ∧ c.val ≤ 'Z'.val) ||
      (decide ('a'.val ≤ c.val) && decide (c.val ≤ 'z'.val)) || c == '-') = true := h
  simp only [Bool.or_eq_true, Bool.and_eq_true, decide_eq_true_eq, beq_iff_eq,
    UInt32.le_iff_toNat_le] at hranges
  rcases hranges with (hupper | hlower) | rfl
  · exact .inr (.inl hupper)
  · exact .inr (.inr hlower)
  · exact .inl rfl

theorem isBoundaryName_of_isDigit {c : Char} (h : c.isDigit = true) :
    isBoundaryName c = false := by
  rw [Bool.eq_false_iff]
  intro hc
  have hname := toNat_of_isBoundaryName hc
  simp only [Char.isDigit, Bool.and_eq_true, decide_eq_true_eq, ge_iff_le,
    UInt32.le_iff_toNat_le] at h
  have hdigit : 48 ≤ c.toNat ∧ c.toNat ≤ 57 := h
  omega

theorem isBoundaryName_of_isBlank {c : Char} (h : Text.isBlank c = true) :
    isBoundaryName c = false := by
  rw [Bool.eq_false_iff]
  intro hc
  have hname := toNat_of_isBoundaryName hc
  simp only [Text.isBlank, Bool.or_eq_true, Bool.and_eq_true, decide_eq_true_eq, beq_iff_eq] at h
  omega

/-- A word assertion with its name, after the brace. -/
def namedAssertion? (spaced : Bool) (s : List Char) : Option (Atom × List Char) :=
  (runTo? spaced isBoundaryName '\x7d' s).bind fun x =>
    ((namedBoundary? x.1).map Atom.assertion).map (·, x.2)

theorem boundary?_of_name {spaced : Bool} {s q : List Char} {c : Char}
    (hskip : skip spaced s = c :: q) (hc : isBoundaryName c = true) :
    boundary? spaced ('\x7b' :: s) = namedAssertion? spaced s := by
  have hc' : (c.isAlpha || c == '-') = true := hc
  rcases hrun : takeRun spaced isBoundaryName false s with ⟨name, _ | ⟨d, r⟩⟩
  all_goals
    have hrun' : takeRun spaced (fun c => c.isAlpha || c == '-') false s = _ := hrun
    simp only [boundary?, namedAssertion?, hskip, hc', if_true, hrun']
  · simp [runTo?, hrun]
  · by_cases hd : d = '\x7d'
    · subst hd
      rw [runTo?_of_takeRun hrun, Option.bind_some, Option.map_map]
      rfl
    · simp [runTo?, hrun, hd]

theorem boundary?_of_count {spaced : Bool} {s q : List Char} {c : Char}
    (hskip : skip spaced s = c :: q) (hc : isBoundaryName c = false) :
    boundary? spaced ('\x7b' :: s) = some (.assertion .wordBoundary, '\x7b' :: s) := by
  have hc' : (c.isAlpha || c == '-') = false := hc
  simp only [boundary?, hskip, hc']
  rfl

theorem boundary?_of_ne {spaced : Bool} {s : List Char} (hs : s.head? ≠ some '\x7b') :
    boundary? spaced s = some (.assertion .wordBoundary, s) := by
  cases s with
  | nil => rfl
  | cons c s =>
    have hc : c ≠ '\x7b' := fun hc => hs (hc ▸ rfl)
    rw [boundary?]
    exact fun r heq => hc (List.cons.inj heq).1

/-- A word boundary is read without what follows it, and every other word assertion with its name. -/
theorem boundary?_cases {spaced : Bool} {s r : List Char} {a : Atom}
    (h : boundary? spaced s = some (a, r)) :
    a = .assertion .wordBoundary ∧ r = s ∨
      ∃ q, s = '\x7b' :: q ∧ namedAssertion? spaced q = some (a, r) := by
  by_cases hs : s.head? = some '\x7b'
  · obtain ⟨s, rfl⟩ := List.head?_eq_some_iff.mp hs
    cases hskip : skip spaced s with
    | nil => simp [boundary?, hskip] at h
    | cons c q =>
      cases hc : isBoundaryName c with
      | false =>
        rw [boundary?_of_count hskip hc] at h
        cases h
        exact .inl ⟨rfl, rfl⟩
      | true =>
        rw [boundary?_of_name hskip hc] at h
        exact .inr ⟨s, rfl, h⟩
  · rw [boundary?_of_ne hs] at h
    cases h
    exact .inl ⟨rfl, rfl⟩

/-- An assertion with a name starts with that. -/
theorem boundary?_of_namedAssertion? {spaced : Bool} {s : List Char} {x : Atom × List Char}
    (h : namedAssertion? spaced s = some x) : boundary? spaced ('\x7b' :: s) = some x := by
  obtain ⟨⟨name, r⟩, hrun, hname⟩ := Option.bind_eq_some_iff.mp h
  cases name with
  | nil => cases hname
  | cons c name =>
    rw [runTo?] at hrun
    split at hrun
    · next heq =>
      split at hrun
      · cases hrun
        obtain ⟨hc, q, hq⟩ := exists_skip_of_takeRun heq
        rw [boundary?_of_name hq hc, h]
      · cases hrun
    · cases hrun

theorem namedAssertion?_local {spaced : Bool} {s r : List Char} {a : Atom}
    (h : namedAssertion? spaced s = some (a, r)) : Local (namedAssertion? spaced) s a r := by
  obtain ⟨⟨name, _⟩, hrun, h⟩ := Option.bind_eq_some_iff.mp h
  obtain ⟨_, hname, heq⟩ := Option.map_eq_some_iff.mp h
  cases heq
  exact (runTo?_local hrun).mapOption (fun x => (namedBoundary? x).map Atom.assertion) hname

theorem namedBoundary?_ne {name : List Char} : namedBoundary? name ≠ some .wordBoundary := by
  unfold namedBoundary?
  split <;> nofun

theorem escape?_local {spaced : Bool} {s r : List Char} {a : Atom}
    (h : escape? spaced s = some (a, r)) (ha : a ≠ .assertion .wordBoundary) :
    Local (escape? spaced) s a r := by
  cases s with
  | nil => cases h
  | cons c s =>
    have hex {n : Nat} (h : (hexLiteral? spaced (n + 1) s).map
        (fun p => (Atom.literal p.1, p.2)) = some (a, r)) :
        Local (fun s => (hexLiteral? spaced (n + 1) s).map fun p => (Atom.literal p.1, p.2)) s a r := by
      obtain ⟨⟨l, _⟩, hl, heq⟩ := Option.map_eq_some_iff.mp h
      cases heq
      exact (hexLiteral?_local hl).map Atom.literal
    refine Local.cons ?_
    simp only [escape?.eq_def] at h ⊢
    split at h
    · exact hex h
    · exact hex h
    · exact hex h
    · exact property?_local h
    · exact property?_local h
    all_goals try (cases h; exact .pure _ _)
    · rcases boundary?_cases h with ⟨hboundary, -⟩ | ⟨q, rfl, hnamed⟩
      · exact absurd hboundary ha
      · exact ((namedAssertion?_local hnamed).of_imp fun t x _ ht =>
          boundary?_of_namedAssertion? ht).cons
    · split at h
      · next hc =>
        cases h
        simp only [hc, if_true]
        exact .pure _ _
      · next hc =>
        obtain ⟨d, hd, heq⟩ := Option.map_eq_some_iff.mp h
        cases heq
        simp only [hc, hd]
        exact .pure _ _

theorem property?_ne {spaced negated : Bool} {s r : List Char} {a : Assertion} :
    property? spaced negated s ≠ some (.assertion a, r) := by
  intro h
  rw [property?] at h
  split at h
  · cases h
  · cases h
  · split at h
    · cases h
    · cases h
  · cases h

/-- A word boundary is nothing but its letter. -/
theorem eq_of_escape?_wordBoundary {spaced : Bool} {s r : List Char}
    (h : escape? spaced s = some (.assertion .wordBoundary, r)) : s = 'b' :: r := by
  cases s with
  | nil => cases h
  | cons c s =>
    have hmap {α : Type} {x : Option α} {f : α → Literal × List Char}
        (h : x.map (fun p => (Atom.literal (f p).1, (f p).2)) =
          some (.assertion .wordBoundary, r)) : False := by
      obtain ⟨_, -, heq⟩ := Option.map_eq_some_iff.mp h
      cases heq
    simp only [escape?.eq_def] at h
    split at h
    all_goals try cases h
    · exact (hmap h).elim
    · exact (hmap h).elim
    · exact (hmap h).elim
    · exact absurd h property?_ne
    · exact absurd h property?_ne
    · rcases boundary?_cases h with ⟨-, rfl⟩ | ⟨q, -, hnamed⟩
      · rfl
      · obtain ⟨x, -, hx⟩ := Option.bind_eq_some_iff.mp hnamed
        obtain ⟨b, hb, heq⟩ := Option.map_eq_some_iff.mp hx
        obtain ⟨d, hd, rfl⟩ := Option.map_eq_some_iff.mp hb
        cases heq
        exact absurd hd namedBoundary?_ne
    · split at h
      · cases h
      · obtain ⟨_, -, heq⟩ := Option.map_eq_some_iff.mp h
        cases heq

end TextTemplate.Regex
