import TextTemplate.Json5.Parser
import Mathlib.Data.List.Basic

/-!
# Texts of JSON values

JSON leaves a writer free in much: any character of a string may be written as it is or by one of
its escapes, and blanks may stand between any two tokens.  `Text v w` says that the characters `w`
write the value `v`, and `Document v s` that `s` does with blanks around it; no choice of a writer
is excluded.  Numbers are left out, since no library holds one.

The reader of JSON5 documents takes all of these texts and gives back what they write
(`parse?_of_document`), with one exception: JSON lets the line separator and the paragraph separator
stand in a string as they are, and to this reader they are ends of lines, which no string may hold.

The proof goes up the grammar: characters, strings, values.  At each level the reader is run on a
text with something behind it, and leaves just that.
-/

namespace TextTemplate.Json

open Json5

/-! ## The grammar -/

/-- Characters that may stand between tokens. -/
def Blanks (b : List Char) : Prop := ∀ c ∈ b, c = ' ' ∨ c = '\t' ∨ c = '\n' ∨ c = '\r'

/-- A hexadecimal digit, in small or large letters. -/
inductive HexDigit : Nat → Char → Prop
  | small {d : Nat} : d < 16 → HexDigit d d.digitChar
  | large {d : Nat} : d < 16 → HexDigit d d.digitChar.toUpper

/-- The escape of a code unit. -/
inductive CodeText : Nat → List Char → Prop
  | digits {a b c d : Nat} {p q r s : Char} : HexDigit a p → HexDigit b q → HexDigit c r →
      HexDigit d s → CodeText (4096 * a + 256 * b + 16 * c + d) ['\\', 'u', p, q, r, s]

/-- The characters that have a short escape, each with what stands behind the backslash. -/
def shortEscapes : List (Char × Char) :=
  [('\"', '\"'), ('\\', '\\'), ('/', '/'), ('\x08', 'b'), ('\x0c', 'f'), ('\n', 'n'), ('\r', 'r'),
    ('\t', 't')]

/-- A way to write a character in a string. -/
inductive CharText : Char → List Char → Prop
  | plain {c : Char} : c ≠ '\"' → c ≠ '\\' → 0x20 ≤ c.toNat → CharText c [c]
  | short {c e : Char} : (c, e) ∈ shortEscapes → CharText c ['\\', e]
  | code {c : Char} {w : List Char} : CodeText c.toNat w → CharText c w
  /-- A character beyond the codes of four digits, written as two of them. -/
  | pair {c : Char} {high low : Nat} {u w : List Char} : 0xD800 ≤ high → high < 0xDC00 →
      0xDC00 ≤ low → low < 0xE000 →
      c.toNat = 0x10000 + (high - 0xD800) * 1024 + (low - 0xDC00) →
      CodeText high u → CodeText low w → CharText c (u ++ w)

/-- A way to write a text between quotes. -/
inductive StringText : List Char → List Char → Prop
  | nil : StringText [] []
  | cons {c : Char} {cs u w : List Char} : CharText c u → StringText cs w →
      StringText (c :: cs) (u ++ w)

mutual

/-- A way to write a value. -/
inductive Text : Value → List Char → Prop
  | null : Text .null "null".toList
  | true : Text (.bool true) "true".toList
  | false : Text (.bool false) "false".toList
  | string {s : String} {w : List Char} : StringText s.toList w →
      Text (.string (some s)) ('\"' :: (w ++ ['\"']))
  | emptyArray {b : List Char} : Blanks b → Text (.array []) ('[' :: (b ++ [']']))
  | array {vs : List Value} {b w : List Char} : Blanks b → ItemsText vs w →
      Text (.array vs) ('[' :: (b ++ (w ++ [']'])))
  | emptyObject {b : List Char} : Blanks b → Text (.object []) ('\x7b' :: (b ++ ['\x7d']))
  | object {fs : List (Chars × Value)} {b w : List Char} : Blanks b → FieldsText fs w →
      Text (.object fs) ('\x7b' :: (b ++ (w ++ ['\x7d'])))

/-- A way to write some values with commas between them. -/
inductive ItemsText : List Value → List Char → Prop
  | single {v : Value} {w b : List Char} : Text v w → Blanks b → ItemsText [v] (w ++ b)
  | cons {v : Value} {vs : List Value} {w b b' ws : List Char} : Text v w → Blanks b → Blanks b' →
      ItemsText vs ws → ItemsText (v :: vs) (w ++ (b ++ ',' :: (b' ++ ws)))

/-- A way to write some fields with commas between them. -/
inductive FieldsText : List (Chars × Value) → List Char → Prop
  | single {k : String} {v : Value} {u w b b' b'' : List Char} : StringText k.toList u →
      Blanks b → Blanks b' → Text v w → Blanks b'' →
      FieldsText [(some k, v)] ('\"' :: (u ++ '\"' :: (b ++ ':' :: (b' ++ (w ++ b'')))))
  | cons {k : String} {v : Value} {fs : List (Chars × Value)} {u w b b' b'' b₃ ws : List Char} :
      StringText k.toList u → Blanks b → Blanks b' → Text v w → Blanks b'' → Blanks b₃ →
      FieldsText fs ws →
      FieldsText ((some k, v) :: fs)
        ('\"' :: (u ++ '\"' :: (b ++ ':' :: (b' ++ (w ++ (b'' ++ ',' :: (b₃ ++ ws)))))))

end

/-- Whether a document holds just a value. -/
def Document (v : Value) (s : String) : Prop :=
  ∃ b w b', Blanks b ∧ Text v w ∧ Blanks b' ∧ s.toList = b ++ (w ++ b')

/-! ## Separators -/

/-- Whether a character is the line separator or the paragraph separator. -/
def isSeparator (c : Char) : Bool := c.toNat == 0x2028 || c.toNat == 0x2029

/-- What is read from a text that must not hold a separator. -/
def unlessSeparated {α : Type} (w : List Char) (a : α) : Option α :=
  if w.any isSeparator then none else some a

theorem unlessSeparated_of_any {α : Type} {w : List Char} (h : w.any isSeparator = true) (a : α) :
    unlessSeparated w a = none := if_pos h

theorem unlessSeparated_of_not_any {α : Type} {w : List Char} (h : w.any isSeparator = false)
    (a : α) : unlessSeparated w a = some a := by
  rw [unlessSeparated, h, if_neg Bool.false_ne_true]

theorem unlessSeparated_eq_some_iff {α : Type} {w : List Char} {a : α} :
    unlessSeparated w a = some a ↔ w.any isSeparator = false := by
  cases h : w.any isSeparator <;> simp [unlessSeparated, h]

theorem unlessSeparated_congr {α : Type} {u w : List Char}
    (h : u.any isSeparator = w.any isSeparator) (a : α) :
    unlessSeparated u a = unlessSeparated w a := by
  rw [unlessSeparated, h, unlessSeparated]

@[simp] theorem map_unlessSeparated {α β : Type} (w : List Char) (a : α) (f : α → β) :
    (unlessSeparated w a).map f = unlessSeparated w (f a) := by
  cases h : w.any isSeparator <;> simp [unlessSeparated, h]

/-- Reading goes on behind a text that holds no separator. -/
theorem unlessSeparated_bind {α β : Type} {u w : List Char} {a : α} {b : β} {f : α → Option β}
    (h : f a = unlessSeparated w b) :
    (unlessSeparated u a).bind f = unlessSeparated (u ++ w) b := by
  cases hu : u.any isSeparator <;> simp [unlessSeparated, hu, h]

/-- Only separators end a line and may stand in a string. -/
theorem isLineEnd_eq_isSeparator {c : Char} (hc : 0x20 ≤ c.toNat) :
    isLineEnd c = isSeparator c := by
  have hn : c ≠ '\n' := by rintro rfl; revert hc; decide
  have hr : c ≠ '\r' := by rintro rfl; revert hc; decide
  rw [isLineEnd, beq_false_of_ne hn, beq_false_of_ne hr]
  rfl

namespace Blanks

theorem not_any {b : List Char} (h : Blanks b) : b.any isSeparator = false := by
  rw [List.any_eq_false]
  intro c hc
  rcases h c hc with rfl | rfl | rfl | rfl <;> decide

/-- Blanks are passed over. -/
theorem skip_append {b : List Char} (h : Blanks b) (s : List Char) : skip (b ++ s) = skip s := by
  induction b with
  | nil => rfl
  | cons c b ih =>
    obtain ⟨hc, hb⟩ := List.forall_mem_cons.mp h
    rw [← ih hb]
    rcases hc with rfl | rfl | rfl | rfl <;> rfl

end Blanks

/-- The letters, quotes and brackets with which values start. -/
def valueStarts : List Char := ['n', 't', 'f', '\"', '[', '\x7b']

/-- Nothing is passed over before a token. -/
theorem skip_token {c : Char} (hc : c ∈ ',' :: ':' :: ']' :: '\x7d' :: valueStarts)
    (s : List Char) : skip (c :: s) = some (c :: s) := by
  simp only [valueStarts, List.mem_cons, List.not_mem_nil, or_false] at hc
  rcases hc with rfl | rfl | rfl | rfl | rfl | rfl | rfl | rfl | rfl | rfl <;> rfl

theorem skip_value {c : Char} (hc : c ∈ valueStarts) (s : List Char) :
    skip (c :: s) = some (c :: s) :=
  skip_token (by simp only [List.mem_cons, hc, or_true]) s

/-! ## Characters and strings -/

theorem HexDigit.hexDigit?_eq {d : Nat} {x : Char} (h : HexDigit d x) : hexDigit? x = some d := by
  cases h with
  | small hd => revert d; decide
  | large hd => revert d; decide

namespace CodeText

variable {n : Nat} {w : List Char}

theorem escape?_eq (h : CodeText n w) (s : List Char) :
    ∃ u, w = '\\' :: u ∧ escape? (u ++ s) = some ([.code n], s) := by
  cases h with
  | digits ha hb hc hd =>
    refine ⟨_, rfl, ?_⟩
    simp only [List.cons_append, List.nil_append, escape?, hexDigits?, ha.hexDigit?_eq,
      hb.hexDigit?_eq, hc.hexDigit?_eq, hd.hexDigit?_eq, Option.bind_some, Option.map_some,
      Option.some.injEq, Prod.mk.injEq, List.cons.injEq, Unit.code.injEq, and_true]
    omega

theorem length_pos (h : CodeText n w) : 0 < w.length := by
  cases h
  exact Nat.succ_pos 5

theorem not_any (h : CodeText n w) : w.any isSeparator = false := by
  cases h with
  | digits ha hb hc hd =>
    have hdigit {d : Nat} {x : Char} (h : HexDigit d x) : isSeparator x = false := by
      cases h with
      | small hd => revert d; decide
      | large hd => revert d; decide
    simp only [List.any_cons, List.any_nil, hdigit ha, hdigit hb, hdigit hc, hdigit hd]
    decide

end CodeText

/-- An escape in a string is read as the pieces that it stands for. -/
theorem units?_escape {s r : List Char} {us : List Json5.Unit} (h : escape? s = some (us, r))
    (n : Nat) :
    units? '\"' (n + 1) ('\\' :: s) = (units? '\"' n r).map fun (vs, r) => (us ++ vs, r) := by
  rw [units?, h]
  cases hr : units? '\"' n r <;> simp [hr]

theorem escape?_short {c e : Char} (h : (c, e) ∈ shortEscapes) (s : List Char) :
    escape? (e :: s) = some ([.char c], s) := by
  simp only [shortEscapes, List.mem_cons, Prod.mk.injEq, List.not_mem_nil, or_false] at h
  rcases h with ⟨rfl, rfl⟩ | ⟨rfl, rfl⟩ | ⟨rfl, rfl⟩ | ⟨rfl, rfl⟩ | ⟨rfl, rfl⟩ | ⟨rfl, rfl⟩ |
    ⟨rfl, rfl⟩ | ⟨rfl, rfl⟩ <;> rfl

theorem not_isSeparator_short {c e : Char} (h : (c, e) ∈ shortEscapes) :
    isSeparator e = false := by
  have hall : shortEscapes.all (fun p => !isSeparator p.2) = true := by decide
  simpa using List.all_eq_true.mp hall (c, e) h

/-- A code that is a character is joined as that. -/
theorem joinUnits_code (c : Char) (vs : List Json5.Unit) :
    joinUnits (.code c.toNat :: vs) = (joinUnits vs).map (c :: ·) := by
  have hvalid : c.toNat < 0xD800 ∨ 0xDFFF < c.toNat ∧ c.toNat < 0x110000 := c.valid
  rw [joinUnits.eq_def]
  simp only
  rw [if_neg (by omega), if_neg (by omega), Char.ofNat_toNat]

/-- Two codes of a pair are joined to the character of the pair. -/
theorem joinUnits_pair {c : Char} {high low : Nat} (hhigh : 0xD800 ≤ high) (hhigh' : high < 0xDC00)
    (hlow : 0xDC00 ≤ low) (hlow' : low < 0xE000)
    (hc : c.toNat = 0x10000 + (high - 0xD800) * 1024 + (low - 0xDC00)) (vs : List Json5.Unit) :
    joinUnits (.code high :: .code low :: vs) = (joinUnits vs).map (c :: ·) := by
  rw [joinUnits, if_neg (by omega), if_pos ⟨hhigh, hhigh'⟩, if_pos ⟨hlow, hlow'⟩, ← hc,
    Char.ofNat_toNat]

namespace CharText

variable {c : Char} {w : List Char}

/-- A character of a string is read, unless it is a separator that stands there as it is. -/
theorem units?_eq (h : CharText c w) (s : List Char) :
    ∃ (us : List Json5.Unit) (k : Nat), k ≤ w.length ∧
      (∀ vs, joinUnits (us ++ vs) = (joinUnits vs).map (c :: ·)) ∧
      ∀ n, units? '\"' (n + k) (w ++ s) =
        (unlessSeparated w us).bind fun us =>
          (units? '\"' n s).map fun (vs, r) => (us ++ vs, r) := by
  cases h with
  | plain hq hb hc =>
    refine ⟨[.char c], 1, Nat.le_refl 1, fun vs => rfl, fun n => ?_⟩
    rw [List.cons_append, units?.eq_4 _ _ _ _ (by rintro rfl; exact hb rfl), if_neg hq,
      isLineEnd_eq_isSeparator hc]
    cases hs : isSeparator c <;> simp [unlessSeparated, hs]
  | @short e he =>
    refine ⟨[.char c], 1, by simp, fun vs => rfl, fun n => ?_⟩
    have hw : ['\\', e].any isSeparator = false := by
      simpa [not_isSeparator_short he] using (by decide : isSeparator '\\' = false)
    rw [unlessSeparated_of_not_any hw]
    exact units?_escape (escape?_short he s) n
  | code hw =>
    refine ⟨[.code c.toNat], 1, hw.length_pos, joinUnits_code c, fun n => ?_⟩
    obtain ⟨u, rfl, hu⟩ := hw.escape?_eq s
    rw [unlessSeparated_of_not_any hw.not_any]
    exact units?_escape hu n
  | @pair high low u w hhigh hhigh' hlow hlow' hc hu hw =>
    refine ⟨[.code high, .code low], 2, ?_, joinUnits_pair hhigh hhigh' hlow hlow' hc,
      fun n => ?_⟩
    · have := hu.length_pos
      have := hw.length_pos
      rw [List.length_append]
      omega
    · have hany : (u ++ w).any isSeparator = false := by
        rw [List.any_append, hu.not_any, hw.not_any, Bool.or_false]
      obtain ⟨u, rfl, hread⟩ := hu.escape?_eq (w ++ s)
      obtain ⟨w, rfl, hread'⟩ := hw.escape?_eq s
      rw [unlessSeparated_of_not_any hany, List.append_assoc, List.cons_append,
        units?_escape hread (n + 1), List.cons_append, units?_escape hread' n, Option.map_map]
      rfl

end CharText

namespace StringText

variable {cs w : List Char}

/-- A text without quotes, backslashes and control characters may be written as it is. -/
theorem of_plain (s : String)
    (h : s.toList.all (fun c => c != '\"' && c != '\\' && 0x20 ≤ c.toNat) = true) :
    StringText s.toList s.toList := by
  generalize s.toList = cs at h ⊢
  induction cs with
  | nil => exact .nil
  | cons c cs ih =>
    simp only [List.all_cons, Bool.and_eq_true, bne_iff_ne, decide_eq_true_eq] at h
    obtain ⟨⟨⟨hquote, hbackslash⟩, hcontrol⟩, hcs⟩ := h
    exact .cons (.plain hquote hbackslash hcontrol) (ih hcs)

theorem units?_eq (h : StringText cs w) (r : List Char) :
    ∃ us, joinUnits us = some cs ∧
      ∀ n, w.length < n → units? '\"' n (w ++ '\"' :: r) = unlessSeparated w (us, r) := by
  induction h with
  | nil =>
    refine ⟨[], rfl, fun n hn => ?_⟩
    cases n with
    | zero => exact absurd hn (Nat.lt_irrefl 0)
    | succ n => rfl
  | @cons c cs u w hu _ ih =>
    obtain ⟨us, k, hk, hjoin, hread⟩ := hu.units?_eq (w ++ '\"' :: r)
    obtain ⟨vs, hvs, hread'⟩ := ih
    refine ⟨us ++ vs, by rw [hjoin, hvs, Option.map_some], fun n hn => ?_⟩
    rw [List.length_append] at hn
    rw [List.append_assoc, ← Nat.sub_add_cancel (Nat.le_of_lt (show k < n by omega)), hread]
    refine unlessSeparated_bind ?_
    rw [hread' _ (by omega), map_unlessSeparated]

/-- A string is read behind its first quote. -/
theorem string?_eq {s : String} (h : StringText s.toList w) (r : List Char) :
    string? '\"' (w ++ '\"' :: r) = unlessSeparated w (some s, r) := by
  obtain ⟨us, hjoin, hread⟩ := h.units?_eq r
  have hlt : w.length < (w ++ '\"' :: r).length + 1 := by
    rw [List.length_append]
    omega
  rw [string?, hread _ hlt, map_unlessSeparated]
  simp only [textOf, hjoin, Option.map_some, String.ofList_toList]

end StringText

/-! ## Values -/

theorem Text.exists_cons {v : Value} {w : List Char} (h : Text v w) :
    ∃ c ∈ valueStarts, ∃ u, w = c :: u := by
  cases h with
  | null => exact ⟨'n', by decide, _, rfl⟩
  | true => exact ⟨'t', by decide, _, rfl⟩
  | false => exact ⟨'f', by decide, _, rfl⟩
  | string => exact ⟨'\"', by decide, _, rfl⟩
  | emptyArray | array => exact ⟨'[', by decide, _, rfl⟩
  | emptyObject | object => exact ⟨'\x7b', by decide, _, rfl⟩

theorem ItemsText.exists_cons {vs : List Value} {w : List Char} (h : ItemsText vs w) :
    ∃ c ∈ valueStarts, ∃ u, w = c :: u := by
  cases h with
  | single hv | cons hv =>
    obtain ⟨c, hc, u, rfl⟩ := hv.exists_cons
    exact ⟨c, hc, _, rfl⟩

theorem FieldsText.exists_cons {fs : List (Chars × Value)} {w : List Char} (h : FieldsText fs w) :
    ∃ u, w = '\"' :: u := by
  cases h <;> exact ⟨_, rfl⟩

theorem Text.skip_append {v : Value} {w : List Char} (h : Text v w) (s : List Char) :
    skip (w ++ s) = some (w ++ s) := by
  obtain ⟨c, hc, u, rfl⟩ := h.exists_cons
  exact skip_value hc (u ++ s)

section Steps

variable {n : Nat} {s r : List Char} {v : Value} {w : List Char}

/-- An array that is not closed at once has items. -/
theorem value?_array {c : Char} {t : List Char} {vs : List Value} (hs : skip s = some (c :: r))
    (hc : c ≠ ']') (hvs : items? n (c :: r) = unlessSeparated w (vs, t)) :
    value? (n + 1) ('[' :: s) = unlessSeparated w (.array vs, t) := by
  rw [value?, hs]
  cases hw : w.any isSeparator <;> simp [hc, hvs, unlessSeparated, hw]

/-- An object that is not closed at once has fields. -/
theorem value?_object {c : Char} {t : List Char} {fs : List (Chars × Value)}
    (hs : skip s = some (c :: r)) (hc : c ≠ '\x7d')
    (hfs : fields? n (c :: r) = unlessSeparated w (fs, t)) :
    value? (n + 1) ('\x7b' :: s) = unlessSeparated w (.object fs, t) := by
  rw [value?, hs]
  cases hw : w.any isSeparator <;> simp [hc, hfs, unlessSeparated, hw]

theorem items?_last {t : List Char} (hv : value? n s = unlessSeparated w (v, r))
    (hr : skip r = some (']' :: t)) : items? (n + 1) s = unlessSeparated w ([v], t) := by
  rw [items?, hv]
  cases hw : w.any isSeparator <;> simp [unlessSeparated, hw, hr]

theorem items?_more {c : Char} {q t ws : List Char} {vs : List Value}
    (hv : value? n s = unlessSeparated w (v, r)) (hr : skip r = some (',' :: q))
    (hq : skip q = some (c :: t)) (hc : c ≠ ']') {t' : List Char}
    (hvs : items? n (c :: t) = unlessSeparated ws (vs, t')) :
    items? (n + 1) s = unlessSeparated (w ++ ws) (v :: vs, t') := by
  rw [items?, hv]
  refine unlessSeparated_bind ?_
  cases hw : ws.any isSeparator <;> simp [hr, hq, hc, hvs, unlessSeparated, hw]

variable {k : Chars} {u q q' s' : List Char}

theorem fields?_last {t : List Char} (hk : string? '\"' s = unlessSeparated u (k, q))
    (hq : skip q = some (':' :: q')) (hq' : skip q' = some r)
    (hv : value? n r = unlessSeparated w (v, s')) (hs : skip s' = some ('\x7d' :: t)) :
    fields? (n + 1) ('\"' :: s) = unlessSeparated (u ++ w) ([(k, v)], t) := by
  rw [fields?, key?, hk]
  refine unlessSeparated_bind ?_
  cases hw : w.any isSeparator <;> simp [hq, hq', hv, hs, unlessSeparated, hw]

theorem fields?_more {c : Char} {p t t' ws : List Char} {fs : List (Chars × Value)}
    (hk : string? '\"' s = unlessSeparated u (k, q)) (hq : skip q = some (':' :: q'))
    (hq' : skip q' = some r) (hv : value? n r = unlessSeparated w (v, s'))
    (hs : skip s' = some (',' :: p)) (hp : skip p = some (c :: t)) (hc : c ≠ '\x7d')
    (hfs : fields? n (c :: t) = unlessSeparated ws (fs, t')) :
    fields? (n + 1) ('\"' :: s) = unlessSeparated (u ++ (w ++ ws)) ((k, v) :: fs, t') := by
  rw [fields?, key?, hk]
  refine unlessSeparated_bind ?_
  cases hw : w.any isSeparator <;> cases hws : ws.any isSeparator <;>
    simp [hq, hq', hv, hs, hp, hc, hfs, unlessSeparated, hw, hws]

end Steps

mutual

/-- A value is read, unless a separator stands in one of its strings. -/
theorem Text.value?_eq : ∀ {v : Value} {w : List Char}, Text v w → ∀ {n : Nat} (r : List Char),
    w.length ≤ n → value? n (w ++ r) = unlessSeparated w (v, r)
  | _, _, .null, n + 1, r, _ => rfl
  | _, _, .true, n + 1, r, _ => rfl
  | _, _, .false, n + 1, r, _ => rfl
  | _, _, .string (s := s) (w := w) hs, n + 1, r, _ => by
    have hread : value? (n + 1) ('\"' :: (w ++ '\"' :: r)) =
        (string? '\"' (w ++ '\"' :: r)).map fun (t, r) => (.string t, r) := rfl
    rw [List.cons_append, List.append_assoc, List.singleton_append, hread, hs.string?_eq,
      map_unlessSeparated]
    exact unlessSeparated_congr (by simp [isSeparator]) _
  | _, _, .emptyArray (b := b) hb, n + 1, r, _ => by
    have hskip : skip (b ++ ']' :: r) = some (']' :: r) := by
      rw [hb.skip_append, skip_token (by decide)]
    have hany : ('[' :: (b ++ [']'])).any isSeparator = Bool.false := by
      simp [isSeparator, hb.not_any]
    rw [List.cons_append, List.append_assoc, List.singleton_append, value?, hskip,
      unlessSeparated_of_not_any hany]
    rfl
  | _, _, .array (b := b) (w := w) hb hw, n + 1, r, hn => by
    obtain ⟨c, hc, u, rfl⟩ := hw.exists_cons
    simp only [List.length_cons, List.length_append] at hn
    have hclose : c ≠ ']' := by
      rintro rfl
      exact absurd hc (by decide)
    have hskip : skip (b ++ (c :: u ++ ']' :: r)) = some (c :: u ++ ']' :: r) := by
      rw [hb.skip_append, List.cons_append, skip_value hc]
    have hitems := ItemsText.items?_eq hw (n := n) r (by rw [List.length_cons]; omega)
    rw [List.cons_append, List.append_assoc, List.append_assoc, List.singleton_append,
      value?_array hskip hclose hitems]
    exact unlessSeparated_congr (by simp [isSeparator, hb.not_any]) _
  | _, _, .emptyObject (b := b) hb, n + 1, r, _ => by
    have hskip : skip (b ++ '\x7d' :: r) = some ('\x7d' :: r) := by
      rw [hb.skip_append, skip_token (by decide)]
    have hany : ('\x7b' :: (b ++ ['\x7d'])).any isSeparator = Bool.false := by
      simp [isSeparator, hb.not_any]
    rw [List.cons_append, List.append_assoc, List.singleton_append, value?, hskip,
      unlessSeparated_of_not_any hany]
    rfl
  | _, _, .object (b := b) (w := w) hb hw, n + 1, r, hn => by
    obtain ⟨u, rfl⟩ := hw.exists_cons
    simp only [List.length_cons, List.length_append] at hn
    have hskip : skip (b ++ ('\"' :: u ++ '\x7d' :: r)) = some ('\"' :: u ++ '\x7d' :: r) := by
      rw [hb.skip_append, List.cons_append, skip_token (by decide)]
    have hfields := FieldsText.fields?_eq hw (n := n) r (by rw [List.length_cons]; omega)
    rw [List.cons_append, List.append_assoc, List.append_assoc, List.singleton_append,
      value?_object hskip (by decide) hfields]
    exact unlessSeparated_congr (by simp [isSeparator, hb.not_any]) _

theorem ItemsText.items?_eq : ∀ {vs : List Value} {w : List Char}, ItemsText vs w →
    ∀ {n : Nat} (r : List Char), w.length < n →
      items? n (w ++ ']' :: r) = unlessSeparated w (vs, r)
  | _, _, .single (w := w) (b := b) hv hb, n + 1, r, hn => by
    rw [List.length_append] at hn
    have hclose : skip (b ++ ']' :: r) = some (']' :: r) := by
      rw [hb.skip_append, skip_token (by decide)]
    rw [List.append_assoc, items?_last (hv.value?_eq _ (by omega)) hclose]
    exact unlessSeparated_congr (by simp [hb.not_any]) _
  | _, _, @ItemsText.cons _ _ _ b b' _ hv hb hb' hvs, n + 1, r, hn => by
    obtain ⟨c, hc, u, rfl⟩ := hvs.exists_cons
    simp only [List.length_cons, List.length_append] at hn
    have hclose : c ≠ ']' := by
      rintro rfl
      exact absurd hc (by decide)
    have hcomma : skip (b ++ ',' :: (b' ++ (c :: u)) ++ ']' :: r) =
        some (',' :: (b' ++ (c :: u ++ ']' :: r))) := by
      rw [List.append_assoc, hb.skip_append, List.cons_append, skip_token (by decide),
        List.append_assoc]
    have hnext : skip (b' ++ (c :: u ++ ']' :: r)) = some (c :: u ++ ']' :: r) := by
      rw [hb'.skip_append, List.cons_append, skip_value hc]
    have hrest := ItemsText.items?_eq hvs (n := n) r (by rw [List.length_cons]; omega)
    rw [List.append_assoc, items?_more (hv.value?_eq _ (by omega)) hcomma hnext hclose hrest]
    exact unlessSeparated_congr (by simp [hb.not_any, hb'.not_any, isSeparator]) _

theorem FieldsText.fields?_eq : ∀ {fs : List (Chars × Value)} {w : List Char}, FieldsText fs w →
    ∀ {n : Nat} (r : List Char), w.length < n →
      fields? n (w ++ '\x7d' :: r) = unlessSeparated w (fs, r)
  | _, _, @FieldsText.single _ _ _ w b b' b'' hk hb hb' hv hb'', n + 1, r, hn => by
    simp only [List.length_cons, List.length_append] at hn
    have hcolon : skip (b ++ ':' :: (b' ++ (w ++ (b'' ++ '\x7d' :: r)))) =
        some (':' :: (b' ++ (w ++ (b'' ++ '\x7d' :: r)))) := by
      rw [hb.skip_append, skip_token (by decide)]
    have hvalue : skip (b' ++ (w ++ (b'' ++ '\x7d' :: r))) = some (w ++ (b'' ++ '\x7d' :: r)) := by
      rw [hb'.skip_append, hv.skip_append]
    have hclose : skip (b'' ++ '\x7d' :: r) = some ('\x7d' :: r) := by
      rw [hb''.skip_append, skip_token (by decide)]
    simp only [List.cons_append, List.append_assoc]
    rw [fields?_last (hk.string?_eq _) hcolon hvalue (hv.value?_eq _ (by omega)) hclose]
    exact unlessSeparated_congr
      (by simp [hb.not_any, hb'.not_any, hb''.not_any, isSeparator]) _
  | _, _, @FieldsText.cons _ _ _ _ w b b' b'' b₃ _ hk hb hb' hv hb'' hb₃ hfs, n + 1, r, hn => by
    obtain ⟨x, rfl⟩ := hfs.exists_cons
    simp only [List.length_cons, List.length_append] at hn
    -- What stands behind the comma, the value and the colon.
    let next := '\"' :: x ++ '\x7d' :: r
    let comma := ',' :: (b₃ ++ next)
    let colon := ':' :: (b' ++ (w ++ (b'' ++ comma)))
    have hcolon : skip (b ++ colon) = some colon := by
      rw [hb.skip_append, skip_token (by decide)]
    have hvalue : skip (b' ++ (w ++ (b'' ++ comma))) = some (w ++ (b'' ++ comma)) := by
      rw [hb'.skip_append, hv.skip_append]
    have hcomma : skip (b'' ++ comma) = some comma := by
      rw [hb''.skip_append, skip_token (by decide)]
    have hnext : skip (b₃ ++ next) = some next := by
      rw [hb₃.skip_append]
      exact skip_token (by decide) _
    have hrest := FieldsText.fields?_eq hfs (n := n) r (by rw [List.length_cons]; omega)
    have hread := fields?_more (hk.string?_eq (b ++ colon)) hcolon hvalue
      (hv.value?_eq _ (by omega)) hcomma hnext (by decide) hrest
    simp only [List.cons_append, List.append_assoc]
    exact hread.trans (unlessSeparated_congr
      (by simp [hb.not_any, hb'.not_any, hb''.not_any, hb₃.not_any, isSeparator]) _)

end

/-- **A document is read as the value that it writes**, unless a line separator or a paragraph
separator stands in one of its strings as it is. -/
theorem Document.parse?_eq {v : Value} {s : String} (h : Document v s) :
    parse? s = unlessSeparated s.toList v := by
  obtain ⟨b, w, b', hb, hv, hb', hs⟩ := h
  have hend : skip b' = some [] := by
    rw [← List.append_nil b', hb'.skip_append]
    rfl
  have hlen : w.length ≤ 2 * (w ++ b').length + 2 := by
    rw [List.length_append]
    omega
  rw [parse?, hs, hb.skip_append, hv.skip_append]
  simp only [Option.bind_eq_bind, Option.bind_some]
  rw [hv.value?_eq b' hlen, unlessSeparated_congr (u := b ++ (w ++ b')) (w := w ++ b')
    (by rw [List.any_append, hb.not_any, Bool.false_or])]
  refine unlessSeparated_bind ?_
  rw [unlessSeparated_of_not_any hb'.not_any]
  simp [hend]

/-! ## There are texts

A writer that escapes all characters that have a code of four digits needs no separator. -/

/-- Whether some text writes a value without separators. -/
def Writable (v : Value) : Prop := ∃ w, Text v w ∧ w.any isSeparator = false

theorem exists_codeText {n : Nat} (hn : n < 0x10000) : ∃ w, CodeText n w := by
  have hdigits : n = 4096 * (n / 4096) + 256 * (n / 256 % 16) + 16 * (n / 16 % 16) + n % 16 := by
    omega
  rw [hdigits]
  exact ⟨_, .digits (.small (by omega)) (.small (by omega)) (.small (by omega))
    (.small (by omega))⟩

theorem exists_charText (c : Char) : ∃ w, CharText c w ∧ w.any isSeparator = false := by
  by_cases hc : c.toNat < 0x10000
  · obtain ⟨w, hw⟩ := exists_codeText hc
    exact ⟨w, .code hw, hw.not_any⟩
  · have hplain : c ≠ '\"' ∧ c ≠ '\\' := by
      constructor <;> (rintro rfl; exact hc (by decide))
    refine ⟨[c], .plain hplain.1 hplain.2 (by omega), ?_⟩
    simp only [List.any_cons, List.any_nil, Bool.or_false, isSeparator, Bool.or_eq_false_iff,
      beq_eq_false_iff_ne]
    omega

theorem exists_stringText (cs : List Char) :
    ∃ w, StringText cs w ∧ w.any isSeparator = false := by
  induction cs with
  | nil => exact ⟨[], .nil, rfl⟩
  | cons c cs ih =>
    obtain ⟨u, hu, hany⟩ := exists_charText c
    obtain ⟨w, hw, hany'⟩ := ih
    exact ⟨u ++ w, .cons hu hw, by rw [List.any_append, hany, hany', Bool.or_false]⟩

namespace Writable

theorem null : Writable .null := ⟨_, .null, by decide⟩

theorem bool (b : Bool) : Writable (.bool b) := by
  cases b with
  | false => exact ⟨_, .false, by decide⟩
  | true => exact ⟨_, .true, by decide⟩

theorem string (s : String) : Writable (.string (some s)) := by
  obtain ⟨w, hw, hany⟩ := exists_stringText s.toList
  exact ⟨_, .string hw, by simp [isSeparator, hany]⟩

theorem array {vs : List Value} (h : ∀ v ∈ vs, Writable v) : Writable (.array vs) := by
  have hblank : Blanks [] := List.forall_mem_nil _
  cases vs with
  | nil => exact ⟨_, .emptyArray hblank, by decide⟩
  | cons v vs =>
    have hitems : ∃ w, ItemsText (v :: vs) w ∧ w.any isSeparator = false := by
      induction vs generalizing v with
      | nil =>
        obtain ⟨w, hw, hany⟩ := h v List.mem_cons_self
        exact ⟨_, .single hw hblank, by rw [List.append_nil, hany]⟩
      | cons v' vs ih =>
        obtain ⟨w, hw, hany⟩ := h v List.mem_cons_self
        obtain ⟨ws, hws, hany'⟩ := ih v' fun x hx => h x (List.mem_cons_of_mem v hx)
        exact ⟨_, .cons hw hblank hblank hws, by simp [isSeparator, hany, hany']⟩
    obtain ⟨w, hw, hany⟩ := hitems
    exact ⟨_, .array hblank hw, by simp [isSeparator, hany]⟩

theorem object {fs : List (String × Value)} (h : ∀ f ∈ fs, Writable f.2) :
    Writable (.object (fs.map fun f => (some f.1, f.2))) := by
  have hblank : Blanks [] := List.forall_mem_nil _
  cases fs with
  | nil => exact ⟨_, .emptyObject hblank, by decide⟩
  | cons f fs =>
    have hfields : ∃ w, FieldsText ((f :: fs).map fun f => (some f.1, f.2)) w ∧
        w.any isSeparator = false := by
      induction fs generalizing f with
      | nil =>
        obtain ⟨u, hu, hany⟩ := exists_stringText f.1.toList
        obtain ⟨w, hw, hany'⟩ := h f List.mem_cons_self
        exact ⟨_, .single hu hblank hblank hw hblank, by simp [isSeparator, hany, hany']⟩
      | cons f' fs ih =>
        obtain ⟨u, hu, hany⟩ := exists_stringText f.1.toList
        obtain ⟨w, hw, hany'⟩ := h f List.mem_cons_self
        obtain ⟨ws, hws, hany''⟩ := ih f' fun x hx => h x (List.mem_cons_of_mem f hx)
        exact ⟨_, .cons hu hblank hblank hw hblank hblank hws,
          by simp [isSeparator, hany, hany', hany'']⟩
    obtain ⟨w, hw, hany⟩ := hfields
    exact ⟨_, .object hblank hw, by simp [isSeparator, hany]⟩

/-- Any such text is a document. -/
theorem exists_document {v : Value} (h : Writable v) :
    ∃ s, Document v s ∧ s.toList.any isSeparator = false := by
  obtain ⟨w, hw, hany⟩ := h
  have hblank : Blanks [] := List.forall_mem_nil _
  refine ⟨String.ofList w, ⟨[], w, [], hblank, hw, hblank, ?_⟩, ?_⟩
  · rw [String.toList_ofList, List.nil_append, List.append_nil]
  · rw [String.toList_ofList, hany]

end Writable

end TextTemplate.Json
