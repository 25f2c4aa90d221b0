import TextTemplate.Json5.Value
import TextTemplate.Text.Initial
import TextTemplate.Unicode.Property

/-!
# Reading JSON5 documents

`parse?` reads a whole document. The functions for its pieces take what is left of it and give back
what is left after the piece.
-/

namespace TextTemplate.Json5

open Unicode

/-! ## Blanks and comments -/

/-- Whether a character ends a line. -/
def isLineEnd (c : Char) : Bool :=
  c == '\n' || c == '\r' || c.toNat == 0x2028 || c.toNat == 0x2029

/-- Whether a character is blank. -/
def isBlank (c : Char) : Bool :=
  isLineEnd c || c == '\t' || c == '\x0b' || c == '\x0c' || c == ' ' || c.toNat == 0xA0 ||
    c.toNat == 0xFEFF || (128 ≤ c.toNat && GeneralCategory.of c == .spaceSeparator)

/-- What stands between two pieces. -/
inductive Gap where
  | blank
  | lineComment
  | blockComment
deriving DecidableEq, Repr

/-- Passes over blanks and comments; a comment may be open already. One in asterisks has to end. -/
def skipGap : Gap → List Char → Option (List Char)
  | .blockComment, [] => none
  | _, [] => some []
  | .blank, '/' :: '/' :: r => skipGap .lineComment r
  | .blank, '/' :: '*' :: r => skipGap .blockComment r
  | .blank, c :: r => if isBlank c then skipGap .blank r else some (c :: r)
  | .lineComment, c :: r => skipGap (if isLineEnd c then .blank else .lineComment) r
  | .blockComment, '*' :: '/' :: r => skipGap .blank r
  | .blockComment, _ :: r => skipGap .blockComment r

/-- Passes over blanks and comments. -/
def skip (s : List Char) : Option (List Char) := skipGap .blank s

/-! ## Strings -/

/-- A piece of a string: a character, or a number of four hexadecimal digits. -/
inductive Unit where
  | char (c : Char)
  | code (n : Nat)
deriving DecidableEq, Repr

/-- Puts the pieces of a string together. Two codes may be one character. -/
def joinUnits : List Unit → Option (List Char)
  | [] => some []
  | .char c :: us => (joinUnits us).map (c :: ·)
  | .code n :: us =>
    if 0xDC00 ≤ n ∧ n < 0xE000 then none
    else if 0xD800 ≤ n ∧ n < 0xDC00 then
      match us with
      | .code m :: us =>
        if 0xDC00 ≤ m ∧ m < 0xE000 then
          (joinUnits us).map (Char.ofNat (0x10000 + (n - 0xD800) * 1024 + (m - 0xDC00)) :: ·)
        else none
      | _ => none
    else (joinUnits us).map (Char.ofNat n :: ·)

/-- The text of some pieces. -/
def textOf (us : List Unit) : Chars := (joinUnits us).map String.ofList

/-- The value of a hexadecimal digit. -/
def hexDigit? (c : Char) : Option Nat :=
  if '0' ≤ c ∧ c ≤ '9' then some (c.toNat - 48)
  else if 'a' ≤ c ∧ c ≤ 'f' then some (c.toNat - 87)
  else if 'A' ≤ c ∧ c ≤ 'F' then some (c.toNat - 55)
  else none

/-- The value of exactly so many hexadecimal digits. -/
def hexDigits? (acc : Nat) : Nat → List Char → Option (Nat × List Char)
  | 0, s => some (acc, s)
  | _ + 1, [] => none
  | n + 1, c :: cs => (hexDigit? c).bind fun d => hexDigits? (16 * acc + d) n cs

/-- What a character after a backslash stands for. -/
def escaped (c : Char) : Char :=
  match c with
  | 'b' => '\x08'
  | 'f' => '\x0c'
  | 'n' => '\n'
  | 'r' => '\r'
  | 't' => '\t'
  | 'v' => '\x0b'
  | '0' => '\x00'
  | c => c

/-- What follows a backslash in a string. An escaped line end stands for nothing. -/
def escape? : List Char → Option (List Unit × List Char)
  | [] => none
  | 'x' :: r => (hexDigits? 0 2 r).map fun (n, r) => ([.char (Char.ofNat n)], r)
  | 'u' :: r => (hexDigits? 0 4 r).map fun (n, r) => ([.code n], r)
  | '\r' :: '\n' :: r => some ([], r)
  | c :: r =>
    if isLineEnd c then some ([], r)
    else if c.isDigit && c != '0' then none
    else some ([.char (escaped c)], r)

/-- The pieces of a string up to its closing quote. -/
def units? (quote : Char) : Nat → List Char → Option (List Unit × List Char)
  | 0, _ => none
  | _ + 1, [] => none
  | n + 1, '\\' :: r => do
    let (us, r) ← escape? r
    let (vs, r) ← units? quote n r
    return (us ++ vs, r)
  | n + 1, c :: r =>
    if c = quote then some ([], r)
    else if isLineEnd c then none
    else (units? quote n r).map fun (us, r) => (.char c :: us, r)

/-- A string after its opening quote. -/
def string? (quote : Char) (s : List Char) : Option (Chars × List Char) :=
  (units? quote (s.length + 1) s).map fun (us, r) => (textOf us, r)

/-! ## Names -/

/-- Whether a character may start a name. -/
def startsName (c : Char) : Bool :=
  if c.toNat < 128 then c.isAlpha || c == '$' || c == '_'
  else Property.categories (.letterNumber :: GeneralCategory.letters) c

/-- Whether a character may continue a name. -/
def continuesName (c : Char) : Bool :=
  if c.toNat < 128 then c.isAlphanum || c == '$' || c == '_'
  else startsName c
    || Property.categories [.nonspacingMark, .decimalNumber, .connectorPunctuation] c
    || Property.tabled Property.diacritic c || c.toNat == 0x200C || c.toNat == 0x200D

/-- The rest of a name, any part of which may be written as a code. -/
def nameUnits? (first : Bool) : Nat → List Char → Option (List Unit × List Char)
  | 0, _ => none
  | n + 1, '\\' :: r =>
    match r with
    | 'u' :: r => do
      let (c, r) ← hexDigits? 0 4 r
      let (us, r) ← nameUnits? false n r
      return (.code c :: us, r)
    | _ => if first then none else some ([], '\\' :: r)
  | n + 1, c :: r =>
    if (if first then startsName c else continuesName c) then
      (nameUnits? false n r).map fun (us, r) => (.char c :: us, r)
    else if first then none
    else some ([], c :: r)
  | _ + 1, [] => if first then none else some ([], [])

/-- A key: a string or a name. -/
def key? : List Char → Option (Chars × List Char)
  | '\"' :: r => string? '\"' r
  | '\'' :: r => string? '\'' r
  | s => (nameUnits? true (s.length + 1) s).map fun (us, r) => (textOf us, r)

/-! ## Numbers -/

/-- The value of decimal digits after the value `n`. -/
def decimalFrom (n : Nat) (ds : List Char) : Nat :=
  ds.foldl (fun n d => 10 * n + (d.toNat - 48)) n

/-- The exponent that may follow a decimal number; an incomplete one is left. -/
def exponent? (s : List Char) : Option (Int × List Char) :=
  match s with
  | e :: r =>
    if e = 'e' ∨ e = 'E' then
      let (negative, r) := match r with
        | '-' :: r => (true, r)
        | '+' :: r => (false, r)
        | r => (false, r)
      match r.takeWhile Char.isDigit with
      | [] => none
      | ds =>
        let n : Int := decimalFrom 0 ds
        some (if negative then -n else n, r.dropWhile Char.isDigit)
    else none
  | [] => none

/-- A number with these digits before the point and behind it. -/
def pointed (whole fraction s : List Char) : Number × List Char :=
  let (e, r) := (exponent? s).getD (0, s)
  (.decimal (decimalFrom (decimalFrom 0 whole) fraction) (e - fraction.length), r)

/-- A decimal number. A zero in front of other digits stands alone. -/
def decimal? (negative : Bool) (s : List Char) : Option (Number × List Char) :=
  let (whole, r) := match s with
    | '0' :: r => (['0'], r)
    | s => (s.takeWhile Char.isDigit, s.dropWhile Char.isDigit)
  match whole, r with
  | [], '.' :: r =>
    match r.takeWhile Char.isDigit with
    | [] => none
    | fraction => some (pointed [] fraction (r.dropWhile Char.isDigit))
  | [], _ => none
  | _, '.' :: r => some (pointed whole (r.takeWhile Char.isDigit) (r.dropWhile Char.isDigit))
  | _, r =>
    match exponent? r with
    | some (e, r) => some (.decimal (decimalFrom 0 whole) e, r)
    | none => some (.integer negative (decimalFrom 0 whole), r)

/-- A hexadecimal number after its sign. -/
def hexadecimal? (signed : Bool) : List Char → Option (Number × List Char)
  | '0' :: x :: r =>
    let ds := r.takeWhile fun c => (hexDigit? c).isSome
    if (x = 'x' ∨ x = 'X') ∧ ds ≠ [] then
      some (.hexadecimal signed (ds.foldl (fun n d => 16 * n + (hexDigit? d).getD 0) 0),
        r.drop ds.length)
    else none
  | _ => none

/-- A number. -/
def number? (s : List Char) : Option (Number × List Char) :=
  let (sign, r) := match s with
    | '+' :: r => (some '+', r)
    | '-' :: r => (some '-', r)
    | r => (none, r)
  hexadecimal? sign.isSome r
    <|> decimal? (sign == some '-') r
    <|> (Text.after? "Infinity".toList r).map (Number.special (sign == some '+'), ·)
    <|> (Text.after? "NaN".toList r).map (Number.special (sign == some '+'), ·)

/-! ## Values -/

/-- A value that does not hold others. -/
def scalar? (s : List Char) : Option (Value × List Char) :=
  match s with
  | '\"' :: r => (string? '\"' r).map fun (t, r) => (.string t, r)
  | '\'' :: r => (string? '\'' r).map fun (t, r) => (.string t, r)
  | s =>
    (Text.after? "null".toList s).map (Value.null, ·)
      <|> (Text.after? "true".toList s).map (Value.bool true, ·)
      <|> (Text.after? "false".toList s).map (Value.bool false, ·)
      <|> (number? s).map fun (n, r) => (.number n, r)

mutual

/-- A value; the number bounds how many pieces are read. -/
def value? : Nat → List Char → Option (Value × List Char)
  | 0, _ => none
  | n + 1, '[' :: r => do
    match ← skip r with
    | ']' :: r => return (.array [], r)
    | r =>
      let (vs, r) ← items? n r
      return (.array vs, r)
  | n + 1, '\x7b' :: r => do
    match ← skip r with
    | '\x7d' :: r => return (.object [], r)
    | r =>
      let (fs, r) ← fields? n r
      return (.object fs, r)
  | _ + 1, s => scalar? s

/-- The items of an array up to its closing bracket; a comma may stand after the last one. -/
def items? : Nat → List Char → Option (List Value × List Char)
  | 0, _ => none
  | n + 1, s => do
    let (v, r) ← value? n s
    match ← skip r with
    | ']' :: r => return ([v], r)
    | ',' :: r =>
      match ← skip r with
      | ']' :: r => return ([v], r)
      | r =>
        let (vs, r) ← items? n r
        return (v :: vs, r)
    | _ => none

/-- The fields of an object up to its closing brace; a comma may stand after the last one. -/
def fields? : Nat → List Char → Option (List (Chars × Value) × List Char)
  | 0, _ => none
  | n + 1, s => do
    let (k, r) ← key? s
    match ← skip r with
    | ':' :: r =>
      let (v, r) ← value? n (← skip r)
      match ← skip r with
      | '\x7d' :: r => return ([(k, v)], r)
      | ',' :: r =>
        match ← skip r with
        | '\x7d' :: r => return ([(k, v)], r)
        | r =>
          let (fs, r) ← fields? n r
          return ((k, v) :: fs, r)
      | _ => none
    | _ => none

end

/-- Reads a whole document. -/
def parse? (source : String) : Option Value := do
  let s ← skip source.toList
  let (v, r) ← value? (2 * s.length + 2) s
  let rest ← skip r
  if rest = [] then return v else none

end TextTemplate.Json5
