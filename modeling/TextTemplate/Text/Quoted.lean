import TextTemplate.Unicode.Property

/-!
# Quoted texts

A quoted text stands between double quotes. Quotes and backslashes in it, characters that extend
the one before them and characters that do not print are escaped.
-/

namespace TextTemplate.Text

open Unicode

/-- Whether a character prints by itself. -/
def isPrintable (c : Char) : Bool :=
  if c.toNat < 128 then 32 ≤ c.toNat && c.toNat < 127
  else !Property.categories
    [.control, .format, .surrogate, .privateUse, .unassigned, .lineSeparator, .paragraphSeparator,
      .spaceSeparator] c

/-- A character as it stands in a quoted text. -/
def quoteChar (c : Char) : List Char :=
  match c with
  | '\x00' => ['\\', '0']
  | '\t' => ['\\', 't']
  | '\r' => ['\\', 'r']
  | '\n' => ['\\', 'n']
  | '\\' => ['\\', '\\']
  | '\"' => ['\\', '\"']
  | c =>
    if isPrintable c && !(128 ≤ c.toNat && Property.graphemeExtend c) then [c]
    else '\\' :: 'u' :: '\x7b' :: (Nat.toDigits 16 c.toNat ++ ['\x7d'])

/-- The quoted text. -/
def quote (s : String) : String :=
  String.ofList ('\"' :: (s.toList.flatMap quoteChar ++ ['\"']))

end TextTemplate.Text
