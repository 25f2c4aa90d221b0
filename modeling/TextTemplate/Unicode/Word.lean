import TextTemplate.Unicode.Property

/-!
# Word characters

The characters of words: letters and what counts as letters, marks, decimal digits, the characters
that connect words, and the two joiners.
-/

namespace TextTemplate.Unicode

/-- Whether an ASCII character is a letter, a digit or the underscore. -/
def isAsciiWord (c : Char) : Bool := c.isAlphanum || c == '_'

/-- Whether a character belongs to a word. -/
def isWord (c : Char) : Bool :=
  if c.toNat < 128 then isAsciiWord c
  else Property.alphabetic c
    || Property.categories
      (.decimalNumber :: .connectorPunctuation :: GeneralCategory.combining) c
    || Property.tabled Property.joinControl c

/-- Whether a character is a decimal digit. -/
def isDecimal (c : Char) : Bool :=
  if c.toNat < 128 then c.isDigit else GeneralCategory.of c == .decimalNumber

/-- Whether a character is a letter or counts as one. -/
def isLetter (c : Char) : Bool :=
  if c.toNat < 128 then c.isAlpha else Property.alphabetic c

/-- Whether a character is a letter, counts as one, or is a number. -/
def isLetterOrNumber (c : Char) : Bool :=
  if c.toNat < 128 then c.isAlphanum
  else Property.alphabetic c
    || Property.categories [.decimalNumber, .letterNumber, .otherNumber] c

end TextTemplate.Unicode
