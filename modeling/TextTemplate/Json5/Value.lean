/-!
# Values of JSON5 documents

A `Value` is what a document writes. Not all that can be written can be read: a number may be too
large, and a string may hold half of a surrogate pair. `Value.readable` tells.
-/

namespace TextTemplate.Json5

/-- A number as written. -/
inductive Number where
  /-- Decimal digits, perhaps after a minus sign. -/
  | integer (negative : Bool) (n : Nat)
  /-- Hexadecimal digits, perhaps after a sign. -/
  | hexadecimal (signed : Bool) (n : Nat)
  /-- The number `mantissa * 10 ^ exponent`, written with a point or an exponent. -/
  | decimal (mantissa : Nat) (exponent : Int)
  /-- Infinity or no number, perhaps after a plus sign. -/
  | special (plus : Bool)
deriving DecidableEq, Repr

/-- The smallest number that is too large for a double. -/
def doubleOverflow : Nat := 1 <<< 1024 - 1 <<< 970

/-- Whether `mantissa * 10 ^ exponent` is small enough for a double. A number with more than 309
digits before the point is too large, and one with fewer is not. -/
def isFinite (mantissa : Nat) (exponent : Int) : Bool :=
  let digits : Int := (toString mantissa).length
  if mantissa == 0 || digits + exponent < 309 then true
  else if 309 < digits + exponent then false
  else if 0 ≤ exponent then mantissa * Nat.pow 10 exponent.toNat < doubleOverflow
  else mantissa < doubleOverflow * Nat.pow 10 (-exponent).toNat

namespace Number

/-- Whether the number fits: decimal integers a word with sign, hexadecimal ones half a word without
a sign, and other numbers a double. -/
def readable : Number → Bool
  | integer true n => n ≤ 1 <<< 63
  | integer false n => n < 1 <<< 63
  | hexadecimal signed n => !signed && n < 1 <<< 32
  | decimal mantissa exponent => isFinite mantissa exponent
  | special plus => !plus

end Number

/-- A text as written, or nothing if half of a surrogate pair stands alone in it. -/
abbrev Chars := Option String

/-- What a document writes. -/
inductive Value where
  | null
  | bool (b : Bool)
  | number (n : Number)
  | string (s : Chars)
  | array (items : List Value)
  /-- Fields in the order in which they are written; keys may occur again. -/
  | object (fields : List (Chars × Value))

namespace Value

mutual

/-- Whether all numbers and strings in the value can be read. -/
def readable : Value → Bool
  | null | bool _ => true
  | number n => n.readable
  | string s => s.isSome
  | array vs => allReadable vs
  | object fs => fieldsReadable fs

/-- Whether all values can be read. -/
def allReadable : List Value → Bool
  | [] => true
  | v :: vs => v.readable && allReadable vs

/-- Whether all keys and values can be read. -/
def fieldsReadable : List (Chars × Value) → Bool
  | [] => true
  | (k, v) :: fs => k.isSome && v.readable && fieldsReadable fs

end

end Value

end TextTemplate.Json5
