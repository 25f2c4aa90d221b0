/-!
# Decimal numbers of one word

Numbers below `2 ^ 64`, written in ASCII digits with an optional plus sign in front.
-/

namespace TextTemplate.Text

/-- The largest number of one word. -/
def wordMax : Nat := 1 <<< 64 - 1

/-- The value of an ASCII digit. -/
def digit? (c : Char) : Option Nat :=
  if '0' ≤ c ∧ c ≤ '9' then some (c.toNat - 48) else none

/-- The value of a run of digits after the value `acc`; no other character may follow. -/
def digitsFrom? (acc : Nat) : List Char → Option Nat
  | [] => some acc
  | c :: cs => (digit? c).bind fun d => digitsFrom? (10 * acc + d) cs

/-- The value of a non-empty run of digits. -/
def digits? : List Char → Option Nat
  | [] => none
  | cs => digitsFrom? 0 cs

/-- Reads a number of one word. -/
def word? (s : List Char) : Option Nat :=
  let body := match s with
    | '+' :: r => r
    | _ => s
  (digits? body).filter (· ≤ wordMax)

end TextTemplate.Text
