/-!
# Numbers on the Command Line

An argument that stands for a number consists of decimal digits behind an optional sign.
-/

namespace Vcs.CommandLine

/-- The number that some digits stand for, of which there must be one. -/
def ofDigits? (digits : List Char) : Option Nat :=
  if digits = [] ∨ ¬ digits.all Char.isDigit then none
  else some (Nat.ofDigitChars 10 digits 0)

/-- A natural number, which may have a plus sign. -/
def natural? (text : List Char) : Option Nat :=
  match text with
  | '+' :: digits => ofDigits? digits
  | digits => ofDigits? digits

/-- A natural number, or zero with a minus sign. -/
def naturalOrMinusZero? (text : List Char) : Option Nat :=
  match text with
  | '-' :: digits => (ofDigits? digits).filter (· = 0)
  | text => natural? text

/-- A number that must be below a bound. -/
def below? (bound : Nat) (number : Option Nat) : Option Nat :=
  number.filter (· < bound)

end Vcs.CommandLine
