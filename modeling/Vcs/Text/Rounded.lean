/-!
# Fixed Decimals

A nonnegative binary64 number written with a fixed count of decimals.  The text is that of the exact
binary value: it is multiplied out over the integers and rounded once, to the nearest last place, and
a tie goes to the even digit.
-/

namespace Vcs.Text.Rounded

/-- The quotient rounded to the nearest integer; a tie goes to the even one. -/
def quotient (num den : Nat) : Nat :=
  let floor := num / den
  let twice := 2 * (num % den)
  if twice < den then floor
  else if den < twice then floor + 1
  else if floor % 2 = 0 then floor
  else floor + 1

/-- Significand and exponent of two of a finite nonnegative number. -/
def parts (value : Float) : Nat × Int :=
  let bits : Nat := value.toBits.toNat
  let fraction : Nat := bits % (1 <<< 52)
  let exponent : Nat := (bits >>> 52) % (1 <<< 11)
  if exponent = 0 then (fraction, -1074)
  else (fraction + (1 <<< 52), (exponent : Int) - 1075)

/-- The number in units of the last of `places` decimals. -/
def scaled (places : Nat) (value : Float) : Nat :=
  let (significand, exponent) := parts value
  let grown := significand * Nat.pow 10 places
  match exponent with
  | .ofNat e => grown <<< e
  | .negSucc e => quotient grown (1 <<< (e + 1))

/-- Digits before the point, a point and `places` digits after it. -/
def decimals (places : Nat) (value : Float) : String :=
  let units := scaled places value
  let whole := toString (units / Nat.pow 10 places)
  let digits := toString (units % Nat.pow 10 places)
  whole ++ "." ++ "".pushn '0' (places - digits.length) ++ digits

end Vcs.Text.Rounded
