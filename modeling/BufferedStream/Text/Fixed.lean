/-!
# Numbers with a fixed count of decimal places

A double is a dyadic rational, so its value to a given number of places is found by exact integer
arithmetic; a tie goes to the even neighbour.
-/

namespace BufferedStream.Text.Fixed

/-- A quotient rounded to the nearest integer, ties to even. -/
def roundDiv (num den : Nat) : Nat :=
  let q := num / den
  let r := num % den
  if 2 * r < den then q
  else if den < 2 * r then q + 1
  else q + q % 2

/-- A count of units in the last of `places` places, as decimal text. -/
def ofUnits (places units : Nat) : String :=
  let unit := Nat.pow 10 places
  let whole := toString (units / unit)
  if places = 0 then whole
  else
    let digits := Nat.toDigits 10 (units % unit)
    whole ++ "." ++ String.ofList (List.replicate (places - digits.length) '0' ++ digits)

/-- The mantissa of a double has 52 stored bits, so this is the weight of the bit not stored. -/
def hiddenBit : Nat := 0x10000000000000

/-- The exponent field at which the mantissa counts units. -/
def unitExponent : Nat := 1075

/-- A finite non-negative double as a fraction. -/
def fraction (x : Float) : Nat × Nat :=
  let bits := x.toBits.toNat
  let exponent := bits / hiddenBit % 2048
  let mantissa := bits % hiddenBit
  let scaled := if exponent = 0 then mantissa else mantissa + hiddenBit
  let shift := if exponent = 0 then 1 else exponent
  if unitExponent ≤ shift then (scaled * Nat.pow 2 (shift - unitExponent), 1)
  else (scaled, Nat.pow 2 (unitExponent - shift))

/-- A finite non-negative double to `places` decimal places. -/
def format (places : Nat) (x : Float) : String :=
  let (num, den) := fraction x
  ofUnits places (roundDiv (num * Nat.pow 10 places) den)

end BufferedStream.Text.Fixed
