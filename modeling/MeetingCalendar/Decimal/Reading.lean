import MeetingCalendar.Text.Integer

/-!
# Reading decimals

Reads the text of a number in double precision: digits with an optional sign, point and exponent,
or the name of an infinity or of no number at all, in any case.  The nearest number is taken.
-/

namespace MeetingCalendar.Decimal

/-- The nearest number to `coefficient · 10 ^ exponent`.  Beyond the range of double precision it is
zero or infinite, which the number of digits tells before any power is computed. -/
def nearest (coefficient : Nat) (exponent : Int) : Float :=
  let magnitude := ((Nat.toDigits 10 coefficient).length : Int) + exponent
  if coefficient = 0 || magnitude < -400 then 0.0
  else if 400 < magnitude then 1.0 / 0.0
  else if exponent < 0 then Float.ofScientific coefficient true exponent.natAbs
  else Float.ofScientific coefficient false exponent.natAbs

def readExponent? : List Char → Option Int
  | [] => some 0
  | e :: cs => if e == 'e' || e == 'E' then Text.readSigned? cs else none

/-- Reads a number without sign. -/
def readMagnitude? (cs : List Char) : Option Float :=
  match String.ofList (cs.map Char.toLower) with
  | "inf" => some (1.0 / 0.0)
  | "infinity" => some (1.0 / 0.0)
  | "nan" => some (0.0 / 0.0)
  | _ =>
    let whole := cs.takeWhile Char.isDigit
    let (places, rest) := match cs.dropWhile Char.isDigit with
      | '.' :: rest => (rest.takeWhile Char.isDigit, rest.dropWhile Char.isDigit)
      | rest => ([], rest)
    if whole.isEmpty && places.isEmpty then none
    else (readExponent? rest).map fun e ↦
      nearest (Nat.ofDigitChars 10 (whole ++ places) 0) (e - places.length)

def read? : List Char → Option Float
  | '-' :: cs => (readMagnitude? cs).map (-·)
  | '+' :: cs => readMagnitude? cs
  | cs => readMagnitude? cs

end MeetingCalendar.Decimal
