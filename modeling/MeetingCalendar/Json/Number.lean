import MeetingCalendar.Json.Basic

/-!
# Reading JSON numbers

A number without fraction and exponent that fits 64 bits is an integer.  Any other number is read in
double precision: its digits are collected in a 64-bit significand, digits that no longer fit only
move the point, and the significand is then scaled by a power of ten in one rounding step.  The
integer `-0` is the negative zero.
-/

namespace MeetingCalendar.Json

/-- The digits of a number collected so far, as `significand · 10 ^ exponent`. -/
structure Significand where
  value : Nat
  exponent : Int
  full : Bool

namespace Significand

/-- Whether one more digit still fits 64 bits. -/
def fits (value digit : Nat) : Bool :=
  10 * value + digit ≤ Text.maxNat64

/-- Takes a digit in front of the point; one that no longer fits raises the exponent. -/
def pushWhole (s : Significand) (digit : Nat) : Significand :=
  if !s.full && fits s.value digit then { s with value := 10 * s.value + digit }
  else { s with exponent := s.exponent + 1, full := true }

/-- Takes a digit behind the point.  The first one that does not fit ends the collecting. -/
def pushPlace (s : Significand) (digit : Nat) : Significand :=
  if !s.full && fits s.value digit then
    { s with value := 10 * s.value + digit, exponent := s.exponent - 1 }
  else { s with full := true }

end Significand

def digitValue (c : Char) : Nat :=
  c.toNat - '0'.toNat

def powerOfTen (n : Nat) : Float :=
  Float.ofScientific 1 false n

/-- Multiplies a number by `10 ^ exponent`, dividing by `10 ^ 308` as often as the exponent lies
below `-308`; `none` when the result is too large. -/
def scale? (x : Float) (exponent : Int) : Option Float :=
  if 0 ≤ exponent then
    if exponent ≤ 308 then
      let y := x * powerOfTen exponent.toNat
      if y.isInf then none else some y
    else if x == 0 then some x else none
  else
    let n := exponent.natAbs
    -- three divisions reach zero from any 64-bit significand
    let steps := min (n / 308) 3
    let reduced := (List.replicate steps (powerOfTen 308)).foldl (· / ·) x
    if n / 308 ≤ 3 then some (reduced / powerOfTen (n % 308)) else some reduced

def float? (negative : Bool) (s : Significand) (exponent : Int) : Option Json :=
  (scale? (Float.ofNat s.value) (s.exponent + exponent)).map fun x ↦
    .float (if negative then -x else x)

/-- The value of a number without fraction and exponent. -/
def whole? (negative : Bool) (s : Significand) : Option Json :=
  if s.full then float? negative s 0
  else if !negative then some (.integer s.value)
  else if s.value == 0 || -(s.value : Int) < Text.minInt64 then float? negative s 0
  else some (.integer (-(s.value : Int)))

/-- The greatest exponent that is read; a larger one gives zero or is refused. -/
def maxExponent : Nat := 2147483647

def withExponent? (negative : Bool) (s : Significand) (down : Bool) (digits : List Char) :
    Option Json :=
  let e := Nat.ofDigitChars 10 digits 0
  if e ≤ maxExponent then float? negative s (if down then -(e : Int) else e)
  else if s.value != 0 && !down then none
  else some (.float (if negative then -0.0 else 0.0))

/-- Reads the exponent part at the front of the characters, if there is one, and gives the number
and the rest. -/
def readExponent? (negative : Bool) (s : Significand) (places : Bool) (cs : List Char) :
    Option (Json × List Char) :=
  match cs with
  | c :: rest =>
    if c == 'e' || c == 'E' then
      let (down, rest) := match rest with
        | '+' :: r => (false, r)
        | '-' :: r => (true, r)
        | r => (false, r)
      let digits := rest.takeWhile Char.isDigit
      if digits.isEmpty then none
      else (withExponent? negative s down digits).map (·, rest.dropWhile Char.isDigit)
    else if places then (float? negative s 0).map (·, cs)
    else (whole? negative s).map (·, cs)
  | [] =>
    if places then (float? negative s 0).map (·, [])
    else (whole? negative s).map (·, [])

/-- Reads the number at the front of the characters, behind its sign. -/
def readMagnitude? (negative : Bool) (cs : List Char) : Option (Json × List Char) :=
  let digits := cs.takeWhile Char.isDigit
  let rest := cs.dropWhile Char.isDigit
  if digits.isEmpty || (digits.head? == some '0' && digits.length != 1) then none
  else
    let s := (digits.map digitValue).foldl Significand.pushWhole ⟨0, 0, false⟩
    match rest with
    | '.' :: rest =>
      let places := rest.takeWhile Char.isDigit
      if places.isEmpty then none
      else
        let s := (places.map digitValue).foldl Significand.pushPlace { s with full := false }
        readExponent? negative s true (rest.dropWhile Char.isDigit)
    | rest => readExponent? negative s false rest

def readNumber? : List Char → Option (Json × List Char)
  | '-' :: cs => readMagnitude? true cs
  | cs => readMagnitude? false cs

end MeetingCalendar.Json
