import MeetingCalendar.Text.Integer

/-!
# Shortest decimals

The shortest decimal that reads back as a given double-precision number, found in exact arithmetic.
A finite number is a fraction `m · 2^q`; the reals that round to it form an interval around it.  On
the grid of `n`-digit decimals the two neighbours of the number are tested for membership, for
`n = 1, 2, …`; the first grid with a hit gives the digits, the nearer hit wins, and of two equally
near ones the even one.

Two layouts turn the digits into text: `scientificChars` moves to an exponent for very large and
very small numbers, `positionalChars` never does.
-/

namespace MeetingCalendar.Decimal

/-- A positive fraction `num / den`. -/
structure Fraction where
  num : Nat
  den : Nat

/-- Digits `coefficient` with the point so placed that the value is
`coefficient · 10 ^ exponent`. -/
structure Digits where
  coefficient : Nat
  exponent : Int

/-- A finite double-precision magnitude `significand · 2 ^ exponent`; `boundary` says that the next
smaller number is only half as far away as the next larger one. -/
structure Binary where
  significand : Nat
  exponent : Int
  boundary : Bool

/-- The least 53-bit number, the significand of a power of two. -/
def leadingBit : Nat := 4503599627370496

def signBit : Nat := 9223372036854775808

def Binary.ofFloat (x : Float) : Binary :=
  let bits := x.toBits.toNat
  let fraction : Nat := bits % leadingBit
  let biased : Nat := bits / leadingBit % 2048
  if biased = 0 then ⟨fraction, -1074, false⟩
  else ⟨leadingBit + fraction, (biased : Int) - 1075, fraction == 0 && biased > 1⟩

def scaleByTwo (n : Nat) (e : Int) : Fraction :=
  ⟨n * Nat.pow 2 e.toNat, Nat.pow 2 (-e).toNat⟩

/-- The fraction divided by `10 ^ e`. -/
def Fraction.shiftTen (f : Fraction) (e : Int) : Fraction :=
  ⟨f.num * Nat.pow 10 (-e).toNat, f.den * Nat.pow 10 e.toNat⟩

/-- The number of decimal places in front of the point: the least `k` with `f < 10 ^ k`. -/
def Fraction.magnitude (f : Fraction) : Int :=
  if f.den ≤ f.num then ((Nat.toDigits 10 (f.num / f.den)).length : Int)
  else 1 - ((Nat.toDigits 10 ((f.den - 1) / f.num)).length : Int)

/-- Whether `a < b`, or `a ≤ b` when `closed`. -/
def Fraction.below (closed : Bool) (a b : Fraction) : Bool :=
  let x := a.num * b.den
  let y := b.num * a.den
  x < y || (closed && x == y)

/-- The better of the two `n`-digit neighbours of a number, if one of them reads back as it. -/
def neighbour? (b : Binary) (n : Nat) : Option Digits :=
  let quarters := 4 * b.significand
  let value := scaleByTwo quarters (b.exponent - 2)
  let lower := scaleByTwo (quarters - if b.boundary then 1 else 2) (b.exponent - 2)
  let upper := scaleByTwo (quarters + 2) (b.exponent - 2)
  let closed := b.significand % 2 == 0
  let e := value.magnitude - n
  let scaled := value.shiftTen e
  let floor := scaled.num / scaled.den
  let rest := scaled.num % scaled.den
  let low := Fraction.below closed (lower.shiftTen e) ⟨floor, 1⟩
  let high := rest != 0 && Fraction.below closed ⟨floor + 1, 1⟩ (upper.shiftTen e)
  let nearerLow := 2 * rest < scaled.den || (2 * rest == scaled.den && floor % 2 == 0)
  if low && (!high || nearerLow) then some ⟨floor, e⟩
  else if high then some ⟨floor + 1, e⟩
  else none

/-- The shortest digits of a positive finite number. -/
def shortest (x : Float) : Digits :=
  let b := Binary.ofFloat x
  ((List.range 17).findSome? fun i ↦ neighbour? b (i + 1)).getD ⟨b.significand, 0⟩

/-- Digits without zeros at their end, and the place of the point after the first of them:
`ds` and `p` stand for `0.ds · 10 ^ p`. -/
def Digits.normal (d : Digits) : List Char × Int :=
  let all := Nat.toDigits 10 d.coefficient
  let kept := (all.reverse.dropWhile (· == '0')).reverse
  (kept, (all.length : Int) + d.exponent)

/-- Digits with the point after the first `p` of them, filled up with zeros. -/
def positional (ds : List Char) (p : Int) : List Char × List Char :=
  if p ≤ 0 then (['0'], List.replicate (-p).toNat '0' ++ ds)
  else (ds.take p.toNat ++ List.replicate (p.toNat - ds.length) '0', ds.drop p.toNat)

def isNegative (x : Float) : Bool :=
  signBit ≤ x.toBits.toNat

def withSign (x : Float) (magnitude : List Char) : List Char :=
  if isNegative x then '-' :: magnitude else magnitude

/-- The text of a finite number: positional from `1e-5` up to below `1e16` and then always with a
decimal place, with a signed exponent outside. -/
def scientificChars (x : Float) : List Char :=
  withSign x <|
    if x == 0 then "0.0".toList
    else
      let (ds, p) := (shortest x.abs).normal
      if -5 < p && p ≤ 16 then
        let (whole, places) := positional ds p
        whole ++ '.' :: if places.isEmpty then ['0'] else places
      else
        let e := p - 1
        let mantissa := match ds with
          | [] => []
          | [d] => [d]
          | d :: rest => d :: '.' :: rest
        mantissa ++ 'e' :: (if e < 0 then '-' else '+') :: Nat.toDigits 10 e.natAbs

/-- The text of a number without an exponent and without needless decimal places. -/
def positionalChars (x : Float) : List Char :=
  if x.isNaN then "NaN".toList
  else withSign x <|
    if x.isInf then "inf".toList
    else if x == 0 then ['0']
    else
      let (ds, p) := (shortest x.abs).normal
      let (whole, places) := positional ds p
      if places.isEmpty then whole else whole ++ '.' :: places

end MeetingCalendar.Decimal
