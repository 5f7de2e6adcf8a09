/-!
# Whole numbers as text

Decimal text of whole numbers, written and read.  Reading takes ASCII digits only; a signed number
may start with one `+` or `-`, an unsigned one with one `+`.  Readers for a range refuse a number
outside it.
-/

namespace MeetingCalendar.Text

/-- The digits of a number, with zeros in front up to `width` characters. -/
def paddedDigits (width n : Nat) : List Char :=
  (Nat.toDigits 10 n).leftpad width '0'

/-- The decimal text of an integer, with `-` in front of a negative one. -/
def integerChars (n : Int) : List Char :=
  if n < 0 then '-' :: Nat.toDigits 10 n.natAbs else Nat.toDigits 10 n.natAbs

/-- Reads one or more ASCII digits and nothing else. -/
def readDigits? (cs : List Char) : Option Nat :=
  if cs.isEmpty || !cs.all Char.isDigit then none else some (Nat.ofDigitChars 10 cs 0)

/-- Reads digits with at most one `+` in front. -/
def readUnsigned? : List Char → Option Nat
  | '+' :: cs => readDigits? cs
  | cs => readDigits? cs

/-- Reads digits with at most one sign in front. -/
def readSigned? : List Char → Option Int
  | '-' :: cs => (readDigits? cs).map fun n ↦ -(n : Int)
  | cs => (readUnsigned? cs).map Int.ofNat

def readUnsignedUpTo? (max : Nat) (cs : List Char) : Option Nat :=
  (readUnsigned? cs).filter (· ≤ max)

def readSignedWithin? (min max : Int) (cs : List Char) : Option Int :=
  (readSigned? cs).filter fun n ↦ min ≤ n && n ≤ max

def minInt16 : Int := -32768

def maxInt16 : Int := 32767

def maxNat16 : Nat := 65535

def minInt32 : Int := -2147483648

def maxInt32 : Int := 2147483647

def maxNat32 : Nat := 4294967295

def minInt64 : Int := -9223372036854775808

def maxInt64 : Int := 9223372036854775807

def maxNat64 : Nat := 18446744073709551615

def readInt64? (cs : List Char) : Option Int :=
  readSignedWithin? minInt64 maxInt64 cs

end MeetingCalendar.Text
