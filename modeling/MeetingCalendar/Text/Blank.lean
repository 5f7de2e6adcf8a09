/-!
# Blank text

Which characters count as blank, and how blank ends are trimmed from a text.  A character is blank
when it has the Unicode property `White_Space`; the zero-width space U+200B, for instance, has not.
-/

namespace MeetingCalendar.Text

/-- The twenty-five characters with the Unicode property `White_Space`. -/
def isBlankChar (c : Char) : Bool :=
  let n := c.toNat
  (9 ≤ n && n ≤ 13) || n == 0x20 || n == 0x85 || n == 0xA0 || n == 0x1680 ||
    (0x2000 ≤ n && n ≤ 0x200A) || n == 0x2028 || n == 0x2029 || n == 0x202F || n == 0x205F ||
    n == 0x3000

def trimStart (cs : List Char) : List Char :=
  cs.dropWhile isBlankChar

def trimChars (cs : List Char) : List Char :=
  (trimStart (trimStart cs).reverse).reverse

def trim (s : String) : String :=
  String.ofList (trimChars s.toList)

/-- A text is blank when all its characters are; the empty text is blank. -/
def isBlank (s : String) : Bool :=
  s.toList.all isBlankChar

end MeetingCalendar.Text
