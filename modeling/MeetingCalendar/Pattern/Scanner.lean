import MeetingCalendar.Pattern.Basic

/-!
# Writing a format text in one pass

A scanner goes through the characters of a pattern by position and writes the format text of what is
behind it.  A round looks at the character in front of the scanner.  Two quotes in a row are written
as one; a quote on its own opens quoted text, which is copied up to the next quote or to the end.  A
run of a letter is written as its field, and any other character is copied.

The rounds end when there is no character in front or when a run names no field.  That they end cannot
be seen from a single round, so a scan is told how many rounds it may take.
-/

namespace MeetingCalendar.Pattern

/-- A place in a pattern, and what has been written on the way to it. -/
structure Scanner where
  position : Nat
  written : List Char

namespace Scanner

def start : Scanner where
  position := 0
  written := []

/-- The scanner behind `count` more characters, for which a text was written. -/
def past (s : Scanner) (count : Nat) (text : List Char) : Scanner where
  position := s.position + count
  written := s.written ++ text

/-- One round, if there is a character in front; a run without a field is the error. -/
def round? (cs : List Char) (s : Scanner) : Option (Except (List Char) Scanner) :=
  match cs.drop s.position with
  | [] => none
  | c :: rest =>
    if c = '\'' then
      if rest.head? = some '\'' then some (.ok (s.past 2 ['\'']))
      else
        -- a closing quote that is missing is passed as if it were there
        let text := rest.takeWhile (· ≠ '\'')
        some (.ok (s.past (text.length + 2) (formatChars (text.map .literal))))
    else if c.isAlpha then
      let run := (c :: rest).takeWhile (· = c)
      match Field.ofRun? c run.length with
      | some field => some (.ok (s.past run.length ['%', field.letter]))
      | none => some (.error run)
    else some (.ok (s.past 1 (Token.formatChars (.literal c))))

/-- What the rounds from a scanner on write in the end, if they end with at most so many of them. -/
def scan? (cs : List Char) : (rounds : Nat) → Scanner → Option (Except (List Char) (List Char))
  | 0, s => if s.position < cs.length then none else some (.ok s.written)
  | rounds + 1, s =>
    match s.round? cs with
    | none => some (.ok s.written)
    | some (.error run) => some (.error run)
    | some (.ok next) => scan? cs rounds next

/-- The format text of a pattern, if at most so many rounds give it. -/
def formatText? (rounds : Nat) (pattern : String) : Option (Except String String) :=
  (scan? pattern.toList rounds start).map fun result ↦
    (result.map String.ofList).mapError String.ofList

end Scanner

end MeetingCalendar.Pattern
