/-!
# Date and time patterns

A pattern such as `dd MMMM yyyy` or `HH:mm` says how dates and times are written.  A run of one
ASCII letter is a field, told apart by the letter and the length of the run; any other character
stands for itself.  Text between single quotes stands for itself too, and two quotes in a row
outside quoted text stand for one quote.

`lexemes` cuts a pattern into runs and single characters, `tokensOf` gives each run its field and
fails at the first run that has none.  `formatText` writes the tokens with percent signs, as in
`%d %B %Y`.
-/

namespace MeetingCalendar

namespace Pattern

inductive Field where
  | year
  | yearOfCentury
  | month
  | monthShort
  | monthLong
  | day
  | hour
  | hourOfHalf
  | minute
  | second
  | half
  | weekdayShort
  | weekdayLong
  deriving DecidableEq, Repr

/-- The field that a run of a letter names. -/
def Field.ofRun? (letter : Char) (length : Nat) : Option Field :=
  if letter = 'y' then some (if length = 2 then yearOfCentury else year)
  else if letter = 'M' then
    some (if length ≤ 2 then month else if length = 3 then monthShort else monthLong)
  else if letter = 'd' then some day
  else if letter = 'H' then some hour
  else if letter = 'h' then some hourOfHalf
  else if letter = 'm' then some minute
  else if letter = 's' then some second
  else if letter = 'a' then some half
  else if letter = 'E' then some (if length ≤ 3 then weekdayShort else weekdayLong)
  else none

/-- The letter of a field behind a percent sign. -/
def Field.letter : Field → Char
  | year => 'Y'
  | yearOfCentury => 'y'
  | month => 'm'
  | monthShort => 'b'
  | monthLong => 'B'
  | day => 'd'
  | hour => 'H'
  | hourOfHalf => 'I'
  | minute => 'M'
  | second => 'S'
  | half => 'p'
  | weekdayShort => 'a'
  | weekdayLong => 'A'

/-- A piece of a pattern before fields are known. -/
inductive Lexeme where
  | run (letter : Char) (length : Nat)
  | literal (c : Char)
  deriving DecidableEq, Repr

inductive Token where
  | field (field : Field)
  | literal (c : Char)
  deriving DecidableEq, Repr

/-- Cuts a pattern into runs and single characters; `quoted` says that it starts inside quoted
text.  Quoted text ends at the next quote or at the end of the pattern. -/
def lexemesFrom (quoted : Bool) (cs : List Char) : List Lexeme :=
  match cs with
  | [] => []
  | c :: rest =>
    if quoted then
      if c = '\'' then lexemesFrom false rest
      else .literal c :: lexemesFrom true rest
    else if c = '\'' then
      match rest with
      | '\'' :: rest => .literal '\'' :: lexemesFrom false rest
      | rest => lexemesFrom true rest
    else if c.isAlpha then
      .run c ((rest.takeWhile (· = c)).length + 1) :: lexemesFrom false (rest.dropWhile (· = c))
    else .literal c :: lexemesFrom false rest
termination_by cs.length
decreasing_by
  all_goals grind [List.dropWhile_suffix, List.IsSuffix.length_le]

def lexemes (cs : List Char) : List Lexeme :=
  lexemesFrom false cs

/-- The token of a lexeme; a run without a field is the error. -/
def Token.ofLexeme : Lexeme → Except (List Char) Token
  | .literal c => .ok (.literal c)
  | .run letter length =>
    match Field.ofRun? letter length with
    | some f => .ok (.field f)
    | none => .error (List.replicate length letter)

/-- The tokens of a pattern, or the first run of letters that names no field. -/
def tokensOf (cs : List Char) : Except (List Char) (List Token) :=
  (lexemes cs).mapM Token.ofLexeme

def Token.formatChars : Token → List Char
  | field f => ['%', f.letter]
  | literal c => if c = '%' then ['%', '%'] else [c]

/-- The format text of tokens: fields with a percent sign, a percent sign itself doubled. -/
def formatChars (tokens : List Token) : List Char :=
  tokens.flatMap Token.formatChars

def formatText (pattern : String) : Except String String :=
  match tokensOf pattern.toList with
  | .ok tokens => .ok (String.ofList (formatChars tokens))
  | .error run => .error (String.ofList run)

end Pattern

/-- A pattern that names known fields only, with its tokens. -/
structure Pattern where
  text : String
  tokens : List Pattern.Token
  tokens_eq : Pattern.tokensOf text.toList = .ok tokens

def Pattern.ofText (text : String) : Except String Pattern :=
  match h : Pattern.tokensOf text.toList with
  | .ok tokens => .ok ⟨text, tokens, h⟩
  | .error run => .error (String.ofList run)

end MeetingCalendar
