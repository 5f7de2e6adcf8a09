import MeetingCalendar.Json.Basic

/-!
# Paths into JSON

A path names a place in a JSON value: a field, and behind it further fields, each after a full stop,
and array elements, each in brackets, as in `table.rows[0].title`.  Writing at a path makes what the
path needs on its way: an object for a field, an array for an element, and `null` for elements that
the array does not have yet.  A negative number counts from the end of the array.
-/

namespace MeetingCalendar

inductive PathStep where
  | field (name : String)
  | element (index : Int)
  deriving DecidableEq, Repr

namespace PathStep

def isNameChar (c : Char) : Bool :=
  c.isAlphanum || c == '_' || c == '-'

/-- Whether a character may surround a number in brackets. -/
def isGap (c : Char) : Bool :=
  c == ' ' || c == '\t'

/-- Reads what stands behind an opening bracket. -/
def readElement? (cs : List Char) : Option PathStep :=
  let inner := ((cs.dropLast.dropWhile isGap).reverse.dropWhile isGap).reverse
  if cs.getLast? ≠ some ']' || inner.head? = some '+' then none
  else (Text.readInt64? inner).map element

def readField? (cs : List Char) : Option (List PathStep) :=
  match cs.splitOn '[' with
  | name :: elements =>
    if name.isEmpty || !name.all isNameChar then none
    else (elements.mapM readElement?).map (field (String.ofList name) :: ·)
  | [] => none

def readPath? (cs : List Char) : Option (List PathStep) :=
  ((cs.splitOn '.').mapM readField?).map List.flatten

end PathStep

namespace Json

/-- An array's items with `null` added so that the index is among them, and the position of the
index. -/
def reach (index : Int) (items : List Json) : List Json × Nat :=
  if 0 ≤ index then
    (items ++ List.replicate (index.toNat + 1 - items.length) null, index.toNat)
  else
    (List.replicate (index.natAbs - items.length) null ++ items, items.length - index.natAbs)

def update (change : Option Json → Json) : List PathStep → Option Json → Json
  | [], below => change below
  | .field name :: path, below =>
    let fields := match below with
      | some (object fields) => fields
      | _ => []
    object (setField name (update change path (fields.lookup name)) fields)
  | .element index :: path, below =>
    let items := match below with
      | some (array items) => items
      | _ => []
    let (items, position) := reach index items
    array (items.set position (update change path items[position]?))

end Json

end MeetingCalendar
