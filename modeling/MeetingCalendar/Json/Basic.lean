import MeetingCalendar.Text.Integer

/-!
# JSON values

A JSON value keeps whole numbers of 64 bits exact and holds any other number in double precision.
The fields of an object stand in the order of their names, by code point, and each name occurs
once.
-/

namespace MeetingCalendar

inductive Json where
  | null
  | bool (value : Bool)
  | integer (value : Int)
  | float (value : Float)
  | text (value : String)
  | array (items : List Json)
  | object (fields : List (String × Json))
  deriving Inhabited

namespace Json

/-- Sets a field among fields in name order; a value that was there is replaced. -/
def setField (name : String) (value : Json) : List (String × Json) → List (String × Json)
  | [] => [(name, value)]
  | (other, old) :: rest =>
    if name < other then (name, value) :: (other, old) :: rest
    else if name = other then (name, value) :: rest
    else (other, old) :: setField name value rest

/-- The fields in name order; of several with one name the last counts. -/
def sortFields (fields : List (String × Json)) : List (String × Json) :=
  fields.foldl (fun sorted field ↦ setField field.1 field.2 sorted) []

def ofFields (fields : List (String × Json)) : Json :=
  object (sortFields fields)

def field? (name : String) : Json → Option Json
  | object fields => fields.lookup name
  | _ => none

def orNull : Option Json → Json :=
  (·.getD null)

/-- The integer, when it is a signed 64-bit number. -/
def int64? : Json → Option Int
  | integer n => if Text.minInt64 ≤ n && n ≤ Text.maxInt64 then some n else none
  | _ => none

def nat64? : Json → Option Nat
  | integer n => if 0 ≤ n && n ≤ Text.maxNat64 then some n.toNat else none
  | _ => none

def text? : Json → Option String
  | text s => some s
  | _ => none

/-- The name by which a value chooses one of several alternatives: a text, or an object that maps
the name to `null`. -/
def choice? : Json → Option String
  | text s => some s
  | object [(name, null)] => some name
  | _ => none

end Json

end MeetingCalendar
