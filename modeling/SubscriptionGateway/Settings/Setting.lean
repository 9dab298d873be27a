import SubscriptionGateway.Json.Reader
import SubscriptionGateway.Number.Double
import SubscriptionGateway.Text.LetterCase

/-!
Settings before they are given a type: what a file or the environment says. Whoever writes them
need not know the types, so one kind of scalar stands for another where it can.
-/
namespace SubscriptionGateway

inductive Setting where
  | null
  | bool (value : Bool)
  | integer (value : Int)
  | double (value : Double)
  | text (value : String)
  | list (items : List Setting)
  | table (entries : List (String × Setting))

namespace Setting

instance : Inhabited Setting := ⟨.null⟩

abbrev Entries := List (String × Setting)

namespace Entries

def get? (es : Entries) (key : String) : Option Setting :=
  match es with
  | [] => none
  | (k, v) :: rest => if k = key then some v else get? rest key

def insert (es : Entries) (key : String) (value : Setting) : Entries :=
  match es with
  | [] => [(key, value)]
  | (k, v) :: rest => if k = key then (k, value) :: rest else (k, v) :: insert rest key value

end Entries

def yes : List String := ["true", "on", "yes"]

def no : List String := ["false", "off", "no"]

def wordBool? (s : String) : Option Bool :=
  let s := Text.lowered s
  if yes.contains s then some true else if no.contains s then some false else none

/-- Numbers other than nought are true, and so are the words for yes and the text `1`. -/
def asBool? : Setting → Option Bool
  | .bool b => some b
  | .integer i => some (i != 0)
  | .double x => some (!x.isZero)
  | .text "1" => some true
  | .text "0" => some false
  | .text s => wordBool? s
  | _ => none

/-- A word of 64 bits; doubles are rounded, and the words for yes and no are one and nought. -/
def asWord? : Setting → Option Nat
  | .bool b => some b.toNat
  | .integer i => if 0 ≤ i then some i.toNat else none
  | .double x => some x.word
  | .text s => ((wordBool? s).map Bool.toNat).or (Written.natBelow? (Nat.pow 2 64) s.toList)
  | _ => none

def ofWord (b : Bool) : Double := .finite ((Binary64.ofNat? b.toNat).getD Binary64.zero)

def asDouble? : Setting → Option Double
  | .bool b => some (ofWord b)
  | .integer i => (Binary64.ofInt? i).map Double.finite
  | .double x => some x
  | .text s => ((wordBool? s).map ofWord).or (Double.ofChars? s.toList)
  | _ => none

def asText? : Setting → Option String
  | .bool b => some (if b then "true" else "false")
  | .integer i => some (toString i)
  | .double x => some x.text
  | .text s => some s
  | _ => none

mutual

/-- As a value that is not looked into; a double that JSON cannot write is null there. A table
may stand for the value of a text, as objects may. -/
def json? : Setting → Option Json
  | .null => some .null
  | .bool b => some (.bool b)
  | .integer i => some (.ofInt i)
  | .double x => some ((x.finite?.map fun x => Json.number (.double x)).getD .null)
  | .text s => some (.string s)
  | .list xs => (jsonItems? xs).map .array
  | .table [(key, s)] =>
    if key = Form.textMark then s.asText?.bind Json.readText?
    else (json? s).map fun j => .object [(key, j)]
  | .table es => (jsonEntries? es).map .object

def jsonItems? : List Setting → Option (List Json)
  | [] => some []
  | x :: rest => do return (← json? x) :: (← jsonItems? rest)

def jsonEntries? : List (String × Setting) → Option Json.Members
  | [] => some []
  | (k, v) :: rest => do return (k, ← json? v) :: (← jsonEntries? rest)

end

mutual

def ofJson : Json → Setting
  | .null => .null
  | .bool b => .bool b
  | .number (.integer i _) => .integer i
  | .number (.double x) => .double (.finite x)
  | .string s => .text s
  | .array xs => .list (ofItems xs)
  | .object ms => .table (ofMembers ms)

def ofItems : List Json → List Setting
  | [] => []
  | x :: rest => ofJson x :: ofItems rest

def ofMembers : Json.Members → List (String × Setting)
  | [] => []
  | (k, v) :: rest => (k, ofJson v) :: ofMembers rest

end

end Setting

end SubscriptionGateway
