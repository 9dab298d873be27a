import SubscriptionGateway.Json.Basic

/-!
Records in JSON: an object whose members are the fields by name, or a list of the fields in their
order. Members that name no field are passed over. A null is an absent value where a field may be
absent.
-/
namespace SubscriptionGateway

inductive Record where
  | named (members : Json.Members)
  | listed (items : List Json)

namespace Record

def ofJson? (fields : Nat) : Json → Option Record
  | .object ms => some (.named ms)
  | .array items => if items.length ≤ fields then some (.listed items) else none
  | _ => none

def get? (r : Record) (place : Nat) (name : String) : Option Json :=
  match r with
  | .named ms => ms.get? name
  | .listed items => items[place]?

def required (r : Record) (place : Nat) (name : String) (read : Json → Option α) : Option α :=
  (r.get? place name).bind read

def withDefault (r : Record) (place : Nat) (name : String) (default : α)
    (read : Json → Option α) : Option α :=
  match r.get? place name with
  | none => some default
  | some j => read j

def nullable (read : Json → Option α) : Json → Option (Option α)
  | .null => some none
  | j => (read j).map some

/-- An absent field is a null one; a list may end before it. -/
def optional (r : Record) (place : Nat) (name : String) (read : Json → Option α) :
    Option (Option α) :=
  r.withDefault place name none (nullable read)

end Record

namespace Json

def asBool? : Json → Option Bool
  | .bool b => some b
  | _ => none

def asInt? : Json → Option Int
  | .number (.integer i _) => some i
  | _ => none

def asNatBelow? (bound : Nat) (j : Json) : Option Nat :=
  j.asInt?.bind fun i => if 0 ≤ i ∧ i < bound then some i.toNat else none

def asWord? : Json → Option Nat := asNatBelow? (Nat.pow 2 64)

def asList? (read : Json → Option α) : Json → Option (List α)
  | .array items => items.mapM read
  | _ => none

def any? : Json → Option Json := some

end Json

end SubscriptionGateway
