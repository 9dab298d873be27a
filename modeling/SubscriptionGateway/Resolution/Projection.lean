import SubscriptionGateway.Event.Field
import SubscriptionGateway.Fault
import SubscriptionGateway.GraphQL.Selection

/-!
What a selection shows of an object. Fields are read by their names and written under their keys;
null is refused at the paths where the field configuration says so, but a null item of a list
stays.
-/
namespace SubscriptionGateway

namespace Projection

inductive Step where
  | key (name : String)
  | index (n : Nat)
  deriving DecidableEq

def Step.json : Step → Json
  | .key name => .string name
  | .index n => .ofNat n

/-- Where a value stands: by field names below the entity, and in the response below the root. -/
structure Place where
  names : List String
  steps : List Step
  deriving DecidableEq

namespace Place

def root : Place := ⟨[], []⟩

def field (p : Place) (s : Selection) : Place := ⟨p.names ++ [s.field], p.steps ++ [.key s.key]⟩

def item (p : Place) (n : Nat) : Place := { p with steps := p.steps ++ [.index n] }

end Place

inductive Error where
  | nullNotAllowed (place : Place)
  | objectAsScalar (place : Place)
  | scalarAsObject (place : Place) (kind : String)
  deriving DecidableEq

def Error.fault (root : Selection) : Error → Fault
  | .nullNotAllowed p =>
    .resolution
      s!"Cannot return null for non-nullable field 'Subscription.{root.field}.{EventField.dotted p.names}'."
      (.string root.key :: p.steps.map Step.json)
  | .objectAsScalar p =>
    .decode s!"field '{EventField.dotted p.names}' is an object but was selected as a scalar"
  | .scalarAsObject p kind =>
    .decode s!"field '{EventField.dotted p.names}' expected an object, got {kind}"

mutual

/-- A value at a place, with the meaning of an object given; `isLeaf` when nothing is selected
below it. -/
def value (f : EventField) (isLeaf : Bool)
    (object : Place → Json.Members → Except Error Json) (p : Place) :
    Json → Except Error Json
  | .null => if f.isNonNull p.names then .error (.nullNotAllowed p) else .ok .null
  | .array js => (items f isLeaf object p 0 js).map .array
  | .object ms => if isLeaf then .error (.objectAsScalar p) else object p ms
  | .bool b => if isLeaf then .ok (.bool b) else .error (.scalarAsObject p (Json.bool b).kind)
  | .number n =>
    if isLeaf then .ok (.number n) else .error (.scalarAsObject p (Json.number n).kind)
  | .string s =>
    if isLeaf then .ok (.string s) else .error (.scalarAsObject p (Json.string s).kind)

def items (f : EventField) (isLeaf : Bool)
    (object : Place → Json.Members → Except Error Json) (p : Place) :
    Nat → List Json → Except Error (List Json)
  | _, [] => .ok []
  | n, j :: js =>
    match if j.isNull then .ok .null else value f isLeaf object (p.item n) j with
    | .error e => .error e
    | .ok v =>
      match items f isLeaf object p (n + 1) js with
      | .error e => .error e
      | .ok vs => .ok (v :: vs)

end

mutual

def member (f : EventField) (isRoot : Bool) (p : Place) (source : Json.Members) :
    Selection → Except Error Json
  | ⟨key, name, selections⟩ =>
    if name = "__typename" then
      .ok (if isRoot then .string f.typeName else (source.get? "__typename").getD .null)
    else
      value f selections.isEmpty
        (fun p ms => (set f false p ms selections).map fun ms => .object (Json.Members.ofList ms))
        (p.field ⟨key, name, selections⟩) ((source.get? name).getD .null)

/-- Members in the order of the selections, up to the first error. -/
def set (f : EventField) (isRoot : Bool) (p : Place) (source : Json.Members) :
    List Selection → Except Error (List (String × Json))
  | [] => .ok []
  | ⟨key, name, selections⟩ :: rest =>
    match member f isRoot p source ⟨key, name, selections⟩ with
    | .error e => .error e
    | .ok v =>
      match set f isRoot p source rest with
      | .error e => .error e
      | .ok more => .ok ((key, v) :: more)

end

def root (f : EventField) (source : Json.Members) (selections : List Selection) :
    Except Error Json.Members :=
  (set f true Place.root source selections).map Json.Members.ofList

end Projection

end SubscriptionGateway
