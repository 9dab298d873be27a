import SubscriptionGateway.Entity.Source
import SubscriptionGateway.Resolution.Projection
import SubscriptionGateway.Subscription.Catalog

/-!
One event for one subscription. `start` decodes the payload and says which entity, if any, is
wanted to complete it; `finish` shows what was selected. Between the two at most one fetch is
made.
-/
namespace SubscriptionGateway

namespace Resolution

def decode (payload : List UInt8) : Except Fault Json.Members :=
  match Json.readBytes? payload with
  | some (.object ms) => .ok ms
  | some j => .error (.decode s!"expected a JSON object, got {j.kind}")
  | none => .error (.decode "invalid JSON payload")

/-- The type name may be absent or null, and is else the one of the field's type. -/
def checkType (f : EventField) (object : Json.Members) : Except Fault Unit :=
  match object.get? "__typename" with
  | none | some .null => .ok ()
  | some (.string name) =>
    if name = f.typeName then .ok ()
    else .error
      (.decode s!"payload __typename {(Json.string name).text} does not match {f.typeName}")
  | some j => .error (.decode s!"payload __typename {j.text} does not match {f.typeName}")

def lacks (object : Json.Members) (selections : List Selection) : Bool :=
  selections.any fun s => !s.isTypename && !object.contains s.field

/-- Type name and keys; none when a key is absent or null. -/
def representation (f : EventField) (object : Json.Members) : Option Json.Members :=
  f.keyFields.foldl (fun acc key => acc.bind fun ms =>
    match object.get? key with
    | none | some .null => none
    | some v => some (ms.insert key v)) (some [("__typename", .string f.typeName)])

structure Started where
  object : Json.Members
  wanted : Option EntityRequest

def start (s : CompiledSubscription) (hasEntities : Bool) (payload : List UInt8) :
    Except Fault Started :=
  match decode payload with
  | .error e => .error e
  | .ok object =>
    match checkType s.field object with
    | .error e => .error e
    | .ok () =>
      let wanted :=
        if hasEntities && lacks object s.operation.root.selections then
          (representation s.field object).map fun r =>
            ⟨s.field.typeName, r, s.operation.root.selections⟩
        else none
      .ok ⟨object, wanted⟩

def complete (object : Json.Members) (entity : Option Json.Members) : Json.Members :=
  (entity.getD []).foldl (fun acc (k, v) => acc.insertNew k v) object

def finish (s : CompiledSubscription) (object : Json.Members) : Except Fault Json :=
  let root := s.operation.root
  match Projection.root s.field object root.selections with
  | .error e => .error (e.fault root)
  | .ok shown => .ok (.object [(root.key, .object shown)])

def data (s : CompiledSubscription)
    (fetch : Option (EntityRequest → Except Fault (Option Json.Members)))
    (payload : List UInt8) : Except Fault Json :=
  match start s fetch.isSome payload with
  | .error e => .error e
  | .ok started =>
    match fetch, started.wanted with
    | some fetch, some wanted =>
      match fetch wanted with
      | .error e => .error e
      | .ok entity => finish s (complete started.object entity)
    | _, _ => finish s started.object

def outcome : Except Fault Json → Outcome
  | .ok data => .data data
  | .error e => .ofFault e

end Resolution

end SubscriptionGateway
