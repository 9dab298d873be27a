import SubscriptionGateway.Reply.Frame
import SubscriptionGateway.GraphQL.Selection
import SubscriptionGateway.Json.Writer
import SubscriptionGateway.Text.Blank

/-!
Where the fields come from that an event does not carry: records held here, or another graph that
is asked for them.
-/
namespace SubscriptionGateway

structure EntityRequest where
  typeName : String
  representation : Json.Members
  selections : List Selection

structure EntityRecords where
  types : List (String × List Json.Members)

namespace EntityRecords

def add (r : EntityRecords) (typeName : String) (record : Json.Members) : EntityRecords :=
  if r.types.any (·.1 == typeName) then
    ⟨r.types.map fun (t, rs) => if t == typeName then (t, rs ++ [record]) else (t, rs)⟩
  else ⟨r.types ++ [(typeName, [record])]⟩

def ofList (types : List (String × List Json)) : EntityRecords :=
  (types.flatMap fun (t, js) => (js.filterMap Json.asObject?).map fun r => (t, r)).foldl
    (fun acc (t, r) => acc.add t r) ⟨[]⟩

/-- The records of a type; its name is compared without case when no type has it exactly. -/
def ofType? (r : EntityRecords) (typeName : String) : Option (List Json.Members) :=
  ((r.types.find? (·.1 == typeName)).or
    (r.types.find? fun t => Text.sameIgnoringCase t.1 typeName)).map (·.2)

/-- Whether a record has every field of a representation but the type name. -/
def fits (representation record : Json.Members) : Bool :=
  representation.all fun (key, value) =>
    key == "__typename" || (match record.get? key with
      | some v => v.same value
      | none => false)

def find? (r : EntityRecords) (typeName : String) (representation : Json.Members) :
    Option Json.Members :=
  (r.ofType? typeName).bind fun records => records.find? (fits representation)

end EntityRecords

/-! ## Asking another graph -/

namespace Subgraph

def query (typeName : String) (selections : List Selection) : String :=
  "query($representations: [_Any!]!) \x7b _entities(representations: $representations) \x7b ... on "
    ++
    typeName ++ " " ++ Selection.setText selections ++ " \x7d \x7d"

def body (r : EntityRequest) : Json :=
  .object [("query", .string (query r.typeName r.selections)),
    ("variables", .object [("representations", .array [.object r.representation])])]

inductive Exchange where
  | refused
  | timedOut
  | answered (status : Nat) (body : List UInt8)

def shape : Shape :=
  .record [("data", .record [("_entities", .list .any)]), ("errors", .list ClientError.shape)]

def entitiesOf? (j : Json) : Option (List Json) := do
  let r ← Record.ofJson? 1 j
  r.withDefault 0 "_entities" [] (Json.asList? Json.any?)

def answerOf? (j : Json) : Option (List Json × List ClientError) := do
  let r ← Record.ofJson? 2 j
  let data ← r.optional 0 "data" entitiesOf?
  let errors ← r.withDefault 1 "errors" [] (Json.asList? ClientError.ofJson?)
  return (data.getD [], errors)

def read (bytes : List UInt8) : Except Fault (Option Json.Members) :=
  match (Json.readShaped? shape (Utf8.chars bytes)).bind answerOf? with
  | none => .error (.fatal "invalid entity response")
  | some (_, e :: _) => .error (.fatal s!"subgraph returned errors: {e.message}")
  | some (entities, []) => .ok (entities.head?.bind Json.asObject?)

def entity : Exchange → Except Fault (Option Json.Members)
  | .refused => .error (.fatal "entity fetch failed")
  | .timedOut => .error (.fatal "entity fetch failed")
  | .answered status bytes =>
    if 400 ≤ status ∧ status < 600 then .error (.fatal "entity fetch failed") else read bytes

end Subgraph

end SubscriptionGateway
