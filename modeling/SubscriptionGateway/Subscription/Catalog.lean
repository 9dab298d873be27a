import SubscriptionGateway.Event.Field
import SubscriptionGateway.Event.SourceKey
import SubscriptionGateway.Event.Topic
import SubscriptionGateway.Subscription.Operation

/-!
The event fields a router serves, one for each name, and the compiling of requests against them.
-/
namespace SubscriptionGateway

inductive CompileError where
  | operation (cause : OperationError)
  | unknownField (name : String)
  | topic (cause : Topic.TemplateError)

def CompileError.fault : CompileError → Fault
  | .operation e => .invalidOperation e.message
  | .unknownField name =>
    .invalidOperation s!"Cannot query field \"{name}\" on type \"Subscription\"."
  | .topic e => e.fault

structure CompiledSubscription where
  operation : SubscriptionOperation
  field : EventField
  sourceKey : SourceKey

structure Catalog where
  fields : List EventField

namespace Catalog

def empty : Catalog := ⟨[]⟩

def insertField (f : EventField) : List EventField → List EventField
  | [] => [f]
  | g :: rest => if g.name = f.name then f :: rest else g :: insertField f rest

/-- Of fields with one name the last is kept. -/
def ofList (fields : List EventField) : Catalog :=
  ⟨fields.foldl (fun acc f => insertField f acc) []⟩

def find? (c : Catalog) (name : String) : Option EventField :=
  c.fields.find? (·.name == name)

def size (c : Catalog) : Nat := c.fields.length

def isEmpty (c : Catalog) : Bool := c.fields.isEmpty

def renderTopics (arguments : Json.Members) :
    List String → Except Topic.TemplateError (List String)
  | [] => .ok []
  | t :: ts =>
    match Topic.render t arguments with
    | .error e => .error e
    | .ok topic =>
      match renderTopics arguments ts with
      | .error e => .error e
      | .ok more => .ok (topic :: more)

def compileOperation (c : Catalog) (o : SubscriptionOperation) :
    Except CompileError CompiledSubscription :=
  match c.find? o.fieldName with
  | none => .error (.unknownField o.fieldName)
  | some f =>
    match renderTopics o.arguments f.topics with
    | .error e => .error (.topic e)
    | .ok topics => .ok ⟨o, f, SourceKey.ofTopics f.provider topics⟩

def compile (c : Catalog) (r : Request) : Except CompileError CompiledSubscription :=
  match SubscriptionOperation.ofRequest r with
  | .error e => .error (.operation e)
  | .ok o => c.compileOperation o

end Catalog

end SubscriptionGateway
