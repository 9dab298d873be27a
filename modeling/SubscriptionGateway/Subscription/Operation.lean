import SubscriptionGateway.GraphQL.Flattening
import SubscriptionGateway.GraphQL.Grammar
import SubscriptionGateway.GraphQL.Variables
import SubscriptionGateway.Subscription.Request

/-!
The operation of a subscription request: one root field, its arguments with variables bound, and
the flat selection below it.
-/
namespace SubscriptionGateway

open GraphQL

inductive OperationError where
  | document (cause : DocumentError)
  | unknownOperation (name : String)
  | nameRequired
  | unsupported (kind : OperationKind)
  | spread (cause : SpreadError)
  | severalRoots
  deriving DecidableEq

def OperationKind.word : OperationKind → String
  | .query => "query"
  | .mutation => "mutation"
  | .subscription => "subscription"

def OperationError.message : OperationError → String
  | .document e => s!"Invalid query: {e.message}"
  | .unknownOperation name => s!"Unknown operation named \"{name}\"."
  | .nameRequired => "Must provide operation name if query contains multiple operations."
  | .unsupported kind =>
    s!"operation type '{OperationKind.word kind}' is not supported on this endpoint"
  | .spread (.withinItself name) => s!"Cannot spread fragment \"{name}\" within itself."
  | .spread (.unknown name) => s!"Unknown fragment \"{name}\"."
  | .severalRoots => "Subscription must select only one top level field."

/-- The operation of the document that a request asks for. An unnamed one needs no name. -/
def GraphQL.Document.operation? (d : Document) (name? : Option String) :
    Except OperationError GraphQL.Operation :=
  match d.operations, name? with
  | .unnamed o, _ => .ok o
  | .named os, some name =>
    match os.find? (·.1 == name) with
    | some (_, o) => .ok o
    | none => .error (.unknownOperation name)
  | .named [(_, o)], none => .ok o
  | .named _, none => .error .nameRequired

structure SubscriptionOperation where
  /-- The name the request gives, which is not looked up in an unnamed operation. -/
  name? : Option String
  root : Selection
  arguments : Json.Members

namespace SubscriptionOperation

def fieldName (o : SubscriptionOperation) : String := o.root.field

def responseKey (o : SubscriptionOperation) : String := o.root.key

def argument? (o : SubscriptionOperation) (name : String) : Option Json := o.arguments.get? name

def singleRoot : List FlatField → Except OperationError FlatField
  | [f] => .ok f
  | _ => .error .severalRoots

def ofDocument (d : Document) (r : Request) : Except OperationError SubscriptionOperation :=
  match d.operation? r.operationName? with
  | .error e => .error e
  | .ok o =>
    if o.kind ≠ .subscription then .error (.unsupported o.kind)
    else match d.flatten o.selections with
      | .error e => .error (.spread e)
      | .ok fields =>
        match singleRoot fields with
        | .error e => .error e
        | .ok f =>
          .ok {
            name? := r.operationName?
            root := f.selection
            arguments := argumentValues (bindVariables o.declared r.variables?) f.arguments }

def ofRequest (r : Request) : Except OperationError SubscriptionOperation :=
  match Document.parse r.query with
  | .error e => .error (.document e)
  | .ok d => ofDocument d r

end SubscriptionOperation

end SubscriptionGateway
