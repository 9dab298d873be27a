import SubscriptionGateway.Fault
import SubscriptionGateway.Json.Reader
import SubscriptionGateway.Json.Record

/-!
What a client is told of an event, data or errors in their place, and what the engine gives a
connection to send. Data and errors count as messages, an end does not.
-/
namespace SubscriptionGateway

structure ClientError where
  message : String
  path? : Option (List Json) := none
  extensions? : Option Json := none

namespace ClientError

def concealed : ClientError := { message := Fault.concealed }

def withPath (e : ClientError) (path : List Json) : ClientError :=
  if path.isEmpty then e else { e with path? := some path }

def json (e : ClientError) : Json :=
  .object <| ("message", .string e.message) ::
    (e.path?.map fun p => ("path", Json.array p)).toList ++
    (e.extensions?.map fun x => ("extensions", x)).toList

def ofJson? (j : Json) : Option ClientError := do
  let r ← Record.ofJson? 3 j
  return {
    message := ← r.required 0 "message" Json.asString?
    path? := ← r.optional 1 "path" (Json.asList? Json.any?)
    extensions? := ← r.optional 2 "extensions" Json.any? }

def shape : Shape := .record [("message", .text), ("path", .list .any), ("extensions", .any)]

def read? (text : String) : Option ClientError :=
  (Json.readShaped? shape (text.toList.map some)).bind ofJson?

end ClientError

inductive Outcome where
  | data (value : Json)
  | errors (list : List ClientError)

namespace Outcome

def isError : Outcome → Bool
  | .data _ => false
  | .errors _ => true

def errorsBody (errors : List ClientError) : Json :=
  .object [("errors", .array (errors.map ClientError.json)), ("data", .null)]

def body : Outcome → Json
  | .data value => .object [("data", value)]
  | .errors es => errorsBody es

/-- How a failed resolution is told. Only a resolution fault carries its own text. -/
def ofFault : Fault → Outcome
  | .resolution text path => .errors [({ message := text } : ClientError).withPath path]
  | _ => .errors [.concealed]

end Outcome

inductive FrameBody where
  | next (payload : Json)
  | error (errors : List ClientError)
  | complete

structure Frame where
  clientId : String
  body : FrameBody

namespace Frame

def next (clientId : String) (payload : Json) : Frame := ⟨clientId, .next payload⟩

def error (clientId : String) (errors : List ClientError) : Frame := ⟨clientId, .error errors⟩

def complete (clientId : String) : Frame := ⟨clientId, .complete⟩

def ofOutcome (clientId : String) : Outcome → Frame
  | .data value => next clientId (Outcome.data value).body
  | .errors errors => error clientId errors

def isMessage (f : Frame) : Bool :=
  match f.body with
  | .complete => false
  | _ => true

end Frame

end SubscriptionGateway
