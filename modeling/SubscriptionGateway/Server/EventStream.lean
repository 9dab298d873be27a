import SubscriptionGateway.Json.Writer
import SubscriptionGateway.Reply.Frame
import SubscriptionGateway.Text.Blank

/-!
Subscriptions over a single HTTP response: who may ask for one and how frames are written as
events.
-/
namespace SubscriptionGateway.Server.EventStream

def mediaType : String := "text/event-stream"

def clientId : String := "1"

/-- Whether one of the media types accepted begins like that of event streams. -/
def accepted (headers : List String) : Bool :=
  headers.any fun h => (h.toList.splitOn ',').any fun m =>
    (Text.after? mediaType.toList (Text.trim m)).isSome

def next (payload : Json) : String := "event:next\ndata:" ++ payload.text ++ "\n\n"

def complete : String := "event:complete\ndata:\n\n"

def keepAlive : String := ":\n\n"

def chunk (f : Frame) : String :=
  match f.body with
  | .next payload => next payload
  | .error errors => next (Outcome.errorsBody errors)
  | .complete => complete

def refusal (payload : Json) : List String := [next payload, complete]

end SubscriptionGateway.Server.EventStream
