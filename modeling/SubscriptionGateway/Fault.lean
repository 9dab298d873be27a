import SubscriptionGateway.Json.Basic

/-!
What can go wrong, by what it ends: a connection, a broker consumer, one event, one request. Only
faults that are the client's to know keep their text in `clientMessage`; every other one is the
same text to a client.
-/
namespace SubscriptionGateway

inductive Fault where
  | transport (detail : String)
  | decode (detail : String)
  /-- Null where a value has to be; the text and the path are made for the client. -/
  | resolution (text : String) (path : List Json)
  | sourceUnavailable (detail : String)
  | source (detail : String)
  | fatal (detail : String)
  | invalidOperation (text : String)
  | subscriptionsBlocked
  | shuttingDown
  | notFound (detail : String)
  | config (detail : String)
  | serialization
  | internal (detail : String)
  deriving DecidableEq

namespace Fault

def message : Fault → String
  | .transport d => s!"Transport error: {d}"
  | .decode d => s!"Decode error: {d}"
  | .resolution text _ => text
  | .sourceUnavailable d => s!"Event source unavailable: {d}"
  | .source d => s!"Event source error: {d}"
  | .fatal d => s!"Fatal error: {d}"
  | .invalidOperation text => text
  | .subscriptionsBlocked => "operation type 'subscription' is blocked"
  | .shuttingDown => "Router is shutting down"
  | .notFound d => s!"Not found: {d}"
  | .config d => s!"Configuration error: {d}"
  | .serialization => "Serialization error"
  | .internal d => s!"Internal error: {d}"

/-- The text of every fault whose own text is not the client's to know. -/
def concealed : String := "Internal server error"

def clientMessage : Fault → String
  | .resolution text _ => text
  | .invalidOperation text => text
  | .subscriptionsBlocked => subscriptionsBlocked.message
  | .shuttingDown => shuttingDown.message
  | _ => concealed

end Fault

end SubscriptionGateway
