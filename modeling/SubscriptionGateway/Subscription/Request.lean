import SubscriptionGateway.Json.Reader
import SubscriptionGateway.Json.Record

/-!
The request a client sends: a document and what goes with it.
-/
namespace SubscriptionGateway

structure Request where
  query : String
  variables? : Option Json := none
  operationName? : Option String := none
  extensions? : Option Json := none
  deriving DecidableEq

namespace Request

def ofJson? (j : Json) : Option Request := do
  let r ← Record.ofJson? 4 j
  return {
    query := ← r.required 0 "query" Json.asString?
    variables? := ← r.optional 1 "variables" Json.any?
    operationName? := ← r.optional 2 "operationName" Json.asString?
    extensions? := ← r.optional 3 "extensions" Json.any? }

def shape : Shape :=
  .record [("query", .text), ("variables", .any), ("operationName", .text), ("extensions", .any)]

def readBytes? (bytes : List UInt8) : Option Request :=
  (Json.readShaped? shape (Utf8.chars bytes)).bind ofJson?

def json (r : Request) : Json :=
  .object <| ("query", .string r.query) ::
    (r.variables?.map fun v => ("variables", v)).toList ++
    (r.operationName?.map fun n => ("operationName", Json.string n)).toList ++
    (r.extensions?.map fun e => ("extensions", e)).toList

end Request

end SubscriptionGateway
