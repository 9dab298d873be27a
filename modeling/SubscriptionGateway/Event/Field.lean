import SubscriptionGateway.Json.Record

/-!
How a root field is fed: its provider, its topics, and what is known of the entity that an event
on them describes.
-/
namespace SubscriptionGateway

structure EventField where
  name : String
  provider : String
  topics : List String
  typeName : String
  keyFields : List String := ["id"]
  /-- Further fields that are never null, as paths below the entity joined by dots. -/
  nonNullFields : List String := []
  deriving DecidableEq

namespace EventField

def dotted (path : List String) : String := ".".intercalate path

def isNonNull (f : EventField) (path : List String) : Bool :=
  (match path with
    | [name] => f.keyFields.contains name
    | _ => false) || f.nonNullFields.contains (dotted path)

def ofJson? (j : Json) : Option EventField := do
  let r ← Record.ofJson? 6 j
  return {
    name := ← r.required 0 "field_name" Json.asString?
    provider := ← r.required 1 "provider_id" Json.asString?
    topics := ← r.required 2 "topics" (Json.asList? Json.asString?)
    typeName := ← r.required 3 "type_name" Json.asString?
    keyFields := ← r.withDefault 4 "key_fields" ["id"] (Json.asList? Json.asString?)
    nonNullFields := ← r.withDefault 5 "non_null_fields" [] (Json.asList? Json.asString?) }

def strings (ss : List String) : Json := .array (ss.map .string)

def json (f : EventField) : Json :=
  .object [("field_name", .string f.name), ("provider_id", .string f.provider),
    ("topics", strings f.topics), ("type_name", .string f.typeName),
    ("key_fields", strings f.keyFields), ("non_null_fields", strings f.nonNullFields)]

end EventField

end SubscriptionGateway
