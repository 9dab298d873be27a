import SubscriptionGateway.Broker.Retry
import SubscriptionGateway.Event.Field
import SubscriptionGateway.Json.Record
import SubscriptionGateway.Subscription.Catalog
import SubscriptionGateway.WebSocket.Readiness

/-!
The settings of a router, their defaults and their form in JSON.
-/
namespace SubscriptionGateway

inductive Backend where
  | memory
  | nats
  | kafka
  deriving DecidableEq, Repr

namespace Backend

def word : Backend → String
  | .memory => "memory"
  | .nats => "nats"
  | .kafka => "kafka"

def all : List Backend := [.memory, .nats, .kafka]

def ofWord? (s : String) : Option Backend := all.find? (·.word == s)

end Backend

/-- A word out of a closed list, also written as the only member of an object, with null. -/
def Json.asWordOf? (ofWord? : String → Option α) : Json → Option α
  | .string s => ofWord? s
  | .object [(s, .null)] => ofWord? s
  | _ => none

structure EngineSettings where
  readinessPolling : Bool := true
  readTimeoutMs : Nat := 5000
  outboundQueueSize : Nat := 128
  slowConsumerGraceMs : Nat := 5000
  resolverConcurrency : Nat := 64
  initTimeoutMs : Nat := 10000
  maxSubscriptions : Nat := 100
  keepAliveMs : Nat := 15000
  deriving DecidableEq

structure ProviderSettings where
  id : String
  backend : Backend
  urls : List String := []
  retry : RetryPolicy := {}
  deriving DecidableEq

structure EntitySettings where
  subgraphUrl? : Option String := none
  subgraphTimeoutMs : Nat := 5000
  /-- By type; of use when there is no subgraph. -/
  records : List (String × List Json) := []

structure Settings where
  listenAddress : String := "0.0.0.0:3002"
  logLevel : String := "info"
  shutdownDelayMs : Nat := 5000
  engine : EngineSettings := {}
  blockSubscriptions : Bool := false
  providers : List ProviderSettings := []
  events : List EventField := []
  entities : EntitySettings := {}

namespace EngineSettings

def ofJson? (j : Json) : Option EngineSettings := do
  let d : EngineSettings := {}
  let r ← Record.ofJson? 8 j
  return {
    readinessPolling :=
      ← r.withDefault 0 "enable_readiness_polling" d.readinessPolling Json.asBool?
    readTimeoutMs := ← r.withDefault 1 "websocket_read_timeout_ms" d.readTimeoutMs Json.asWord?
    outboundQueueSize := ← r.withDefault 2 "outbound_queue_size" d.outboundQueueSize Json.asWord?
    slowConsumerGraceMs :=
      ← r.withDefault 3 "slow_consumer_grace_ms" d.slowConsumerGraceMs Json.asWord?
    resolverConcurrency :=
      ← r.withDefault 4 "resolver_concurrency" d.resolverConcurrency Json.asWord?
    initTimeoutMs := ← r.withDefault 5 "connection_init_timeout_ms" d.initTimeoutMs Json.asWord?
    maxSubscriptions :=
      ← r.withDefault 6 "max_subscriptions_per_connection" d.maxSubscriptions Json.asWord?
    keepAliveMs := ← r.withDefault 7 "sse_keep_alive_ms" d.keepAliveMs Json.asWord? }

def json (e : EngineSettings) : Json :=
  .object [("enable_readiness_polling", .bool e.readinessPolling),
    ("websocket_read_timeout_ms", .ofNat e.readTimeoutMs),
    ("outbound_queue_size", .ofNat e.outboundQueueSize),
    ("slow_consumer_grace_ms", .ofNat e.slowConsumerGraceMs),
    ("resolver_concurrency", .ofNat e.resolverConcurrency),
    ("connection_init_timeout_ms", .ofNat e.initTimeoutMs),
    ("max_subscriptions_per_connection", .ofNat e.maxSubscriptions),
    ("sse_keep_alive_ms", .ofNat e.keepAliveMs)]

def readStrategy (e : EngineSettings) : WebSocket.ReadStrategy :=
  if e.readinessPolling then .evented else .deadline e.readTimeoutMs

end EngineSettings

namespace ProviderSettings

def memory (id : String) : ProviderSettings := { id := id, backend := .memory }

def read? (policy? : Json → Option RetryPolicy) (j : Json) : Option ProviderSettings := do
  let r ← Record.ofJson? 4 j
  return {
    id := ← r.required 0 "id" Json.asString?
    backend := ← r.required 1 "backend" (Json.asWordOf? Backend.ofWord?)
    urls := ← r.withDefault 2 "urls" [] (Json.asList? Json.asString?)
    retry := ← r.withDefault 3 "retry" {} policy? }

def ofJson? : Json → Option ProviderSettings := read? RetryPolicy.ofJson?

def json (p : ProviderSettings) : Json :=
  .object [("id", .string p.id), ("backend", .string p.backend.word),
    ("urls", EventField.strings p.urls), ("retry", p.retry.json)]

end ProviderSettings

namespace EntitySettings

def recordsOfJson? (j : Json) : Option (List (String × List Json)) :=
  j.asObject?.bind fun ms => ms.mapM fun (t, rs) =>
    (Json.asList? Json.any? rs).map fun items => (t, items)

def ofJson? (j : Json) : Option EntitySettings := do
  let d : EntitySettings := {}
  let r ← Record.ofJson? 3 j
  return {
    subgraphUrl? := ← r.optional 0 "subgraph_url" Json.asString?
    subgraphTimeoutMs := ← r.withDefault 1 "subgraph_timeout_ms" d.subgraphTimeoutMs Json.asWord?
    records := ← r.withDefault 2 "records" [] recordsOfJson? }

def json (e : EntitySettings) : Json :=
  .object [("subgraph_url", (e.subgraphUrl?.map Json.string).getD .null),
    ("subgraph_timeout_ms", .ofNat e.subgraphTimeoutMs),
    ("records", .object (e.records.map fun (t, rs) => (t, .array rs)))]

def hasSource (e : EntitySettings) : Bool := e.subgraphUrl?.isSome || !e.records.isEmpty

end EntitySettings

namespace Settings

def securityOfJson? (j : Json) : Option Bool :=
  (Record.ofJson? 1 j).bind fun r => r.withDefault 0 "block_subscriptions" false Json.asBool?

def read? (policy? : Json → Option RetryPolicy) (j : Json) : Option Settings := do
  let d : Settings := {}
  let r ← Record.ofJson? 8 j
  return {
    listenAddress := ← r.withDefault 0 "listen_addr" d.listenAddress Json.asString?
    logLevel := ← r.withDefault 1 "log_level" d.logLevel Json.asString?
    shutdownDelayMs := ← r.withDefault 2 "shutdown_delay_ms" d.shutdownDelayMs Json.asWord?
    engine := ← r.withDefault 3 "engine" {} EngineSettings.ofJson?
    blockSubscriptions := ← r.withDefault 4 "security" false securityOfJson?
    providers := ← r.withDefault 5 "providers" [] (Json.asList? (ProviderSettings.read? policy?))
    events := ← r.withDefault 6 "events" [] (Json.asList? EventField.ofJson?)
    entities := ← r.withDefault 7 "entities" {} EntitySettings.ofJson? }

def ofJson? : Json → Option Settings := read? RetryPolicy.ofJson?

def json (s : Settings) : Json :=
  .object [("listen_addr", .string s.listenAddress), ("log_level", .string s.logLevel),
    ("shutdown_delay_ms", .ofNat s.shutdownDelayMs), ("engine", s.engine.json),
    ("security", .object [("block_subscriptions", .bool s.blockSubscriptions)]),
    ("providers", .array (s.providers.map ProviderSettings.json)),
    ("events", .array (s.events.map EventField.json)), ("entities", s.entities.json)]

def catalog (s : Settings) : Catalog := .ofList s.events

/-! ## What settings have to satisfy -/

inductive Defect where
  | queueSizeZero
  | concurrencyZero
  | duplicateProvider (id : String)
  | noUrl (provider : String)
  | unknownProvider (field provider : String)
  | noTopics (field : String)
  deriving DecidableEq

def Defect.message : Defect → String
  | .queueSizeZero => "engine.outbound_queue_size must be greater than zero"
  | .concurrencyZero => "engine.resolver_concurrency must be greater than zero"
  | .duplicateProvider id => s!"duplicate provider id '{id}'"
  | .noUrl p => s!"provider '{p}' needs at least one url"
  | .unknownProvider f p => s!"field '{f}' references unknown provider '{p}'"
  | .noTopics f => s!"field '{f}' has no topics"

def providerDefect? (before : List String) : List ProviderSettings → Option Defect
  | [] => none
  | p :: rest =>
    if before.contains p.id then some (.duplicateProvider p.id)
    else if p.backend ≠ .memory ∧ p.urls = [] then some (.noUrl p.id)
    else providerDefect? (p.id :: before) rest

def eventDefect? (providers : List String) : List EventField → Option Defect
  | [] => none
  | f :: rest =>
    if !providers.contains f.provider then some (.unknownProvider f.name f.provider)
    else if f.topics.isEmpty then some (.noTopics f.name)
    else eventDefect? providers rest

/-- The first defect in the order engine, providers, events. -/
def defect? (s : Settings) : Option Defect :=
  if s.engine.outboundQueueSize = 0 then some .queueSizeZero
  else if s.engine.resolverConcurrency = 0 then some .concurrencyZero
  else (providerDefect? [] s.providers).or (eventDefect? (s.providers.map (·.id)) s.events)

def checked (s : Settings) : Except Fault Settings :=
  match s.defect? with
  | some d => .error (.config d.message)
  | none => .ok s

end Settings

end SubscriptionGateway
