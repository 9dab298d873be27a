import SubscriptionGateway.Server.Calls

/-!
Making a server from its settings. The settings are checked first; then the brokers are connected,
unless they are given; then every event field has to have one.
-/
namespace SubscriptionGateway

structure Surroundings where
  /-- Brokers given, in the place of the providers in the settings. -/
  brokers? : Option Broker.Hub := none
  messages : Broker.Server := {}
  graph : Subgraph.Behaviour := { refuses := true }
  entities? : Option EntitySource := none

namespace Server

def noSource (f : EventField) : Fault :=
  .config s!"field '{f.name}' references provider '{f.provider}' which has no event source"

/-- The first field whose provider has no broker. -/
def unsourced? (hub : Broker.Hub) (events : List EventField) : Option EventField :=
  events.find? fun f => (hub.provider? f.provider).isNone

def entitySource? (s : EntitySettings) (graph : Subgraph.Behaviour) : Option EntitySource :=
  match s.subgraphUrl? with
  | some _ => some (Subgraph.source graph s.subgraphTimeoutMs)
  | none => if s.records.isEmpty then none else some (EntityRecords.ofList s.records).source

def setup (s : Settings) (entities? : Option EntitySource) : Setup :=
  { catalog := s.catalog
    resolve := Resolver.ofSource entities?
    concurrency := s.engine.resolverConcurrency
    inboxCapacity := s.engine.outboundQueueSize
    queueCapacity := s.engine.outboundQueueSize
    graceMs := s.engine.slowConsumerGraceMs }

def build (s : Settings) (around : Surroundings) : Except Fault Server :=
  match s.checked with
  | .error f => .error f
  | .ok s =>
    let hub : Except Fault Broker.Hub := match around.brokers? with
      | some hub => .ok hub
      | none => ({ server := around.messages } : Broker.Hub).connectAll s.providers
    match hub with
    | .error f => .error f
    | .ok hub =>
      match unsourced? hub s.events with
      | some f => .error (noSource f)
      | none =>
        .ok {
          settings := s.engine
          blocked := s.blockSubscriptions
          engine := Engine.start
            (setup s (around.entities?.or (entitySource? s.entities around.graph))) hub }

end Server

end SubscriptionGateway
