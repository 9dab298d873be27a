import SubscriptionGateway.Broker.Hub
import SubscriptionGateway.Settings.Basic

/-!
Connecting the providers that the settings name, in their order; the first that cannot be
connected ends it.
-/
namespace SubscriptionGateway.Broker

def kafkaMissing (id : String) : Fault :=
  .config ("provider '" ++ id ++
    "' uses the kafka backend but the router was built without the `kafka` feature")

namespace Hub

def connectProvider (h : Hub) (p : ProviderSettings) : Except Fault Hub :=
  match p.backend with
  | .memory => .ok (h.addMemory p.id p.retry)
  | .nats => (h.addNats p.id p.urls p.retry).mapError BrokerError.fault
  | .kafka => .error (kafkaMissing p.id)

def connectAll (h : Hub) : List ProviderSettings → Except Fault Hub
  | [] => .ok h
  | p :: rest =>
    match h.connectProvider p with
    | .error e => .error e
    | .ok h => connectAll h rest

def backendOf : ProviderKind → Backend
  | .memory _ => .memory
  | .nats => .nats

def unknownProvider (id : String) : Fault := .notFound s!"event provider '{id}'"

def find (h : Hub) (id : String) : Except Fault Provider :=
  match h.provider? id with
  | some p => .ok p
  | none => .error (unknownProvider id)

end Hub

end SubscriptionGateway.Broker
