import SubscriptionGateway.Broker.Connection

/-!
Plays of the brokers: the things that may be asked of them or happen to them, in any order, and
what comes of it.
-/
namespace SubscriptionGateway.Broker

namespace Hub

inductive Operation where
  | produce (provider topic : String) (payload : List UInt8)
  | createTopic (provider topic : String) (replication : Int)
  | deleteTopic (provider topic : String)
  | setAvailable (provider : String) (up : Bool)
  | openConsumer (provider : String) (key : SourceKey) (proper : key.topics.Nodup)
  | closeConsumer (c : ConsumerId)
  | dropConsumer (c : ConsumerId)
  /-- A call for the next event begins, or goes on from what it waits for. -/
  | next (c : ConsumerId) (now : Nat) (a : Awaiting)
  /-- Somebody else publishes on the message server. -/
  | publish (topic : String) (payload : List UInt8)
  | endSubscription (s : Subscribed)
  | cut
  | limit (call : Call) (n : Option Nat)

inductive Happening where
  | produced (provider topic : String) (payload : List UInt8) (r : Except BrokerError Unit)
  | opened (provider : String) (key : SourceKey) (r : Except BrokerError ConsumerId)
  | polled (c : ConsumerId) (p : Polled)

def endSubscription (h : Hub) (s : Subscribed) : Hub :=
  if s ∈ h.server.subscriptions then
    { h with server := h.server.unsubscribe [s.channel] }.endChannel s.channel
  else h

/-- What is asked of a provider that is not there has no effect. -/
def perform (h : Hub) : Operation → Hub × List Happening
  | .produce id topic payload =>
    match h.provider? id with
    | some p =>
      ((h.produce p topic payload).2,
        [.produced id topic payload (h.produce p topic payload).1])
    | none => (h, [])
  | .createTopic id topic replication =>
    match h.provider? id with
    | some p => ((h.createTopic p topic replication).2, [])
    | none => (h, [])
  | .deleteTopic id topic =>
    match h.provider? id with
    | some p => ((h.deleteTopic p topic).2, [])
    | none => (h, [])
  | .setAvailable id up => (h.setAvailable id up, [])
  | .openConsumer id key _ =>
    match h.provider? id with
    | some p => ((h.openConsumer p key).2, [.opened id key (h.openConsumer p key).1])
    | none => (h, [])
  | .closeConsumer c => (h.closeConsumer c, [])
  | .dropConsumer c => (h.dropConsumer c, [])
  | .next c now a => ((h.poll now c a).2, [.polled c (h.poll now c a).1])
  | .publish topic payload => (h.publish topic payload, [])
  | .endSubscription s => (h.endSubscription s, [])
  | .cut => (h.cut, [])
  | .limit call n => ({ h with server := h.server.limit call n }, [])

def after (h : Hub) (ops : List Operation) : Hub := ops.foldl (fun h op => (h.perform op).1) h

def log (h : Hub) : List Operation → List Happening
  | [] => []
  | op :: ops => (h.perform op).2 ++ (h.perform op).1.log ops

@[simp] theorem after_nil (h : Hub) : h.after [] = h := rfl

@[simp] theorem after_cons (h : Hub) (op : Operation) (ops : List Operation) :
    h.after (op :: ops) = (h.perform op).1.after ops := rfl

theorem after_append (h : Hub) (ops ops' : List Operation) :
    h.after (ops ++ ops') = (h.after ops).after ops' :=
  List.foldl_append

theorem log_append (h : Hub) (ops ops' : List Operation) :
    h.log (ops ++ ops') = h.log ops ++ (h.after ops).log ops' := by
  induction ops generalizing h with
  | nil => rfl
  | cons op ops ih => simp [log, ih]

/-- What holds of the brokers after every step of a play, if each operation keeps it. -/
theorem after_induction {P : Hub → Prop} {ops : List Operation} {h : Hub} (start : P h)
    (step : ∀ h op, op ∈ ops → P h → P (h.perform op).1) : P (h.after ops) := by
  induction ops generalizing h with
  | nil => exact start
  | cons op ops ih =>
    exact ih (step h op (by simp) start) fun h op member =>
      step h op (List.mem_cons_of_mem _ member)

/-- Brokers just connected: nobody listens, and no topic has been used. -/
structure Fresh (h : Hub) : Prop where
  consumers : h.consumers = []
  subscriptions : h.server.subscriptions = []
  topics : ∀ id b, h.memory? id = some b → b.topics = []

theorem Fresh.add {h : Hub} (fresh : h.Fresh) {p : Provider}
    (empty : ∀ b, p.kind = .memory b → b.topics = []) : (h.add p).Fresh where
  consumers := fresh.consumers
  subscriptions := fresh.subscriptions
  topics id b known := by
    by_cases mine : p.id = id
    · subst mine
      have gone : (h.providers.filter (·.id != p.id)).find? (·.id == p.id) = none := by
        simp [List.find?_eq_none]
      have found : (h.add p).provider? p.id = some p := by
        simp [Hub.add, provider?, List.find?_append, gone]
      rw [memory?, found] at known
      cases kind : p.kind with
      | memory b' =>
        simp only [kind, Option.bind_some, Option.some.injEq] at known
        exact known ▸ empty b' kind
      | nats => simp [kind] at known
    · have same : (h.add p).provider? id = h.provider? id := by
        have other : (p.id == id) = false := by simpa using mine
        simp only [Hub.add, provider?, List.find?_append, List.find?_filter]
        simp only [List.find?_singleton, other, Bool.false_eq_true, if_false, Option.or_none]
        congr 1
        funext q
        by_cases this : q.id = id
        · simp [this, Ne.symm mine]
        · simp [this]
      rw [memory?, same] at known
      exact fresh.topics id b known

theorem connectAll_fresh {settings : List ProviderSettings} {h h' : Hub} (fresh : h.Fresh)
    (connected : h.connectAll settings = .ok h') : h'.Fresh := by
  induction settings generalizing h with
  | nil => exact (Except.ok.inj connected) ▸ fresh
  | cons p rest ih =>
    simp only [connectAll] at connected
    split at connected
    · cases connected
    · rename_i h₁ first
      refine ih ?_ connected
      unfold connectProvider at first
      split at first
      · cases first
        exact fresh.add fun b same => by cases same; rfl
      · simp only [addNats, Server.connect] at first
        split at first
        · cases first
          have joined : ({ h with server := { h.server with
              addresses := h.server.addresses ++ [Server.address p.urls] } } : Hub).Fresh :=
            ⟨fresh.consumers, fresh.subscriptions, fresh.topics⟩
          exact joined.add fun b same => by cases same
        · cases first
      · cases first

end Hub

end SubscriptionGateway.Broker
