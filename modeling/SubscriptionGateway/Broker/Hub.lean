import SubscriptionGateway.Broker.Retry
import SubscriptionGateway.Broker.Server

/-!
All brokers a gateway talks to and the consumers it has opened on them. A memory broker keeps one
channel for each topic, made at its first use; a message server keeps one for each subscription.
What is sent on a channel goes to the receivers on it.
-/
namespace SubscriptionGateway.Broker

/-- How many messages of a memory topic wait for a consumer. -/
def topicWindow : Nat := 1024

structure MemoryBroker where
  topics : List (String × ChannelId) := []
  available : Bool := true
  opened : Nat := 0
  closed : Nat := 0
  produced : Nat := 0
  deriving DecidableEq

inductive ProviderKind where
  | memory (broker : MemoryBroker)
  | nats
  deriving DecidableEq

structure Provider where
  id : String
  retry : RetryPolicy := {}
  kind : ProviderKind

structure Consumer where
  provider : String
  key : SourceKey
  backoff : Backoff
  /-- Its receivers; none while its subscriptions are lost. -/
  line : Option Line
  closed : Bool := false

abbrev ConsumerId := Nat

structure BrokerEvent where
  key : SourceKey
  topic : String
  payload : List UInt8
  partition? : Option Nat
  deriving DecidableEq

structure Hub where
  providers : List Provider := []
  server : Server := {}
  consumers : List Consumer := []
  channels : Nat := 0
  /-- How many deliveries and endings there were. -/
  stamp : Nat := 0

namespace Hub

def provider? (h : Hub) (id : String) : Option Provider := h.providers.find? (·.id == id)

def memory? (h : Hub) (id : String) : Option MemoryBroker :=
  (h.provider? id).bind fun p => match p.kind with
    | .memory b => some b
    | .nats => none

def add (h : Hub) (p : Provider) : Hub :=
  { h with providers := h.providers.filter (·.id != p.id) ++ [p] }

def addMemory (h : Hub) (id : String) (retry : RetryPolicy) : Hub := h.add ⟨id, retry, .memory {}⟩

def addNats (h : Hub) (id : String) (urls : List String) (retry : RetryPolicy) :
    Except BrokerError Hub :=
  (h.server.connect urls).map fun s => ({ h with server := s } : Hub).add ⟨id, retry, .nats⟩

def providerIds (h : Hub) : List String := (h.providers.map (·.id)).foldr insertTopic []

def setMemory (h : Hub) (id : String) (b : MemoryBroker) : Hub :=
  { h with providers := h.providers.map fun p =>
    if p.id == id then { p with kind := .memory b } else p }

def updateMemory (h : Hub) (id : String) (f : MemoryBroker → MemoryBroker) : Hub :=
  match h.memory? id with
  | some b => h.setMemory id (f b)
  | none => h

def setConsumer (h : Hub) (id : ConsumerId) (c : Consumer) : Hub :=
  { h with consumers := h.consumers.set id c }

/-! ## Channels -/

def onReceivers (h : Hub) (f : Receiver → Receiver) : Hub :=
  { h with consumers := h.consumers.map fun c => { c with line := c.line.map (Line.map f) } }

def send (h : Hub) (window : Option Nat) (channel : ChannelId) (m : Message) : Hub :=
  { h.onReceivers (fun r => if r.channel = channel then r.push window h.stamp m else r) with
    stamp := h.stamp + 1 }

def endChannel (h : Hub) (channel : ChannelId) : Hub :=
  { h.onReceivers (fun r => if r.channel = channel then r.finish h.stamp else r) with
    stamp := h.stamp + 1 }

def topicChannel (h : Hub) (id : String) (b : MemoryBroker) (topic : String) : ChannelId × Hub :=
  match b.topics.find? (·.1 == topic) with
  | some (_, channel) => (channel, h)
  | none =>
    (h.channels, { h.setMemory id { b with topics := b.topics ++ [(topic, h.channels)] } with
      channels := h.channels + 1 })

def topicChannels (id : String) : List String → Hub → List ChannelId × Hub
  | [], h => ([], h)
  | t :: ts, h =>
    match h.memory? id with
    | none => ([], h)
    | some b =>
      let (channel, h) := h.topicChannel id b t
      let (more, h) := topicChannels id ts h
      (channel :: more, h)

/-! ## What a gateway asks of a provider -/

def fresh (c : ChannelId) : Receiver := { channel := c }

def addConsumer (h : Hub) (p : Provider) (key : SourceKey) (channels : List ChannelId) :
    ConsumerId × Hub :=
  (h.consumers.length, { h with consumers := h.consumers ++
    [{ provider := p.id, key := key, backoff := ⟨p.retry, 0⟩
       line := some ⟨channels.map fresh, []⟩ }] })

def subscribeAll (h : Hub) (key : SourceKey) : Except BrokerError (List ChannelId) × Hub :=
  let (r, s) := h.server.subscribeAll h.channels [] key.topics
  (r, { h with server := s, channels := h.channels + key.topics.length })

def openConsumer (h : Hub) (p : Provider) (key : SourceKey) :
    Except BrokerError ConsumerId × Hub :=
  match p.kind with
  | .memory b =>
    if !b.available then (.error (.memoryDown p.id), h)
    else
      let (channels, h) := topicChannels p.id key.topics h
      let h := h.updateMemory p.id fun b => { b with opened := b.opened + 1 }
      let (id, h) := h.addConsumer p key channels
      (.ok id, h)
  | .nats =>
    match h.subscribeAll key with
    | (.error e, h) => (.error e, h)
    | (.ok channels, h) =>
      let (id, h) := h.addConsumer p key channels
      (.ok id, h)

def produce (h : Hub) (p : Provider) (topic : String) (payload : List UInt8) :
    Except BrokerError Unit × Hub :=
  match p.kind with
  | .memory b =>
    if !b.available then (.error (.memoryDown p.id), h)
    else
      let (channel, h) := h.topicChannel p.id b topic
      let h := h.updateMemory p.id fun b => { b with produced := b.produced + 1 }
      (.ok (), h.send (some topicWindow) channel ⟨topic, payload⟩)
  | .nats =>
    match h.server.grant .publish with
    | (false, s) => (.error (.publish topic), { h with server := s })
    | (true, s) =>
      let h := { h with server := s }
      let h := (s.audience topic).foldl (fun h c => h.send none c ⟨topic, payload⟩) h
      match h.server.grant .flush with
      | (true, s) => (.ok (), { h with server := s })
      | (false, s) => (.error (.flushPublish topic), { h with server := s })

def createTopic (h : Hub) (p : Provider) (topic : String) (replication : Int) :
    Except BrokerError Unit × Hub :=
  match p.kind with
  | .memory b =>
    if !b.available then (.error (.memoryDown p.id), h)
    else (.ok (), (h.topicChannel p.id b topic).2)
  | .nats =>
    let (r, s) := h.server.createStream topic replication
    (r, { h with server := s })

def deleteTopic (h : Hub) (p : Provider) (topic : String) : Except BrokerError Unit × Hub :=
  match p.kind with
  | .memory b =>
    if !b.available then (.error (.memoryDown p.id), h)
    else match b.topics.find? (·.1 == topic) with
      | none => (.ok (), h)
      | some (_, channel) =>
        (.ok (), (h.setMemory p.id { b with topics := b.topics.filter (·.1 != topic) }).endChannel
          channel)
  | .nats =>
    let (r, s) := h.server.deleteStream topic
    (r, { h with server := s })

def hasTopic (h : Hub) (id topic : String) : Bool :=
  ((h.memory? id).map fun b => b.topics.any (·.1 == topic)).getD false

def setAvailable (h : Hub) (id : String) (up : Bool) : Hub :=
  h.updateMemory id fun b => { b with available := up }

/-- Gives up the receivers of a consumer, and with them the subscriptions behind them. -/
def release (h : Hub) (c : Consumer) : Hub :=
  { h with server := h.server.unsubscribe ((c.line.map Line.channels).getD []) }

def dropConsumer (h : Hub) (id : ConsumerId) : Hub :=
  match h.consumers[id]? with
  | none => h
  | some c => (h.release c).setConsumer id { c with line := none, closed := true }

def closeConsumer (h : Hub) (id : ConsumerId) : Hub :=
  match h.consumers[id]? with
  | none => h
  | some c =>
    if c.closed then h
    else
      let h := (h.release c).setConsumer id { c with line := none, closed := true }
      h.updateMemory c.provider fun b => { b with closed := b.closed + 1 }

/-! ## What happens on the server's side -/

def publish (h : Hub) (topic : String) (payload : List UInt8) : Hub :=
  (h.server.audience topic).foldl (fun h c => h.send none c ⟨topic, payload⟩) h

def cut (h : Hub) : Hub :=
  let channels := h.server.subscriptions.map (·.channel)
  let h := { h with server := { h.server with subscriptions := [] } }
  channels.foldl endChannel h

/-! ## The next event of a consumer -/

inductive Awaiting where
  | news
  | retry (atMs : Nat)
  deriving DecidableEq, Repr

inductive Polled where
  | event (e : BrokerEvent)
  | ended
  | failed (e : BrokerError)
  | pending (a : Awaiting)
  deriving DecidableEq

/-- What a consumer comes to before it thinks of a retry. -/
inductive Heard where
  | settled (p : Polled)
  | lost

def eventOf (key : SourceKey) (m : Message) (partition? : Option Nat) : Polled :=
  .event ⟨key, m.topic, m.payload, partition?⟩

/-- Listens to the receivers, if there is anything to listen to. When a memory broker is down and a
message waits as well, the broker is seen to be down. -/
def listen (h : Hub) (id : ConsumerId) (c : Consumer) : Heard × Hub :=
  let taken := c.line.map Line.take
  match h.memory? c.provider, taken with
  | some b, some taken =>
    if !b.available then (.lost, h)
    else match taken with
      | .message m line =>
        (.settled (eventOf c.key m (some 0)),
          h.setConsumer id { c with line := some line, backoff := c.backoff.reset })
      | .waiting line => (.settled (.pending .news), h.setConsumer id { c with line := some line })
      | .ended => (.settled .ended, h.setConsumer id { c with line := some ⟨[], []⟩ })
  | some b, none => if !b.available then (.lost, h) else (.settled .ended, h)
  | none, some (.message m line) =>
    (.settled (eventOf c.key m none),
      h.setConsumer id { c with line := some line, backoff := c.backoff.reset })
  | none, some (.waiting line) =>
    (.settled (.pending .news), h.setConsumer id { c with line := some line })
  | none, some .ended => (.lost, h.setConsumer id { c with line := none })
  | none, none => (.lost, h)

def exhausted (h : Hub) (c : Consumer) : BrokerError :=
  if (h.memory? c.provider).isSome then .memoryLost c.backoff.attempts
  else .subscriptionLost c.key c.backoff.attempts

/-- The end of a wait: subscriptions that were lost are made again, all or none. -/
def renew (h : Hub) (id : ConsumerId) : Hub :=
  match h.consumers[id]? with
  | none => h
  | some c =>
    if (h.memory? c.provider).isSome || c.closed then h
    else match h.subscribeAll c.key with
      | (.ok channels, h) => h.setConsumer id { c with line := some ⟨channels.map fresh, []⟩ }
      | (.error _, h) => h

/-- The loop of a call up to its first wait that takes time. A retry without a delay is made at
once. -/
def pollFuel : Nat → Nat → ConsumerId → Hub → Polled × Hub
  | 0, _, _, h => (.pending .news, h)
  | fuel + 1, now, id, h =>
    match h.consumers[id]? with
    | none => (.ended, h)
    | some c =>
      if c.closed then (.ended, h)
      else match h.listen id c with
        | (.settled p, h) => (p, h)
        | (.lost, h) =>
          match h.consumers[id]? with
          | none => (.ended, h)
          | some c =>
            match c.backoff.next? with
            | none => (.failed (h.exhausted c), h)
            | some (delay, backoff) =>
              let h := h.setConsumer id { c with backoff := backoff }
              if delay = 0 then pollFuel fuel now id (h.renew id)
              else (.pending (.retry (now + delay)), h)

/-- Each turn of the loop takes one retry of the budget. -/
def pollBudget (h : Hub) (id : ConsumerId) : Nat :=
  match h.consumers[id]? with
  | none => 1
  | some c => c.backoff.policy.maxRetries - c.backoff.attempts + 1

/-- Goes on with a call for the next event. A call that is given up loses its wait, while the
retry it waited for stays counted. -/
def poll (h : Hub) (now : Nat) (id : ConsumerId) (a : Awaiting) : Polled × Hub :=
  match a with
  | .news => pollFuel (h.pollBudget id) now id h
  | .retry t =>
    if now < t then (.pending a, h)
    else
      let h := h.renew id
      pollFuel (h.pollBudget id) now id h

end Hub

end SubscriptionGateway.Broker
