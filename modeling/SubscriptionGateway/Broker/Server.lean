import SubscriptionGateway.Broker.Error
import SubscriptionGateway.Broker.Receiver
import SubscriptionGateway.Broker.StreamName

/-!
A message server: the subscriptions it holds, each with a channel of its own, and the streams that
keep subjects. Any of its calls may be made to fail, at once or after some successes; a call that
fails changes nothing. Subjects are tokens between dots; in a pattern over them `*` stands for any
one token and `>` for one or more tokens up to the end.
-/
namespace SubscriptionGateway.Broker

def tokens (subject : String) : List String :=
  (subject.toList.splitOn '.').map String.ofList

def tokensMatch : List String → List String → Bool
  | [], [] => true
  | ">" :: _, _ :: _ => true
  | p :: ps, t :: ts => (p == "*" || p == t) && tokensMatch ps ts
  | _, _ => false

def subjectMatches (pattern subject : String) : Bool :=
  tokensMatch (tokens pattern) (tokens subject)

structure Subscribed where
  channel : ChannelId
  subject : String
  deriving DecidableEq

structure Stream where
  subjects : List String
  replicas : Nat
  deriving DecidableEq

structure Server where
  up : Bool := true
  addresses : List String := []
  /-- How often a call still succeeds; without an entry, always. -/
  allowances : List (Call × Nat) := []
  subscriptions : List Subscribed := []
  streams : List (String × Stream) := []

namespace Server

def limit (s : Server) (c : Call) (n : Option Nat) : Server :=
  let others := s.allowances.filter (·.1 != c)
  { s with allowances := match n with
      | some n => (c, n) :: others
      | none => others }

def grant (s : Server) (c : Call) : Bool × Server :=
  match s.allowances.find? (·.1 == c) with
  | none => (true, s)
  | some (_, 0) => (false, s)
  | some (_, n + 1) => (true, s.limit c (some n))

def address (urls : List String) : String :=
  if urls.isEmpty then "nats://localhost:4222" else ",".intercalate urls

def connect (s : Server) (urls : List String) : Except BrokerError Server :=
  if s.up then .ok { s with addresses := s.addresses ++ [address urls] }
  else .error (.connect (address urls))

def unsubscribe (s : Server) (channels : List ChannelId) : Server :=
  { s with subscriptions := s.subscriptions.filter fun x => !channels.contains x.channel }

/-- Subscribes to subjects in turn on the channels from `channel` on; a failure leaves none of
them. -/
def subscribeAll (s : Server) (channel : ChannelId) (made : List ChannelId) :
    List String → Except BrokerError (List ChannelId) × Server
  | [] =>
    match s.grant .flush with
    | (true, s) => (.ok made, s)
    | (false, s) => (.error .flushSubscriptions, s.unsubscribe made)
  | subject :: rest =>
    match s.grant .subscribe with
    | (false, s) => (.error (.subscribe subject), s.unsubscribe made)
    | (true, s) =>
      subscribeAll { s with subscriptions := s.subscriptions ++ [⟨channel, subject⟩] }
        (channel + 1) (made ++ [channel]) rest

def audience (s : Server) (subject : String) : List ChannelId :=
  (s.subscriptions.filter fun x => subjectMatches x.subject subject).map (·.channel)

def subjects (s : Server) : List String := s.subscriptions.map (·.subject)

def createStream (s : Server) (subject : String) (replication : Int) :
    Except BrokerError Unit × Server :=
  let name := streamName subject
  match s.grant .createStream with
  | (false, s) => (.error (.createStream name), s)
  | (true, s) =>
    if s.streams.any (·.1 == name) then (.ok (), s)
    else (.ok (),
      { s with streams := s.streams ++ [(name, ⟨[subject], (max replication 1).toNat⟩)] })

def deleteStream (s : Server) (subject : String) : Except BrokerError Unit × Server :=
  let name := streamName subject
  if s.streams.any (·.1 == name) then
    match s.grant .deleteStream with
    | (false, s) => (.error (.deleteStream name), s)
    | (true, s) => (.ok (), { s with streams := s.streams.filter (·.1 != name) })
  else (.ok (), s)

end Server

end SubscriptionGateway.Broker
