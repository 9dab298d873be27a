import SubscriptionGateway.Event.SourceKey
import SubscriptionGateway.Fault

/-!
What brokers refuse and why consumers give up.
-/
namespace SubscriptionGateway.Broker

inductive Call where
  | subscribe
  | publish
  | flush
  | createStream
  | deleteStream
  deriving DecidableEq, Repr

def Call.word : Call → String
  | .subscribe => "subscribe"
  | .publish => "publish"
  | .flush => "flush"
  | .createStream => "create_stream"
  | .deleteStream => "delete_stream"

inductive BrokerError where
  | memoryDown (provider : String)
  | connect (servers : String)
  | subscribe (subject : String)
  | flushSubscriptions
  | publish (subject : String)
  | flushPublish (subject : String)
  | createStream (name : String)
  | deleteStream (name : String)
  | memoryLost (retries : Nat)
  | subscriptionLost (key : SourceKey) (retries : Nat)
  deriving DecidableEq

def Call.failure (c : Call) : String := c.word ++ " failed"

def BrokerError.fault : BrokerError → Fault
  | .memoryDown p => .sourceUnavailable s!"memory broker '{p}' is unavailable"
  | .connect servers => .sourceUnavailable s!"Failed to connect to NATS at {servers}"
  | .subscribe s => .sourceUnavailable s!"Failed to subscribe to {s}: {Call.subscribe.failure}"
  | .flushSubscriptions =>
    .sourceUnavailable s!"Failed to flush NATS subscriptions: {Call.flush.failure}"
  | .publish s => .sourceUnavailable s!"Failed to publish to {s}: {Call.publish.failure}"
  | .flushPublish s => .sourceUnavailable s!"Failed to flush publish to {s}: {Call.flush.failure}"
  | .createStream n => .source s!"Failed to create stream {n}: {Call.createStream.failure}"
  | .deleteStream n => .source s!"Failed to delete stream {n}: {Call.deleteStream.failure}"
  | .memoryLost n => .source s!"memory broker unavailable after {n} retries"
  | .subscriptionLost k n => .source s!"NATS subscription for {k.text} lost after {n} retries"

end SubscriptionGateway.Broker
