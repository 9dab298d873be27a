import SubscriptionGateway.Event.SourceKey

/-!
Receivers of a consumer, and how a consumer with several takes turns among them. The receivers
stand in a line. The head is asked: with a message waiting it gives one and goes to the end;
without one it leaves, and joins the end again at its next message. A receiver whose channel has
ended leaves for good once it is empty.
-/
namespace SubscriptionGateway.Broker

abbrev ChannelId := Nat

structure Message where
  topic : String
  payload : List UInt8
  deriving DecidableEq

structure Receiver where
  channel : ChannelId
  queue : List Message := []
  lagged : Bool := false
  ended : Bool := false
  /-- When it first had news since it left the line. -/
  newsAt : Option Nat := none
  deriving DecidableEq

namespace Receiver

def noted (r : Receiver) (stamp : Nat) : Option Nat := r.newsAt.or (some stamp)

def push (window : Option Nat) (stamp : Nat) (m : Message) (r : Receiver) : Receiver :=
  let queue := r.queue ++ [m]
  let excess := match window with
    | some n => queue.length - n
    | none => 0
  { r with
    queue := queue.drop excess
    lagged := r.lagged || decide (0 < excess)
    newsAt := r.noted stamp }

def finish (stamp : Nat) (r : Receiver) : Receiver :=
  { r with ended := true, newsAt := r.noted stamp }

end Receiver

structure Line where
  asked : List Receiver
  parked : List Receiver := []
  deriving DecidableEq

namespace Line

def receivers (l : Line) : List Receiver := l.asked ++ l.parked

def channels (l : Line) : List ChannelId := l.receivers.map (·.channel)

def map (f : Receiver → Receiver) (l : Line) : Line := ⟨l.asked.map f, l.parked.map f⟩

def insertByNews (at_ : Nat) (r : Receiver) : List (Nat × Receiver) → List (Nat × Receiver)
  | [] => [(at_, r)]
  | (t, s) :: rest =>
    if at_ < t then (at_, r) :: (t, s) :: rest else (t, s) :: insertByNews at_ r rest

/-- The receivers with news, in the order in which the news came. -/
def awake (parked : List Receiver) : List Receiver :=
  (parked.foldl (fun acc r => match r.newsAt with
    | some t => insertByNews t r acc
    | none => acc) []).map (·.2)

def rejoin (l : Line) : Line :=
  ⟨l.asked ++ awake l.parked, l.parked.filter (·.newsAt.isNone)⟩

inductive Round where
  | message (m : Message) (line : Line)
  /-- Nobody gave one; those that had dropped messages are to be asked again. -/
  | silent (again parked : List Receiver)

def round (again parked : List Receiver) : List Receiver → Round
  | [] => .silent again parked
  | r :: rest =>
    if r.lagged then round (again ++ [{ r with lagged := false }]) parked rest
    else match r.queue with
      | m :: queue => .message m ⟨rest ++ again ++ [{ r with queue := queue }], parked⟩
      | [] =>
        if r.ended then round again parked rest
        else round again (parked ++ [{ r with newsAt := none }]) rest

inductive Taken where
  | message (m : Message) (line : Line)
  | waiting (line : Line)
  | ended

/-- One message by turns. Nobody lags in the second round. -/
def take (l : Line) : Taken :=
  let l := l.rejoin
  match round [] l.parked l.asked with
  | .message m line => .message m line
  | .silent again parked =>
    match round [] parked again with
    | .message m line => .message m line
    | .silent again parked =>
      if again.isEmpty && parked.isEmpty then .ended else .waiting ⟨again, parked⟩

end Line

end SubscriptionGateway.Broker
