import SubscriptionGateway.Engine.Machine
import SubscriptionGateway.Server.EventStream
import SubscriptionGateway.Server.Wire

/-!
A server: the engine, the sockets of WebSocket clients and the responses that stream events.
-/
namespace SubscriptionGateway

namespace Server

abbrev PeerId := Nat
abbrev StreamId := Nat

structure Peer where
  protocol : WebSocket.Protocol
  /-- None while subscriptions are blocked. -/
  connection? : Option ConnectionId
  acknowledged : Bool := false
  /-- When a client that has not greeted is let go. -/
  initDue : Nat
  incoming : List Incoming := []
  closing : Bool := false
  /-- The server has said that it closes, or has answered that the client does. -/
  hasClosed : Bool := false
  gone : Bool := false
  /-- Messages of the session itself; they go out before frames of the engine. -/
  control : List WebSocket.ServerMessage := []
  writing : Bool := true
  wire : Wire := {}
  ended : Bool := false

structure Response where
  status : Nat
  body : String
  deriving DecidableEq, Repr

structure Streaming where
  connection? : Option ConnectionId
  response? : Option Response := none
  /-- Chunks that do not come from the engine. -/
  pending : List String := []
  /-- The last chunk is out. -/
  complete : Bool := false
  gone : Bool := false
  wire : Wire := {}

end Server

structure Server where
  settings : EngineSettings
  blocked : Bool := false
  engine : Engine
  peers : List Server.Peer := []
  streams : List Server.Streaming := []

namespace Server

def updatePeer (s : Server) (k : PeerId) (f : Peer → Peer) : Server :=
  { s with peers := s.peers.modify k f }

def updateStream (s : Server) (k : StreamId) (f : Streaming → Streaming) : Server :=
  { s with streams := s.streams.modify k f }

def mapEngine (s : Server) (f : Engine → Engine) : Server := { s with engine := f s.engine }

def now (s : Server) : Nat := s.engine.now

def isCancelled (s : Server) (connection? : Option ConnectionId) : Bool :=
  match connection? with
  | some c => s.engine.isCancelled c
  | none => false

def hasFrames (s : Server) (connection? : Option ConnectionId) : Bool :=
  match connection?.bind (s.engine.connections[·]?) with
  | some x => !x.queue.isEmpty
  | none => false

def grace (s : Server) : Nat := s.settings.slowConsumerGraceMs

namespace Peer

def news (p : Peer) : Option (WebSocket.Readiness Incoming) :=
  p.incoming.head?.map .item

/-- Something happens on the wire. A client that reads a close answers it. -/
def onWire (p : Peer) (f : Wire → Wire) : Peer :=
  let wire := f p.wire
  let answered := (wire.read.drop p.wire.read.length).any Item.isClose && !p.closing
  { p with
    wire := wire
    incoming := if answered then p.incoming ++ [.close] else p.incoming }

def push (p : Peer) (i : Item) : Peer :=
  { p with wire := p.wire.push i, hasClosed := p.hasClosed || i.isClose }

/-- Says that the server closes, or answers that the client does, unless that has been said. -/
def pushClose (p : Peer) : Peer := if p.hasClosed then p else p.push (.close none)

def answerPing (p : Peer) (payload : List UInt8) : Peer :=
  if p.hasClosed then p else (p.push (.pong payload)).onWire Wire.send

/-- Whether the writer can go on. What a client that closes is told last goes out before. -/
def canFlush (p : Peer) : Bool :=
  p.wire.canFlush (if p.closing && !p.hasClosed then (Item.close none).bytes else 0)

def flush (p : Peer) : Peer :=
  (if p.closing && !p.wire.isFlushed then p.pushClose else p).onWire Wire.flush

def broken (p : Peer) : Bool := p.closing || p.gone

end Peer

end Server

end SubscriptionGateway
