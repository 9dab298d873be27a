import SubscriptionGateway.Server.Action
import SubscriptionGateway.Server.Target

/-!
What clients do to a server.
-/
namespace SubscriptionGateway.Server

abbrev World := Running Server Action

namespace World

def map (w : World) (f : Server → Server) : World := { w with state := f w.state }

def advance (w : World) (ms : Nat) : World := Running.advance machine w ms

def openSocket (w : World) (header : Option String) (capacity : Nat) (stalled : Bool) :
    PeerId × World :=
  let s := w.state
  let k := s.peers.length
  let protocol := WebSocket.Protocol.negotiate header
  let peer : Peer :=
    { protocol := protocol, connection? := none, initDue := s.now + s.settings.initTimeoutMs
      wire := { capacity := capacity, stalled := stalled } }
  if s.blocked then
    (k, (w.map fun s => { s with peers := s.peers ++ [peer] }).spawn [.readBlocked k])
  else
    let (c, e) := s.engine.openConnection .webSocket
    let s := { s with engine := e, peers := s.peers ++ [{ peer with connection? := some c }] }
    (k, (({ w with state := s }.spawn [.pick k]).spawn (s.readOn k).next))

def canSend (w : World) (k : PeerId) : Bool :=
  match w.state.peers[k]? with
  | some p => !p.ended && !p.wire.isOver && !p.closing && !p.incoming.any fun
      | .close => true
      | .lost => true
      | _ => false
  | none => false

def send (w : World) (k : PeerId) (i : Incoming) : Bool × World :=
  if w.canSend k then
    (true, w.map (·.updatePeer k fun p => { p with incoming := p.incoming ++ [i] }))
  else (false, w)

def dropPeer (w : World) (k : PeerId) : World :=
  w.map (·.updatePeer k fun p => { p with gone := true, incoming := p.incoming ++ [.lost] })

def resumePeer (w : World) (k : PeerId) : World := w.map (·.updatePeer k (·.onWire Wire.resume))

/-- The client of a stream goes away. A request that waits for its response is still served
first. -/
def dropStream (w : World) (k : StreamId) : World :=
  w.map (·.updateStream k fun x => { x with gone := true })

/-- What the request of a task waits for in the middle of its call, and its stream. -/
def suspended? (w : World) (place : Nat) : Option (Engine.Action × StreamId) :=
  match w.tasks[place]? with
  | some [.engine a, .answerStream k _] => if a.suspends then some (a, k) else none
  | _ => none

/-- The client of a request goes away before there is a response: the call is given up where it
waits, and nobody will read what is handed over to its connection. -/
def dropRequest (w : World) (place : Nat) : World :=
  match w.suspended? place with
  | none => w
  | some (a, k) =>
    let s := w.state.mapEngine (·.giveUp a)
    let s := match s.streams[k]?.bind (·.connection?) with
      | some c => s.mapEngine (·.stopReading c)
      | none => s
    dropStream { state := s, tasks := w.tasks.eraseIdx place } k

def notAcceptable : Response :=
  ⟨406, "subscriptions over HTTP require Accept: " ++ EventStream.mediaType⟩

def malformed : Response := ⟨400, "invalid GraphQL request"⟩

/-- A request for an event stream: the response, unless it has to be waited for, and the stream
when there is one. -/
def requestStream (w : World) (accept : List String) (body : List UInt8) :
    Option Response × Option StreamId × World :=
  if !EventStream.accepted accept then (some notAcceptable, none, w)
  else match Request.readBytes? body with
    | none => (some malformed, none, w)
    | some r =>
      let s := w.state
      let k := s.streams.length
      if s.blocked then
        let x : Streaming := { connection? := none, response? := some opened
                               pending := EventStream.refusal WebSocket.Session.blockedPayload }
        (some opened, some k, (w.map fun s => { s with streams := s.streams ++ [x] }).spawn
          [.stream k s.nextKeepAlive])
      else
        let (c, e) := s.engine.openConnection .eventStream
        let s : Server :=
          { s with engine := e, streams := s.streams ++ [{ connection? := some c }] }
        let (call, todo, s) := s.ask (Engine.World.subscribe c EventStream.clientId r)
        (none, some k, ({ w with state := s } : World).spawn (todo ++ [Action.answerStream k call]))

def openStream (w : World) (accept : List String) (body : List UInt8) :
    Response × Option StreamId × World :=
  match w.requestStream accept body with
  | (some response, k?, w) => (response, k?, w)
  | (none, k?, w) =>
    let answer (s : Server) : Option Response := (k?.bind (s.streams[·]?)).bind (·.response?)
    let w := w.await machine fun s => (answer s).isSome
    ((answer w.state).getD opened, k?, w)

def beginShutdown (w : World) (drainMs : Nat) : CallId × World :=
  let (call, todo, s) := w.state.ask (Engine.World.shutdownAll drainMs)
  (call, ({ w with state := s } : World).spawn todo)

def shutdown (w : World) (drainMs : Nat) : World :=
  let (call, w) := w.beginShutdown drainMs
  w.await machine fun s => (s.engine.reply? call).isSome

def received (w : World) (k : PeerId) : List Item × World :=
  match w.state.peers[k]? with
  | some p => (p.wire.take.1, w.map (·.updatePeer k fun p => { p with wire := p.wire.take.2 }))
  | none => ([], w)

def receivedChunks (w : World) (k : StreamId) : List Item × World :=
  match w.state.streams[k]? with
  | some x => (x.wire.take.1, w.map (·.updateStream k fun x => { x with wire := x.wire.take.2 }))
  | none => ([], w)

end World

/-! ## Plain requests -/

def health (s : Server) : Json :=
  .object <| [("active_subscriptions", .ofNat s.engine.counters.subscriptions),
    ("open_connections", .ofNat s.engine.counters.connections),
    ("messages_sent", .ofNat s.engine.counters.messages),
    ("bindings", .ofNat s.engine.listed.length), ("accepting", .bool s.engine.accepting)]

def respond (s : Server) (method target : String) : Response :=
  let get (r : Response) : Response :=
    if method = "GET" then r else if method = "HEAD" then { r with body := "" } else ⟨405, ""⟩
  match (Target.path? target).filter fun _ => Target.isMethod method with
  | none => ⟨400, ""⟩
  | some path =>
    if method = "OPTIONS" then ⟨200, ""⟩
    else match path with
      | "/health" => get ⟨200, "Event router is running"⟩
      | "/health/subscriptions" => get ⟨200, s.health.text⟩
      | "/graphql" =>
        if method = "POST" then World.notAcceptable
        else if method = "HEAD" then ⟨405, ""⟩
        else get ⟨400, "Connection header did not include 'upgrade'"⟩
      | _ => ⟨404, ""⟩

end SubscriptionGateway.Server
