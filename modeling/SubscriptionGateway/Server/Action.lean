import SubscriptionGateway.Server.State

/-!
What a server does besides its engine. A WebSocket client has a reader, which handles one message
after the other, and a writer, which sends the messages of the session, then the frames of the
engine, and stops when the connection is cancelled. When the reader ends the connection is
released, and the socket ends when the writer has ended or its time is up.
-/
namespace SubscriptionGateway.Server

inductive Action where
  | engine (a : Engine.Action)
  -- Reader
  | read (k : PeerId) (since : Nat) (cancelledBefore : Bool) (due? : Option Nat)
  | subscribed (k : PeerId) (id : String) (call : CallId)
  | unsubscribed (k : PeerId) (id : String)
  | waitForWriter (k : PeerId)
  | endSocket (k : PeerId) (due : Nat)
  -- Writer
  | pick (k : PeerId)
  | write (k : PeerId) (i : Item)
  | writeClose (k : PeerId)
  /-- Goes on when everything can be sent, writing fails or the time is up; maybe to its end. -/
  | flush (k : PeerId) (isLast : Bool) (due : Nat)
  -- A client while subscriptions are blocked
  | readBlocked (k : PeerId)
  | writeBlocked (k : PeerId) (i : Item)
  | writeCloseBlocked (k : PeerId)
  | flushBlocked (k : PeerId)
  | endBlocked (k : PeerId)
  -- Event streams
  | answerStream (k : StreamId) (call : CallId)
  | refuseStream (k : StreamId) (payload : Json)
  | stream (k : StreamId) (keepAliveDue : Nat)

/-! ## What may go on -/

def look (s : Server) (p : Peer) (since : Nat) (cancelledBefore : Bool) :
    Option (WebSocket.Readiness Incoming) :=
  s.settings.readStrategy.look cancelledBefore (s.isCancelled p.connection?) (s.now - since) p.news

def ready (s : Server) : Action → Bool
  | .engine a => s.engine.ready a
  | .read k since before _ =>
    match s.peers[k]? with
    | none => true
    | some p => (s.look p since before).isSome || (!p.acknowledged && p.initDue ≤ s.now)
  | .endSocket k due =>
    match s.peers[k]? with
    | none => true
    | some p => !p.writing || due ≤ s.now
  | .pick k =>
    match s.peers[k]? with
    | none => true
    | some p => p.ended || !p.control.isEmpty || s.hasFrames p.connection? ||
        s.isCancelled p.connection?
  | .flush k _ due =>
    match s.peers[k]? with
    | none => true
    | some p => p.ended || p.gone || p.canFlush || due ≤ s.now
  | .readBlocked k =>
    match s.peers[k]? with
    | none => true
    | some p => !p.incoming.isEmpty
  | .flushBlocked k =>
    match s.peers[k]? with
    | none => true
    | some p => p.gone || p.canFlush
  | .stream k due =>
    match s.streams[k]? with
    | none => true
    | some x => x.gone || x.complete || !x.pending.isEmpty || s.hasFrames x.connection? ||
        s.isCancelled x.connection? || due ≤ s.now
  | _ => true

def Action.inTurn : Action → Bool
  | .engine a => a.inTurn
  | _ => false

def Action.due? : Action → Option Nat
  | .engine a => a.due?
  | .read _ _ _ due? => due?
  | .endSocket _ due => some due
  | .flush _ _ due => some due
  | .stream _ due => some due
  | _ => none

/-! ## What is done -/

structure Effect where
  server : Server
  next : List Action := []
  started : List (List Action) := []

def ofEngine (s : Server) (r : Engine.Effect) : Effect :=
  ⟨{ s with engine := r.engine }, r.next.map .engine, r.started.map (·.map .engine)⟩

def ask (s : Server) (task : CallId → List Engine.Action) : CallId × List Action × Server :=
  let (call, e) := s.engine.newCall
  (call, (task call).map .engine, { s with engine := e })

def earlier? : Option Nat → Option Nat → Option Nat
  | some a, some b => some (min a b)
  | some a, none => some a
  | none, b => b

def readOn (s : Server) (k : PeerId) : Effect :=
  match s.peers[k]? with
  | none => ⟨s, [], []⟩
  | some p =>
    let init? := if p.acknowledged then none else some p.initDue
    ⟨s, [.read k s.now (s.isCancelled p.connection?)
      (earlier? (s.settings.readStrategy.due? s.now) init?)], []⟩

def tell (s : Server) (k : PeerId) (ms : List WebSocket.ServerMessage) : Server :=
  s.updatePeer k fun p => { p with control := p.control ++ ms }

/-- Ends a session: the connection is released, and then the writer awaited. -/
def hangUp (s : Server) (k : PeerId) : Effect :=
  match s.peers[k]? with
  | none => ⟨s, [], []⟩
  | some p =>
    match p.connection? with
    | none => ⟨s, [.waitForWriter k], []⟩
    | some c =>
      let (_, todo, s) := s.ask (Engine.World.release c)
      ⟨s, todo ++ [.waitForWriter k], []⟩

def closeWith (s : Server) (k : PeerId) (code : Nat) (reason : String) : Effect :=
  (s.tell k [.close code reason]).hangUp k

def react (s : Server) (k : PeerId) (c : ConnectionId) : WebSocket.Reaction → Effect
  | .reply ms => (s.tell k ms).readOn k
  | .acknowledge ms =>
    ((s.tell k ms).updatePeer k fun p => { p with acknowledged := true }).readOn k
  | .close code reason => s.closeWith k code reason
  | .subscribe id r =>
    let (call, todo, s) := s.ask (Engine.World.subscribe c id r)
    ⟨s, todo ++ [.subscribed k id call], []⟩
  | .unsubscribe id sub =>
    let (_, todo, s) := s.ask (Engine.World.unsubscribe sub)
    ⟨s, todo ++ [.unsubscribed k id], []⟩
  | .leave => s.hangUp k

def onItem (s : Server) (k : PeerId) (p : Peer) (c : ConnectionId) : Incoming → Effect
  | .text t =>
    s.react k c (WebSocket.Session.onText p.protocol p.acknowledged (s.engine.owned c)
      s.settings.maxSubscriptions t)
  | .binary => s.closeWith k WebSocket.CloseCode.invalidMessage "Binary messages are not supported"
  | .ping payload =>
    if Item.controlLimit < payload.length then s.hangUp k
    else (s.updatePeer k (·.answerPing payload)).readOn k
  | .pong payload => if Item.controlLimit < payload.length then s.hangUp k else s.readOn k
  | .close => (s.updatePeer k fun p => { p with closing := true }).hangUp k
  | .lost => s.hangUp k

def readNext (s : Server) (k : PeerId) (since : Nat) (before : Bool) : Effect :=
  match s.peers[k]? with
  | none => ⟨s, [], []⟩
  | some p =>
    match p.connection?, s.look p since before with
    | some c, some (.item i) =>
      (s.updatePeer k fun p => { p with incoming := p.incoming.tail }).onItem k p c i
    | _, some .idle => s.readOn k
    | _, some _ => s.hangUp k
    | _, none => s.closeWith k WebSocket.CloseCode.initTimeout "Connection initialisation timeout"

/-- A writer that ends leaves the frames of the engine to nobody. -/
def stopWriting (s : Server) (k : PeerId) : Server :=
  let s := s.updatePeer k fun p => { p with writing := false }
  match s.peers[k]?.bind (·.connection?) with
  | some c => s.mapEngine (·.stopReading c)
  | none => s

def finishSocket (s : Server) (k : PeerId) : Server :=
  (s.stopWriting k).updatePeer k fun p => { p with ended := true, wire := p.wire.cut }

def itemOf? (p : WebSocket.Protocol) : WebSocket.ServerMessage → Option Item
  | .close code reason => some (.close (some (code, reason)))
  | m => (p.encode? m).map .text

def sendMessage (s : Server) (k : PeerId) (p : Peer) (m : WebSocket.ServerMessage) : Effect :=
  match itemOf? p.protocol m with
  | some i => ⟨s, [.write k i], []⟩
  | none => ⟨s, [.pick k], []⟩

/-- First what the session says, then what the engine says, then whether to stop. -/
def pickNext (s : Server) (k : PeerId) : Effect :=
  match s.peers[k]? with
  | none => ⟨s, [], []⟩
  | some p =>
    if p.ended then ⟨s, [], []⟩
    else match p.control with
      | m :: rest => (s.updatePeer k fun p => { p with control := rest }).sendMessage k p m
      | [] =>
        match p.connection? with
        | none => ⟨s, [], []⟩
        | some c =>
          match s.engine.takeFrames c 1 with
          | (f :: _, e) => { s with engine := e }.sendMessage k p (.ofFrame f)
          | ([], _) => ⟨s, [.writeClose k], []⟩

def writeItem (s : Server) (k : PeerId) (i : Item) : Effect :=
  match s.peers[k]? with
  | none => ⟨s, [], []⟩
  | some p =>
    if p.ended then ⟨s, [], []⟩
    else if p.broken then
      if i.isClose then ⟨s.stopWriting k, [], []⟩ else ⟨s, [.writeClose k], []⟩
    else
      ⟨s.updatePeer k fun p => (p.push i).onWire Wire.send,
        [.flush k i.isClose (s.now + s.grace)], []⟩

def writeClose (s : Server) (k : PeerId) : Server :=
  s.updatePeer k fun p => if p.ended || p.gone then p else p.pushClose.onWire Wire.send

/-- A writer whose time is up takes its connection with it. -/
def flush (s : Server) (k : PeerId) (isLast : Bool) : Effect :=
  match s.peers[k]? with
  | none => ⟨s, [], []⟩
  | some p =>
    if p.ended then ⟨s, [], []⟩
    else if p.gone then
      if isLast then ⟨s.stopWriting k, [], []⟩ else ⟨s, [.writeClose k], []⟩
    else if p.canFlush then
      let s := s.updatePeer k (·.flush)
      if isLast then ⟨s.stopWriting k, [], []⟩ else ⟨s, [.pick k], []⟩
    else if isLast then ⟨s.stopWriting k, [], []⟩
    else
      let s := match p.connection? with
        | some c => s.mapEngine (·.cancelConnection c)
        | none => s
      ⟨s.stopWriting k, [], []⟩

def hangUpBlocked (s : Server) (k : PeerId) : Effect :=
  ⟨s, [.writeCloseBlocked k, .flushBlocked k, .endBlocked k], []⟩

def readBlocked (s : Server) (k : PeerId) : Effect :=
  match s.peers[k]? with
  | none => ⟨s, [], []⟩
  | some p =>
    let s := s.updatePeer k fun p => { p with incoming := p.incoming.tail }
    match p.incoming with
    | [] => ⟨s, [.readBlocked k], []⟩
    | .text t :: _ =>
      match WebSocket.Session.onTextBlocked p.protocol t with
      | none => s.hangUpBlocked k
      | some ms =>
        ⟨s, ((ms.filterMap (itemOf? p.protocol)).flatMap fun i =>
          [.writeBlocked k i, .flushBlocked k]) ++ [.readBlocked k], []⟩
    | .ping payload :: _ =>
      if Item.controlLimit < payload.length then s.hangUpBlocked k
      else ⟨s.updatePeer k (·.answerPing payload), [.readBlocked k], []⟩
    | .pong payload :: _ =>
      if Item.controlLimit < payload.length then s.hangUpBlocked k else ⟨s, [.readBlocked k], []⟩
    | .close :: _ => (s.updatePeer k fun p => { p with closing := true }).hangUpBlocked k
    | .lost :: _ => s.hangUpBlocked k
    | .binary :: _ => ⟨s, [.readBlocked k], []⟩

/-! ### Event streams -/

def emit (s : Server) (k : StreamId) (chunk : String) : Server :=
  s.updateStream k fun x => { x with wire := (x.wire.push (.chunk chunk)).flush }

def endStream (s : Server) (k : StreamId) (x : Streaming) : Effect :=
  let s := s.updateStream k fun x => { x with wire := x.wire.cut, complete := true }
  match x.connection? with
  | none => ⟨s, [], []⟩
  | some c =>
    let (_, todo, s) := s.ask (Engine.World.release c)
    ⟨s, [], [todo]⟩

def nextKeepAlive (s : Server) : Nat := s.now + s.settings.keepAliveMs

def streamNext (s : Server) (k : StreamId) : Effect :=
  match s.streams[k]? with
  | none => ⟨s, [], []⟩
  | some x =>
    if x.gone then s.endStream k x
    else match x.pending with
      | chunk :: rest =>
        let s := (s.emit k chunk).updateStream k fun x =>
          { x with pending := rest, complete := rest.isEmpty }
        ⟨s, [.stream k s.nextKeepAlive], []⟩
      | [] =>
        if x.complete then s.endStream k x
        else match x.connection? with
          | none => s.endStream k x
          | some c =>
            match s.engine.takeFrames c 1 with
            | (f :: _, e) =>
              let s := ({ s with engine := e }.emit k (EventStream.chunk f)).updateStream k fun x =>
                { x with complete := !f.isMessage }
              ⟨s, [.stream k s.nextKeepAlive], []⟩
            | ([], _) =>
              if s.isCancelled x.connection? then s.endStream k x
              else ⟨s.emit k EventStream.keepAlive, [.stream k s.nextKeepAlive], []⟩

def opened : Response := ⟨200, ""⟩

def answerStream (s : Server) (k : StreamId) (call : CallId) : Effect :=
  match s.engine.reply? call, s.streams[k]? with
  | some (.failed f), some x =>
    let payload := Outcome.errorsBody [{ message := f.clientMessage }]
    match x.connection? with
    | none => ⟨s, [.refuseStream k payload], []⟩
    | some c =>
      let (_, todo, s) := s.ask (Engine.World.release c)
      ⟨s, todo ++ [.refuseStream k payload], []⟩
  | _, _ =>
    ⟨s.updateStream k fun x => { x with response? := some opened }, [.stream k s.nextKeepAlive], []⟩

def refuseStream (s : Server) (k : StreamId) (payload : Json) : Effect :=
  ⟨s.updateStream k fun x =>
    { x with
      response? := some opened, connection? := none, pending := EventStream.refusal payload },
    [.stream k s.nextKeepAlive], []⟩

def perform (s : Server) : Action → Effect
  | .engine a => s.ofEngine (s.engine.perform a)
  | .read k since before _ => s.readNext k since before
  | .subscribed k id call =>
    match s.engine.reply? call with
    | some (.failed f) => (s.tell k (WebSocket.Session.rejection id f.clientMessage)).readOn k
    | _ => s.readOn k
  | .unsubscribed k id =>
    match s.peers[k]? with
    | some p => (s.tell k (WebSocket.Session.unsubscribed p.protocol id)).readOn k
    | none => ⟨s, [], []⟩
  | .waitForWriter k => ⟨s, [.endSocket k (s.now + s.grace)], []⟩
  | .endSocket k _ => ⟨s.finishSocket k, [], []⟩
  | .pick k => s.pickNext k
  | .write k i => s.writeItem k i
  | .writeClose k => ⟨s.writeClose k, [.flush k true (s.now + s.grace)], []⟩
  | .flush k isLast _ => s.flush k isLast
  | .readBlocked k => s.readBlocked k
  | .writeBlocked k i =>
    ⟨s.updatePeer k fun p => if p.broken then p else (p.push i).onWire Wire.send, [], []⟩
  | .writeCloseBlocked k => ⟨s.writeClose k, [], []⟩
  | .flushBlocked k => ⟨s.updatePeer k fun p => if p.gone then p else p.flush, [], []⟩
  | .endBlocked k => ⟨s.finishSocket k, [], []⟩
  | .answerStream k call => s.answerStream k call
  | .refuseStream k payload => s.refuseStream k payload
  | .stream k _ => s.streamNext k

def machine : Machine Server Action where
  ready := ready
  inTurn := Action.inTurn
  due? := Action.due?
  perform s a := let r := s.perform a; (r.server, r.next, r.started)
  now := now
  setNow s t := s.mapEngine fun e => { e with now := t }

end SubscriptionGateway.Server
