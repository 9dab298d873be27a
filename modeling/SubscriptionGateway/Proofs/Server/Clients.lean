import SubscriptionGateway.Proofs.Server.Within

/-!
What sessions say and writers send. A session says something only in what its reader does, and the
messages that it has said wait in their order until the writer takes the first of them. Who a
client is and which connection it has never changes.
-/
namespace SubscriptionGateway

namespace WebSocket

def Reaction.messages : Reaction → List ServerMessage
  | .reply ms => ms
  | .acknowledge ms => ms
  | .close code reason => [.close code reason]
  | _ => []

def Protocol.subscribes? (p : Protocol) (text : String) : Option String :=
  match p.decode text with
  | .ok (.subscribe id _) => some id
  | _ => none

def ServerMessage.id? : ServerMessage → Option String
  | .next id _ | .error id _ | .complete id => some id
  | _ => none

end WebSocket

namespace Server

open WebSocket

/-! ## Messages -/

def replies (s : Server) (p : Peer) (c : ConnectionId) : Incoming → List ServerMessage
  | .text t => (Session.onText p.protocol p.acknowledged (s.engine.owned c)
      s.settings.maxSubscriptions t).messages
  | .binary => [.close CloseCode.invalidMessage "Binary messages are not supported"]
  | _ => []

def speaks (s : Server) (k : PeerId) (since : Nat) (before : Bool) : List ServerMessage :=
  match s.peers[k]? with
  | none => []
  | some p =>
    match p.connection?, s.look p since before with
    | some c, some (.item i) => s.replies p c i
    | _, some _ => []
    | _, none => [.close CloseCode.initTimeout "Connection initialisation timeout"]

/-- What the session of a client says in an action. -/
def tells (s : Server) (k : PeerId) : Action → List ServerMessage
  | .read k' since before _ => if k' = k then s.speaks k since before else []
  | .subscribed k' id call =>
    if k' = k then
      match s.engine.reply? call with
      | some (.failed f) => Session.rejection id f.clientMessage
      | _ => []
    else []
  | .unsubscribed k' id =>
    if k' = k then
      match s.peers[k]? with
      | some p => Session.unsubscribed p.protocol id
      | none => []
    else []
  | _ => []

def asksFor? (s : Server) (k : PeerId) : Action → Option String
  | .read k' since before _ =>
    if k' = k then
      match s.peers[k]? with
      | none => none
      | some p =>
        match p.connection?, s.look p since before with
        | some _, some (.item (.text t)) => p.protocol.subscribes? t
        | _, _ => none
    else none
  | _ => none

def sends (s : Server) (k : PeerId) : Action → List ServerMessage
  | .pick k' =>
    if k' = k then
      match s.peers[k]? with
      | none => []
      | some p => if p.ended then [] else p.control.take 1
    else []
  | _ => []

def passes (s : Server) (k : PeerId) : Action → List Frame
  | .pick k' =>
    if k' = k then
      match s.peers[k]? with
      | none => []
      | some p =>
        if p.ended then []
        else match p.control, p.connection? with
          | [], some c => (s.engine.takeFrames c 1).1
          | _, _ => []
    else []
  | _ => []

/-! ## What becomes of a client -/

variable {s s' s'' : Server} {k k' : PeerId} {said more : List ServerMessage} {a : Action}

structure Follows (k : PeerId) (said : List ServerMessage) (s s' : Server) : Prop where
  count : s'.peers.length = s.peers.length
  peer : ∀ p, s.peers[k]? = some p → ∃ p', s'.peers[k]? = some p' ∧
    p'.connection? = p.connection? ∧ p'.protocol = p.protocol ∧ p'.control = p.control ++ said

theorem follows_peers (peers : s'.peers = s.peers) : Follows k [] s s' where
  count := by rw [peers]
  peer p here := ⟨p, peers ▸ here, rfl, rfl, (List.append_nil _).symm⟩

theorem follows_refl (s : Server) : Follows k [] s s := follows_peers rfl

theorem follows_trans (first : Follows k said s s') (second : Follows k more s' s'') :
    Follows k (said ++ more) s s'' where
  count := second.count.trans first.count
  peer p here := by
    obtain ⟨p', there, connection, protocol, control⟩ := first.peer p here
    obtain ⟨p'', beyond, connection', protocol', control'⟩ := second.peer p' there
    refine ⟨p'', beyond, connection'.trans connection, protocol'.trans protocol, ?_⟩
    rw [control', control, List.append_assoc]

theorem follows_quiet (first : Follows k said s s') (second : Follows k [] s' s'') :
    Follows k said s s'' := by
  simpa using follows_trans first second

theorem follows_update {f : Peer → Peer} (connection : ∀ p, (f p).connection? = p.connection?)
    (protocol : ∀ p, (f p).protocol = p.protocol)
    (control : ∀ p, (f p).control = p.control ++ said) :
    Follows k (if k' = k then said else []) s (s.updatePeer k' f) where
  count := by simp [updatePeer]
  peer p here := by
    by_cases same : k' = k
    · subst same
      exact ⟨f p, by simp [updatePeer, here], connection p, protocol p, by simp [control]⟩
    · exact ⟨p, by simp [updatePeer, same, here], rfl, rfl, by simp [same]⟩

theorem follows_silent {f : Peer → Peer} (connection : ∀ p, (f p).connection? = p.connection?)
    (protocol : ∀ p, (f p).protocol = p.protocol) (control : ∀ p, (f p).control = p.control) :
    Follows k [] s (s.updatePeer k' f) := by
  have follows : Follows k (if k' = k then [] else []) s (s.updatePeer k' f) :=
    follows_update connection protocol fun p => by simp [control]
  simpa using follows

theorem follows_tell (s : Server) (k' : PeerId) (ms : List ServerMessage) :
    Follows k (if k' = k then ms else []) s (s.tell k' ms) :=
  follows_update (fun _ => rfl) (fun _ => rfl) fun _ => rfl

theorem onWire_kept (p : Peer) (f : Wire → Wire) : (p.onWire f).connection? = p.connection? ∧
    (p.onWire f).protocol = p.protocol ∧ (p.onWire f).control = p.control := ⟨rfl, rfl, rfl⟩

theorem pushClose_kept (p : Peer) : p.pushClose.connection? = p.connection? ∧
    p.pushClose.protocol = p.protocol ∧ p.pushClose.control = p.control := by
  simp only [Peer.pushClose]
  split <;> exact ⟨rfl, rfl, rfl⟩

theorem flush_kept (p : Peer) : p.flush.connection? = p.connection? ∧
    p.flush.protocol = p.protocol ∧ p.flush.control = p.control := by
  simp only [Peer.flush]
  split
  · exact pushClose_kept p
  · exact ⟨rfl, rfl, rfl⟩

theorem answerPing_kept (p : Peer) (payload : List UInt8) :
    (p.answerPing payload).connection? = p.connection? ∧
      (p.answerPing payload).protocol = p.protocol ∧
      (p.answerPing payload).control = p.control := by
  simp only [Peer.answerPing]
  split <;> exact ⟨rfl, rfl, rfl⟩

theorem follows_kept {f : Peer → Peer} (kept : ∀ p, (f p).connection? = p.connection? ∧
    (f p).protocol = p.protocol ∧ (f p).control = p.control) :
    Follows k [] s (s.updatePeer k' f) :=
  follows_silent (fun p => (kept p).1) (fun p => (kept p).2.1) fun p => (kept p).2.2

/-! ### Readers -/

theorem readOn_server (s : Server) (k : PeerId) : (s.readOn k).server = s := by
  simp only [readOn]
  split <;> rfl

theorem hangUp_follows (s : Server) (k' : PeerId) : Follows k [] s (s.hangUp k').server := by
  simp only [hangUp]
  split
  · exact follows_refl s
  split <;> exact follows_peers rfl

theorem closeWith_follows (s : Server) (k' : PeerId) (code : Nat) (reason : String) :
    Follows k (if k' = k then [.close code reason] else []) s
      (s.closeWith k' code reason).server :=
  follows_quiet (follows_tell s k' [.close code reason]) (hangUp_follows _ k')

theorem react_follows (s : Server) (k' : PeerId) (c : ConnectionId) (r : Reaction) :
    Follows k (if k' = k then r.messages else []) s (s.react k' c r).server := by
  cases r with
  | reply ms =>
    simp only [react, readOn_server]
    exact follows_tell s k' ms
  | acknowledge ms =>
    simp only [react, readOn_server]
    exact follows_quiet (follows_tell s k' ms)
      (follows_kept fun _ => ⟨rfl, rfl, rfl⟩)
  | close code reason => exact closeWith_follows s k' code reason
  | subscribe id r =>
    simp only [Reaction.messages, ite_self]
    exact follows_peers rfl
  | unsubscribe id sub =>
    simp only [Reaction.messages, ite_self]
    exact follows_peers rfl
  | leave =>
    simp only [Reaction.messages, ite_self]
    exact hangUp_follows s k'

theorem onItem_follows (s : Server) (k' : PeerId) (p : Peer) (c : ConnectionId) (i : Incoming) :
    Follows k (if k' = k then s.replies p c i else []) s (s.onItem k' p c i).server := by
  cases i with
  | text t => exact react_follows s k' c _
  | binary => exact closeWith_follows s k' _ _
  | ping payload =>
    simp only [onItem, replies, ite_self]
    split
    · exact hangUp_follows s k'
    · rw [readOn_server]
      exact follows_kept fun p => answerPing_kept p payload
  | pong payload =>
    simp only [onItem, replies, ite_self]
    split
    · exact hangUp_follows s k'
    · rw [readOn_server]
      exact follows_refl s
  | close =>
    simp only [onItem, replies, ite_self]
    have closing : Follows k [] s (s.updatePeer k' fun p => { p with closing := true }) :=
      follows_kept fun _ => ⟨rfl, rfl, rfl⟩
    exact follows_quiet closing (hangUp_follows _ k')
  | lost =>
    simp only [onItem, replies, ite_self]
    exact hangUp_follows s k'

theorem readNext_follows (s : Server) (k' : PeerId) (since : Nat) (before : Bool) :
    Follows k (if k' = k then s.speaks k' since before else []) s
      (s.readNext k' since before).server := by
  cases here : s.peers[k']? with
  | none =>
    simp only [readNext, speaks, here, ite_self]
    exact follows_refl s
  | some p =>
    have popped : Follows k [] s
        (s.updatePeer k' fun p => { p with incoming := p.incoming.tail }) :=
      follows_kept fun _ => ⟨rfl, rfl, rfl⟩
    cases looked : s.look p since before with
    | none =>
      simp only [readNext, speaks, here, looked]
      exact closeWith_follows s k' _ _
    | some news =>
      cases connection : p.connection? with
      | none =>
        simp only [readNext, speaks, here, looked, connection, ite_self]
        cases news with
        | idle =>
          simp only [readOn_server]
          exact follows_refl s
        | item _ | closed | cancelled => exact hangUp_follows s k'
      | some c =>
        simp only [readNext, speaks, here, looked, connection]
        cases news with
        | item i =>
          have handled := onItem_follows (k := k)
            (s.updatePeer k' fun p => { p with incoming := p.incoming.tail }) k' p c i
          exact follows_trans popped handled
        | idle =>
          simp only [readOn_server, ite_self]
          exact follows_refl s
        | closed | cancelled =>
          simp only [ite_self]
          exact hangUp_follows s k'

/-! ### Writers and streams -/

theorem stopWriting_follows (s : Server) (k' : PeerId) : Follows k [] s (s.stopWriting k') := by
  have stopped : Follows k [] s (s.updatePeer k' fun p => { p with writing := false }) :=
    follows_kept fun _ => ⟨rfl, rfl, rfl⟩
  simp only [stopWriting]
  split
  · exact follows_quiet stopped (follows_peers rfl)
  · exact stopped

theorem finishSocket_follows (s : Server) (k' : PeerId) : Follows k [] s (s.finishSocket k') :=
  follows_quiet (stopWriting_follows s k') (follows_kept fun _ => ⟨rfl, rfl, rfl⟩)

theorem writeClose_follows (s : Server) (k' : PeerId) : Follows k [] s (s.writeClose k') := by
  refine follows_kept fun p => ?_
  split
  · exact ⟨rfl, rfl, rfl⟩
  · exact pushClose_kept p

theorem flush_follows (s : Server) (k' : PeerId) (isLast : Bool) :
    Follows k [] s (s.flush k' isLast).server := by
  simp only [flush]
  split
  · exact follows_refl s
  split
  · exact follows_refl s
  split
  · split
    · exact stopWriting_follows s k'
    · exact follows_refl s
  split
  · have flushed : Follows k [] s (s.updatePeer k' (·.flush)) := follows_kept flush_kept
    split
    · exact follows_quiet flushed (stopWriting_follows _ k')
    · exact flushed
  split
  · exact stopWriting_follows s k'
  · split
    · rename_i c _
      have cancelled : Follows k [] s (s.mapEngine (·.cancelConnection c)) := follows_peers rfl
      exact follows_quiet cancelled (stopWriting_follows _ k')
    · exact stopWriting_follows s k'

theorem readBlocked_follows (s : Server) (k' : PeerId) :
    Follows k [] s (s.readBlocked k').server := by
  have popped : Follows k [] s (s.updatePeer k' fun p => { p with incoming := p.incoming.tail }) :=
    follows_kept fun _ => ⟨rfl, rfl, rfl⟩
  simp only [readBlocked, hangUpBlocked]
  split
  · exact follows_refl s
  split
  · exact popped
  · split <;> exact popped
  · rename_i payload _ _
    split
    · exact popped
    · exact follows_quiet popped (follows_kept fun p => answerPing_kept p payload)
  · split <;> exact popped
  · exact follows_quiet popped (follows_kept fun _ => ⟨rfl, rfl, rfl⟩)
  · exact popped
  · exact popped

theorem endStream_peers (s : Server) (x : StreamId) (y : Streaming) :
    (s.endStream x y).server.peers = s.peers := by
  simp only [endStream]
  split <;> rfl

theorem streamNext_peers (s : Server) (x : StreamId) : (s.streamNext x).server.peers = s.peers := by
  simp only [streamNext]
  split
  · rfl
  split
  · exact endStream_peers s x _
  split
  · rfl
  split
  · exact endStream_peers s x _
  split
  · exact endStream_peers s x _
  · split
    · rfl
    · split
      · exact endStream_peers s x _
      · rfl

theorem answerStream_peers (s : Server) (x : StreamId) (call : CallId) :
    (s.answerStream x call).server.peers = s.peers := by
  simp only [answerStream]
  split
  · split <;> rfl
  · rfl

theorem perform_follows (s : Server) (a : Action) (other : ∀ k, a ≠ .pick k) :
    Follows k (s.tells k a) s (s.perform a).server := by
  cases a with
  | engine a => exact follows_peers rfl
  | read k' since before due? =>
    have read : Follows k (if k' = k then s.speaks k' since before else []) s
        (s.readNext k' since before).server := readNext_follows s k' since before
    by_cases same : k' = k
    · subst same
      exact read
    · simpa only [perform, tells, same, ↓reduceIte] using read
  | subscribed k' id call =>
    simp only [perform, tells]
    cases answer : s.engine.reply? call with
    | none =>
      simp only [readOn_server, ite_self]
      exact follows_refl s
    | some r =>
      cases r with
      | failed f =>
        simp only [readOn_server]
        exact follows_tell s k' _
      | _ =>
        simp only [readOn_server, ite_self]
        exact follows_refl s
  | unsubscribed k' id =>
    simp only [perform, tells]
    by_cases same : k' = k
    · subst same
      cases here : s.peers[k']? with
      | none => simpa using follows_refl s
      | some p =>
        simp only [↓reduceIte, readOn_server]
        simpa using follows_tell (k := k') s k' (Session.unsubscribed p.protocol id)
    · simp only [same, ↓reduceIte]
      split
      · rename_i p _
        rw [readOn_server]
        simpa [same] using follows_tell (k := k) s k' (Session.unsubscribed p.protocol id)
      · exact follows_refl s
  | waitForWriter k' => exact follows_refl s
  | endSocket k' due => exact finishSocket_follows s k'
  | pick k' => exact absurd rfl (other k')
  | write k' i =>
    simp only [perform, writeItem, tells]
    split
    · exact follows_refl s
    split
    · exact follows_refl s
    split
    · split
      · exact stopWriting_follows s k'
      · exact follows_refl s
    · exact follows_kept fun _ => ⟨rfl, rfl, rfl⟩
  | writeClose k' => exact writeClose_follows s k'
  | flush k' isLast due => exact flush_follows s k' isLast
  | readBlocked k' => exact readBlocked_follows s k'
  | writeBlocked k' i =>
    refine follows_kept fun p => ?_
    split <;> exact ⟨rfl, rfl, rfl⟩
  | writeCloseBlocked k' => exact writeClose_follows s k'
  | flushBlocked k' =>
    refine follows_kept fun p => ?_
    split
    · exact ⟨rfl, rfl, rfl⟩
    · exact flush_kept p
  | endBlocked k' => exact finishSocket_follows s k'
  | answerStream x call => exact follows_peers (answerStream_peers s x call)
  | refuseStream x payload => exact follows_peers rfl
  | stream x due => exact follows_peers (streamNext_peers s x)

/-! ### What is done to a client -/

/-- Clients and their connections stay, what a session tells joins what it has told, and what a
writer takes leaves it. -/
structure Attends (k : PeerId) (a : Action) (s s' : Server) : Prop where
  count : s'.peers.length = s.peers.length
  peer : ∀ p, s.peers[k]? = some p → ∃ p', s'.peers[k]? = some p' ∧
    p'.connection? = p.connection? ∧ p'.protocol = p.protocol ∧
    p.control ++ s.tells k a = s.sends k a ++ p'.control

theorem attends_follows (silent : s.sends k a = []) (follows : Follows k (s.tells k a) s s') :
    Attends k a s s' where
  count := follows.count
  peer p here := by
    obtain ⟨p', there, connection, protocol, control⟩ := follows.peer p here
    exact ⟨p', there, connection, protocol, by rw [silent, control, List.nil_append]⟩

theorem sendMessage_server (s : Server) (k : PeerId) (p : Peer) (m : ServerMessage) :
    (s.sendMessage k p m).server = s := by
  simp only [sendMessage]
  split <;> rfl

theorem pickNext_attends (s : Server) (k' : PeerId) :
    Attends k (.pick k') s (s.pickNext k').server := by
  have idle (silent : s.sends k (.pick k') = []) {s' : Server} (peers : s'.peers = s.peers) :
      Attends k (.pick k') s s' := attends_follows silent (follows_peers peers)
  have others (same : k' ≠ k) : s.sends k (.pick k') = [] := by simp [sends, same]
  simp only [pickNext]
  split
  · rename_i absent
    refine idle ?_ rfl
    by_cases same : k' = k
    · simp [sends, same ▸ absent]
    · exact others same
  rename_i p here
  split
  · rename_i ended
    refine idle ?_ rfl
    by_cases same : k' = k
    · simp [sends, same ▸ here, ended]
    · exact others same
  rename_i going
  split
  · rename_i m rest control
    rw [sendMessage_server]
    by_cases same : k' = k
    · subst same
      refine ⟨by simp [updatePeer], fun q there => ?_⟩
      obtain rfl : p = q := by simpa [here] using there
      refine ⟨{ p with control := rest }, by simp [updatePeer, here], rfl, rfl, ?_⟩
      simp [sends, tells, here, going, control]
    · refine ⟨by simp [updatePeer], fun q there => ?_⟩
      exact ⟨q, by simp [updatePeer, same, there], rfl, rfl, by simp [others same, tells]⟩
  · rename_i empty
    have silent : s.sends k (.pick k') = [] := by
      by_cases same : k' = k
      · simp [sends, same ▸ here, empty]
      · exact others same
    split
    · exact idle silent rfl
    · split
      · rw [sendMessage_server]
        exact idle silent rfl
      · exact idle silent rfl

theorem perform_attends (s : Server) (k : PeerId) (a : Action) :
    Attends k a s (s.perform a).server := by
  by_cases picks : ∃ k', a = .pick k'
  · obtain ⟨k', rfl⟩ := picks
    exact pickNext_attends s k'
  · have other (k : PeerId) : a ≠ .pick k := fun same => picks ⟨k, same⟩
    refine attends_follows ?_ (perform_follows s a other)
    cases a with
    | pick k' => exact absurd rfl (other k')
    | _ => rfl

/-! ### Who is there -/

/-- A client is there and has a connection. -/
def Sits (s : Server) (k : PeerId) (c : ConnectionId) : Prop :=
  ∃ p, s.peers[k]? = some p ∧ p.connection? = some c

variable {c : ConnectionId}

theorem Sits.alone {c' : ConnectionId} (sits : s.Sits k c) (also : s.Sits k c') : c = c' := by
  obtain ⟨p, here, connection⟩ := sits
  obtain ⟨p', here', connection'⟩ := also
  obtain rfl : p = p' := by simpa [here] using here'
  simpa [connection] using connection'

theorem sits_same (count : s'.peers.length = s.peers.length)
    (peer : ∀ p, s.peers[k]? = some p →
      ∃ p', s'.peers[k]? = some p' ∧ p'.connection? = p.connection?) :
    s'.Sits k c ↔ s.Sits k c := by
  constructor
  · rintro ⟨p', there, connection⟩
    have bound : k < s.peers.length := count ▸ (List.getElem?_eq_some_iff.mp there).1
    obtain ⟨p, here⟩ : ∃ p, s.peers[k]? = some p := ⟨_, List.getElem?_eq_getElem bound⟩
    obtain ⟨p'', there', same⟩ := peer p here
    obtain rfl : p' = p'' := by simpa [there] using there'
    exact ⟨p, here, same.symm.trans connection⟩
  · rintro ⟨p, here, connection⟩
    obtain ⟨p', there, same⟩ := peer p here
    exact ⟨p', there, same.trans connection⟩

theorem Follows.sits (follows : Follows k said s s') : s'.Sits k c ↔ s.Sits k c :=
  sits_same follows.count fun p here => by
    obtain ⟨p', there, connection, -⟩ := follows.peer p here
    exact ⟨p', there, connection⟩

theorem perform_sits (s : Server) (a : Action) : (s.perform a).server.Sits k c ↔ s.Sits k c :=
  have attends := perform_attends s k a
  sits_same attends.count fun p here => by
    obtain ⟨p', there, connection, -⟩ := attends.peer p here
    exact ⟨p', there, connection⟩

inductive Company (s : Server) (w : World) : Prop where
  | same (follows : ∀ k, Follows k [] s w.state) (unread : ∀ a ∈ w.tasks.flatten, a.reads? = none)
  | more (p : Peer) (peers : w.state.peers = s.peers ++ [p]) (silent : p.control = [])
      (blocked : p.connection? = none) (unread : ∀ a ∈ w.tasks.flatten, a.reads? = none)
  | joined (p : Peer) (peers : w.state.peers = s.peers ++ [p]) (silent : p.control = [])
      (connection : p.connection? = some s.engine.connections.length)
      (engine : w.state.engine = (s.engine.openConnection .webSocket).2) (since : Nat)
      (before : Bool) (due? : Option Nat) (tasks : w.tasks =
        [[.pick s.peers.length], [.read s.peers.length since before due?]])

theorem input_company (s : Server) (i : Input) : Company s (i.act ⟨s, []⟩) := by
  have nobody {w : World} (peers : w.state.peers = s.peers)
      (unread : ∀ a ∈ w.tasks.flatten, a.reads? = none) : Company s w :=
    .same (fun _ => follows_peers peers) unread
  have touched {f : Peer → Peer} (k' : PeerId) (kept : ∀ p, (f p).connection? = p.connection? ∧
      (f p).protocol = p.protocol ∧ (f p).control = p.control) :
      Company s ⟨s.updatePeer k' f, []⟩ := .same (fun _ => follows_kept kept) (by simp)
  cases i with
  | join header capacity stalled =>
    simp only [Input.act, World.openSocket]
    split
    · exact .more _ rfl rfl rfl (by simp [World.map, Running.spawn, Action.reads?])
    · refine .joined _ rfl rfl rfl rfl ?_ ?_ ?_ ?tasks
      case tasks =>
        simp only [Running.spawn, List.nil_append, readOn, List.getElem?_concat_length]
        rfl
  | say k i =>
    simp only [Input.act, World.send]
    split
    · exact touched k fun _ => ⟨rfl, rfl, rfl⟩
    · exact nobody rfl (by simp)
  | request accept body =>
    simp only [Input.act, World.requestStream]
    split
    · exact nobody rfl (by simp)
    split
    · exact nobody rfl (by simp)
    split
    · exact nobody rfl (by simp [World.map, Running.spawn, Action.reads?])
    · exact nobody rfl
        (by simp [Running.spawn, ask, Engine.World.subscribe, Action.reads?])
  | shutdown drainMs =>
    exact nobody rfl (by simp [Input.act, World.beginShutdown, Running.spawn, ask,
      Engine.World.shutdownAll, Action.reads?])
  | receive k =>
    simp only [Input.act, World.received]
    split
    · exact touched k fun _ => ⟨rfl, rfl, rfl⟩
    · exact nobody rfl (by simp)
  | receiveChunks k =>
    simp only [Input.act, World.receivedChunks]
    split <;> exact nobody rfl (by simp [World.map])
  | drop k => exact touched k fun _ => ⟨rfl, rfl, rfl⟩
  | resume k => exact touched k fun p => onWire_kept p _
  | abandon | brokers | pass => exact nobody rfl (by simp [Input.act, World.dropStream, World.map])

end Server

end SubscriptionGateway
