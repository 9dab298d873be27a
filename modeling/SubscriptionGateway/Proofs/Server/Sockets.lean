import SubscriptionGateway.Proofs.Server.Courses
import SubscriptionGateway.Proofs.Server.Grammar

/-!
What sockets keep for themselves. Only the writer of a socket, and its reader when it ends the
socket, takes anything out of the queue of its connection or lets the writer stop. Whatever else
happens leaves the queue to them but for frames that are handed over, and a connection that is told
to stop stays so.
-/
namespace SubscriptionGateway

open Broker

namespace Server

open WebSocket
open Engine (happened entered happened_append)

/-! ## What has been sent -/

namespace Wire

variable {w : Wire} {more : Nat}

theorem complete_whole (l : List Item) (sent : Nat)
    (enough : l.foldr (fun i n => i.bytes + n) 0 ≤ sent) : complete sent l = (l, [], 0) := by
  induction l generalizing sent with
  | nil => rfl
  | cons i rest ih =>
    rw [List.foldr_cons] at enough
    have first : i.bytes ≤ sent := by omega
    have onward := ih (sent - i.bytes) (by omega)
    simp only [complete, first, ↓reduceIte, onward]

theorem readItem_frames (w : Wire) (i : Item) : (w.readItem i).frames = w.frames := by
  unfold readItem
  split <;> rfl

theorem readAll_frames (whole : List Item) (w : Wire) :
    (whole.foldl readItem w).frames = w.frames := by
  induction whole generalizing w with
  | nil => rfl
  | cons i whole ih => exact (ih (w.readItem i)).trans (readItem_frames w i)

theorem empty_flushed (empty : w.frames = []) : w.isFlushed = true := by
  simp [isFlushed, size, empty]

theorem deliver_flushed (sent : w.isFlushed = true) : w.deliver.isFlushed = true := by
  have enough : w.frames.foldr (fun i n => i.bytes + n) 0 ≤ w.sent := by
    exact of_decide_eq_true sent
  unfold deliver
  split
  · exact sent
  rw [complete_whole w.frames w.sent enough]
  dsimp only
  split
  · apply empty_flushed
    rw [readItem_frames, readAll_frames]
  · apply empty_flushed
    rw [readAll_frames]

theorem push_size (w : Wire) (i : Item) : (w.push i).size = w.size + i.bytes := by
  have further (l : List Item) (n : Nat) :
      l.foldr (fun i n => i.bytes + n) n = l.foldr (fun i n => i.bytes + n) 0 + n := by
    induction l with
    | nil => simp
    | cons j rest ih =>
      simp only [List.foldr_cons]
      omega
  unfold push size
  rw [List.foldr_append]
  exact further w.frames i.bytes

theorem canFlush_less (can : w.canFlush more = true) : w.canFlush 0 = true := by
  unfold canFlush at can ⊢
  simp only [Bool.or_eq_true, decide_eq_true_eq] at can ⊢
  exact can.imp_right (by omega)

theorem flush_flushed (can : w.canFlush 0 = true) : w.flush.isFlushed = true := by
  unfold canFlush at can
  unfold flush send
  split
  · rename_i stalled
    have room : w.size ≤ w.taken + w.capacity := by simpa [stalled] using can
    apply deliver_flushed
    rw [Nat.min_eq_left room]
    exact decide_eq_true (Nat.le_refl w.size)
  · exact deliver_flushed (decide_eq_true (Nat.le_refl w.size))

end Wire

namespace Peer

variable {p p' p'' : Peer}

/-- A close has been written, and all that has been written is sent. -/
def Through (p : Peer) : Prop := p.hasClosed = true ∧ p.wire.isFlushed = true

structure KeepsWriter (p p' : Peer) : Prop where
  writing : p'.writing = p.writing
  through : p.Through → p'.Through

theorem steady_refl (p : Peer) : KeepsWriter p p := ⟨rfl, id⟩

theorem KeepsWriter.trans (first : KeepsWriter p p') (second : KeepsWriter p' p'') :
    KeepsWriter p p'' :=
  ⟨second.writing.trans first.writing, fun through => second.through (first.through through)⟩

theorem flush_flushed (can : p.canFlush = true) : p.flush.wire.isFlushed = true := by
  unfold canFlush at can
  unfold flush
  split
  · rename_i closing
    have closing : p.closing = true := by simp_all
    unfold pushClose
    split
    · exact Wire.flush_flushed (Wire.canFlush_less can)
    · rename_i unsaid
      apply Wire.flush_flushed
      have room : p.wire.canFlush (Item.close none).bytes = true := by
        simpa [closing, unsaid] using can
      unfold Wire.canFlush at room ⊢
      rw [Nat.add_zero]
      change (!p.wire.stalled || decide ((p.wire.push (.close none)).size ≤ _)) = true
      rw [Wire.push_size]
      exact room
  · exact Wire.flush_flushed (Wire.canFlush_less can)

end Peer

variable {s s' s'' : Server} {k k' : PeerId} {c c' : ConnectionId} {a : Action} {p p' : Peer}
  {todo : List Action} {ts us others : List (List Action)} {log : Steps} {setup : Setup} {hub : Hub}
  {first : Server} {w₀ : World}

/-! ## Readers -/

/-- Whose socket may be stopped by an action: its writer does it, or its reader when it ends. -/
def Action.handles? : Action → Option PeerId
  | .endSocket k _ => some k
  | a => a.writer?

/-- Queues are left alone, and sockets but for what their clients say. -/
structure Mild (s s' : Server) : Prop where
  lines : s'.engine.connections = s.engine.connections
  peer : ∀ (k : PeerId) (p : Peer), s.peers[k]? = some p →
    ∃ p', s'.peers[k]? = some p' ∧ p.KeepsWriter p'

theorem mild_peers (lines : s'.engine.connections = s.engine.connections)
    (peers : s'.peers = s.peers) : Mild s s' :=
  ⟨lines, fun _ p here => ⟨p, peers ▸ here, p.steady_refl⟩⟩

theorem mild_refl (s : Server) : Mild s s := mild_peers rfl rfl

theorem Mild.trans (first : Mild s s') (second : Mild s' s'') : Mild s s'' where
  lines := second.lines.trans first.lines
  peer k p here := by
    obtain ⟨p', there, steady⟩ := first.peer k p here
    obtain ⟨p'', beyond, steady'⟩ := second.peer k p' there
    exact ⟨p'', beyond, steady.trans steady'⟩

theorem mild_update {f : Peer → Peer} (steady : ∀ p : Peer, p.KeepsWriter (f p)) :
    Mild s (s.updatePeer k f) where
  lines := rfl
  peer k' p here := by
    by_cases same : k = k'
    · exact ⟨f p, by simp [updatePeer, same, here], steady p⟩
    · exact ⟨p, by simp [updatePeer, same, here], p.steady_refl⟩

theorem mild_readOn (s : Server) (k : PeerId) : Mild s (s.readOn k).server := by
  rw [readOn_server]
  exact mild_refl s

theorem mild_hangUp (s : Server) (k : PeerId) : Mild s (s.hangUp k).server := by
  unfold hangUp
  split
  · exact mild_refl s
  split
  · exact mild_refl s
  · exact mild_peers rfl rfl

theorem mild_tell (s : Server) (k : PeerId) (ms : List ServerMessage) : Mild s (s.tell k ms) :=
  mild_update fun _ => ⟨rfl, id⟩

theorem mild_closeWith (s : Server) (k : PeerId) (code : Nat) (reason : String) :
    Mild s (s.closeWith k code reason).server :=
  (mild_tell s k _).trans (mild_hangUp _ k)

theorem mild_react (s : Server) (k : PeerId) (c : ConnectionId) (r : Reaction) :
    Mild s (s.react k c r).server := by
  cases r with
  | reply ms => exact (mild_tell s k ms).trans (mild_readOn _ k)
  | acknowledge ms =>
    have greeted (s : Server) : Mild s (s.updatePeer k fun p => { p with acknowledged := true }) :=
      mild_update fun _ => ⟨rfl, id⟩
    exact ((mild_tell s k ms).trans (greeted _)).trans (mild_readOn _ k)
  | close code reason => exact mild_closeWith s k code reason
  | subscribe | unsubscribe => exact mild_peers rfl rfl
  | leave => exact mild_hangUp s k

theorem answerPing_steady (p : Peer) (payload : List UInt8) :
    p.KeepsWriter (p.answerPing payload) := by
  unfold Peer.answerPing
  split
  · exact p.steady_refl
  · rename_i unsaid
    exact ⟨rfl, fun through => absurd through.1 unsaid⟩

theorem mild_onItem (s : Server) (k : PeerId) (p : Peer) (c : ConnectionId) (i : Incoming) :
    Mild s (s.onItem k p c i).server := by
  cases i with
  | text t => exact mild_react s k c _
  | binary => exact mild_closeWith s k _ _
  | ping payload =>
    simp only [onItem]
    split
    · exact mild_hangUp s k
    · exact (mild_update fun p => answerPing_steady p payload).trans (mild_readOn _ k)
  | pong payload =>
    simp only [onItem]
    split
    · exact mild_hangUp s k
    · exact mild_readOn s k
  | close =>
    have closing : Mild s (s.updatePeer k fun p => { p with closing := true }) :=
      mild_update fun _ => ⟨rfl, id⟩
    exact closing.trans (mild_hangUp _ k)
  | lost => exact mild_hangUp s k

theorem mild_readNext (s : Server) (k : PeerId) (since : Nat) (before : Bool) :
    Mild s (s.readNext k since before).server := by
  unfold readNext
  split
  · exact mild_refl s
  split
  · rename_i i _ _
    have popped : Mild s (s.updatePeer k fun p => { p with incoming := p.incoming.tail }) :=
      mild_update fun _ => ⟨rfl, id⟩
    exact popped.trans (mild_onItem _ k _ _ i)
  · exact mild_readOn s k
  · exact mild_hangUp s k
  · exact mild_closeWith s k _ _

theorem perform_mild (session : a.engine? = none) (unserved : a.serves? = none)
    (unhandled : a.handles? = none) : Mild s (s.perform a).server := by
  cases a with
  | read k since before due? => exact mild_readNext s k since before
  | subscribed k id call =>
    simp only [perform]
    split
    · exact (mild_tell s k _).trans (mild_readOn _ k)
    · exact mild_readOn s k
  | unsubscribed k id =>
    simp only [perform]
    split
    · exact (mild_tell s k _).trans (mild_readOn _ k)
    · exact mild_refl s
  | waitForWriter k => exact mild_refl s
  | engine b => cases session
  | answerStream | refuseStream | stream => cases unserved
  | _ => cases unhandled

/-! ## Those who handle another socket -/

theorem stopWriting_peer (other : k' ≠ k) : (s.stopWriting k').peers[k]? = s.peers[k]? := by
  unfold stopWriting
  dsimp only
  split <;> simp [mapEngine, updatePeer, other]

theorem finishSocket_peer (other : k' ≠ k) : (s.finishSocket k').peers[k]? = s.peers[k]? := by
  have updated (s : Server) (f : Peer → Peer) : (s.updatePeer k' f).peers[k]? = s.peers[k]? := by
    simp [updatePeer, other]
  exact (updated _ _).trans (stopWriting_peer other)

theorem apart_peer (whose : a.handles? = some k') (other : k' ≠ k) :
    (s.perform a).server.peers[k]? = s.peers[k]? := by
  have updated (s : Server) (f : Peer → Peer) : (s.updatePeer k' f).peers[k]? = s.peers[k]? := by
    simp [updatePeer, other]
  cases a with
  | endSocket j due | endBlocked j =>
    obtain rfl : j = k' := Option.some.inj whose
    exact finishSocket_peer other
  | pick j =>
    obtain rfl : j = k' := Option.some.inj whose
    simp only [perform, pickNext]
    split
    · rfl
    split
    · rfl
    split
    · rw [sendMessage_server]
      exact updated s _
    split
    · rfl
    split
    · rw [sendMessage_server]
    · rfl
  | write j i =>
    obtain rfl : j = k' := Option.some.inj whose
    simp only [perform, writeItem]
    split
    · rfl
    split
    · rfl
    split
    · split
      · exact stopWriting_peer other
      · rfl
    · exact updated s _
  | writeClose j | writeCloseBlocked j | writeBlocked j | flushBlocked j =>
    obtain rfl : j = k' := Option.some.inj whose
    exact updated s _
  | flush j isLast due =>
    obtain rfl : j = k' := Option.some.inj whose
    have stopped (s : Server) : (s.stopWriting j).peers[k]? = s.peers[k]? := stopWriting_peer other
    simp only [perform, flush]
    split
    · rfl
    split
    · rfl
    split
    · split
      · exact stopped s
      · rfl
    split
    · split
      · exact (stopped _).trans (updated s _)
      · exact updated s _
    split
    · exact stopped s
    · refine (stopped _).trans ?_
      split <;> rfl
  | readBlocked j =>
    obtain rfl : j = k' := Option.some.inj whose
    simp only [perform, readBlocked, hangUpBlocked]
    split
    · rfl
    split
    · exact updated s _
    · split <;> exact updated s _
    · split
      · exact updated s _
      · exact (updated _ _).trans (updated s _)
    · split <;> exact updated s _
    · exact (updated _ _).trans (updated s _)
    · exact updated s _
    · exact updated s _
  | _ => cases whose

theorem perform_steady (other : a.handles? ≠ some k) (here : s.peers[k]? = some p) :
    ∃ p', (s.perform a).server.peers[k]? = some p' ∧ p.KeepsWriter p' := by
  cases whose : a.handles? with
  | some k' =>
    have differ : k' ≠ k := fun same => other (same ▸ whose)
    exact ⟨p, (apart_peer whose differ).trans here, p.steady_refl⟩
  | none =>
    have still (peers : (s.perform a).server.peers = s.peers) :
        ∃ p', (s.perform a).server.peers[k]? = some p' ∧ p.KeepsWriter p' :=
      ⟨p, peers ▸ here, p.steady_refl⟩
    cases a with
    | engine b => exact still rfl
    | answerStream j call => exact still (answerStream_peers s j call)
    | refuseStream j payload => exact still rfl
    | stream j due => exact still (streamNext_peers s j)
    | _ => exact (perform_mild rfl rfl whose).peer k p here

theorem input_steady (i : Input) (here : s.peers[k]? = some p) :
    ∃ p', (i.act ⟨s, []⟩).state.peers[k]? = some p' ∧ p.KeepsWriter p' := by
  have still {w : World} (peers : w.state.peers = s.peers) :
      ∃ p', w.state.peers[k]? = some p' ∧ p.KeepsWriter p' := ⟨p, peers ▸ here, p.steady_refl⟩
  have changed {w : World} {j : PeerId} {f : Peer → Peer} (state : w.state = s.updatePeer j f)
      (steady : ∀ p : Peer, p.KeepsWriter (f p)) :
      ∃ p', w.state.peers[k]? = some p' ∧ p.KeepsWriter p' :=
    state ▸ (mild_update steady).peer k p here
  cases i with
  | join header capacity stalled =>
    have more {w : World} {q : Peer} (peers : w.state.peers = s.peers ++ [q]) :
        ∃ p', w.state.peers[k]? = some p' ∧ p.KeepsWriter p' :=
      ⟨p, by rw [peers, List.getElem?_append_left (List.getElem?_eq_some_iff.mp here).1, here],
        p.steady_refl⟩
    simp only [Input.act, World.openSocket]
    split <;> exact more rfl
  | say j i =>
    simp only [Input.act, World.send]
    split
    · exact changed rfl fun _ => ⟨rfl, id⟩
    · exact still rfl
  | drop j => exact changed rfl fun _ => ⟨rfl, id⟩
  | resume j =>
    exact changed rfl fun p => ⟨rfl, fun through => ⟨through.1, Wire.deliver_flushed through.2⟩⟩
  | request accept body =>
    simp only [Input.act, World.requestStream]
    split
    · exact still rfl
    split
    · exact still rfl
    split <;> exact still rfl
  | receive j =>
    simp only [Input.act, World.received]
    split
    · exact changed rfl fun _ => ⟨rfl, id⟩
    · exact still rfl
  | receiveChunks j =>
    simp only [Input.act, World.receivedChunks]
    split <;> exact still rfl
  | abandon | shutdown | brokers | pass => exact still rfl

/-! ## Queues -/

theorem take_line {e : Engine} (other : c' ≠ c) (most : Nat) :
    (e.takeFrames c' most).2.connections[c]? = e.connections[c]? := by
  unfold Engine.takeFrames
  split
  · simp [Engine.updateConnection, other]
  · rfl

theorem stopWriting_line (apart : ¬ s.Sits k c) :
    (s.stopWriting k).engine.connections[c]? = s.engine.connections[c]? := by
  unfold stopWriting
  dsimp only
  split
  · rename_i c' connection
    have other : c' ≠ c := by
      rintro rfl
      obtain ⟨p, there, own⟩ := Option.bind_eq_some_iff.mp connection
      have stopped : Follows k [] s (s.updatePeer k fun p => { p with writing := false }) :=
        follows_kept fun _ => ⟨rfl, rfl, rfl⟩
      exact apart (stopped.sits.mp ⟨p, there, own⟩)
    simp [mapEngine, Engine.stopReading, Engine.updateConnection, updatePeer, other]
  · rfl

theorem apart_line (whose : a.handles? = some k) (apart : ¬ s.Sits k c) :
    (s.perform a).server.engine.connections[c]? = s.engine.connections[c]? := by
  cases a with
  | endSocket j due | endBlocked j =>
    obtain rfl : j = k := Option.some.inj whose
    exact stopWriting_line apart
  | pick j =>
    obtain rfl : j = k := Option.some.inj whose
    simp only [perform, pickNext]
    split
    · rfl
    rename_i p here
    split
    · rfl
    split
    · rw [sendMessage_server]
      rfl
    split
    · rfl
    rename_i c' connection
    have other : c' ≠ c := fun same => apart ⟨p, here, same ▸ connection⟩
    split
    · rename_i f rest e taken
      rw [sendMessage_server]
      have after : e = (s.engine.takeFrames c' 1).2 := by rw [taken]
      exact after ▸ take_line other 1
    · rfl
  | write j i =>
    obtain rfl : j = k := Option.some.inj whose
    simp only [perform, writeItem]
    split
    · rfl
    split
    · rfl
    split
    · split
      · exact stopWriting_line apart
      · rfl
    · rfl
  | flush j isLast due =>
    obtain rfl : j = k := Option.some.inj whose
    simp only [perform, flush]
    split
    · rfl
    rename_i p here
    split
    · rfl
    split
    · split
      · exact stopWriting_line apart
      · rfl
    split
    · have still : ¬ (s.updatePeer j (·.flush)).Sits j c := fun sits =>
        apart ((follows_kept flush_kept).sits.mp sits)
      split
      · exact stopWriting_line still
      · rfl
    split
    · exact stopWriting_line apart
    · cases connection : p.connection? with
      | none => exact stopWriting_line apart
      | some c' =>
        have other : c' ≠ c := fun same => apart ⟨p, here, same ▸ connection⟩
        have still : ¬ (s.mapEngine (·.cancelConnection c')).Sits j c := apart
        refine (stopWriting_line still).trans ?_
        simp [mapEngine, Engine.cancelConnection, Engine.updateConnection, other]
  | readBlocked j =>
    simp only [perform, readBlocked, hangUpBlocked]
    split
    · rfl
    split
    · rfl
    · split <;> rfl
    · split <;> rfl
    · split <;> rfl
    · rfl
    · rfl
    · rfl
  | writeClose | writeCloseBlocked | writeBlocked | flushBlocked => rfl
  | _ => cases whose

theorem updated_here {f : Peer → Peer} (here : s.peers[k]? = some p)
    (there : (s.updatePeer k f).peers[k]? = some p') : p' = f p := by
  simpa [updatePeer, here, eq_comm] using there

theorem stopWriting_here (here : s.peers[k]? = some p)
    (there : (s.stopWriting k).peers[k]? = some p') : p' = { p with writing := false } := by
  have stopped {s' : Server}
      (peers : s'.peers = (s.updatePeer k fun p => { p with writing := false }).peers)
      (there : s'.peers[k]? = some p') : p' = { p with writing := false } := by
    rw [peers] at there
    exact updated_here here there
  unfold stopWriting at there
  dsimp only at there
  split at there
  · exact stopped rfl there
  · exact stopped rfl there

theorem stopWriting_stops (there : (s.stopWriting k).peers[k]? = some p') : p'.writing = false := by
  cases here : s.peers[k]? with
  | none =>
    have absent : (s.stopWriting k).peers[k]? = none := by
      unfold stopWriting
      dsimp only
      split <;> simp [mapEngine, updatePeer, here]
    simp [absent] at there
  | some p => rw [stopWriting_here here there]

theorem finishSocket_here (here : s.peers[k]? = some p)
    (there : (s.finishSocket k).peers[k]? = some p') :
    p' = { p with writing := false, ended := true, wire := p.wire.cut } := by
  cases stopped : (s.stopWriting k).peers[k]? with
  | none => simp [finishSocket, updatePeer, stopped] at there
  | some q =>
    rw [updated_here stopped there, stopWriting_here here stopped]

/-- When a socket is through nobody changes that but its writer. -/
theorem perform_through (other : a.writer? ≠ some k) (here : s.peers[k]? = some p)
    (there : (s.perform a).server.peers[k]? = some p') (through : p.Through) : p'.Through := by
  by_cases whose : a.handles? = some k
  · cases a with
    | endSocket j due =>
      obtain rfl : j = k := Option.some.inj whose
      rw [finishSocket_here here there]
      exact ⟨through.1, Wire.deliver_flushed through.2⟩
    | _ => exact absurd whose other
  · obtain ⟨q, found, steady⟩ := perform_steady whose here
    obtain rfl : p' = q := by simpa [there] using found
    exact steady.through through

/-- In its turn a writer goes on, having taken no frame out of its queue but to send it, or
stops. -/
inductive Draws (s : Server) (k : PeerId) (c : ConnectionId) (p p' : Peer) (a : Action) : Prop where
  | goes (writing : p'.writing = p.writing)
      (queue : s.passes k a ++ (s.perform a).server.engine.queueOf c = s.engine.queueOf c)
  | stops (writing : p'.writing = false) (done : (s.perform a).next = [])
      (nothing : s.passes k a = [])

theorem draws_updated {f : Peer → Peer} (here : s.peers[k]? = some p)
    (there : (s.perform a).server.peers[k]? = some p')
    (same : (s.perform a).server = s.updatePeer k f) (writing : (f p).writing = p.writing)
    (nothing : s.passes k a = []) : Draws s k c p p' a := by
  rw [same] at there
  apply Draws.goes
  · rw [updated_here here there, writing]
  · rw [nothing, same, List.nil_append]
    rfl

theorem draws_still (here : s.peers[k]? = some p)
    (there : (s.perform a).server.peers[k]? = some p') (same : (s.perform a).server = s)
    (nothing : s.passes k a = []) : Draws s k c p p' a := by
  obtain rfl : p = p' := by simpa [same, here] using there
  apply Draws.goes rfl
  rw [nothing, same, List.nil_append]

theorem pick_draws (here : s.peers[k]? = some p) (connection : p.connection? = some c)
    (there : (s.perform (.pick k)).server.peers[k]? = some p') : Draws s k c p p' (.pick k) := by
  cases ended : p.ended with
  | true =>
    exact draws_still here there (by simp [perform, pickNext, here, ended])
      (by simp [passes, here, ended])
  | false =>
    cases control : p.control with
    | cons m rest =>
      have same : (s.perform (.pick k)).server = s.updatePeer k fun p =>
        { p with control := rest } := by
        simp [perform, pickNext, here, ended, control, sendMessage_server]
      exact draws_updated here there same rfl (by simp [passes, here, control])
    | nil =>
      cases waits : s.engine.queueOf c with
      | nil =>
        have nothing := takeFrames_nil waits
        rcases taken : s.engine.takeFrames c 1 with ⟨frames, e⟩
        obtain rfl : frames = [] := by rw [taken] at nothing; exact nothing
        have same : (s.perform (.pick k)).server = s := by
          simp [perform, pickNext, here, ended, control, connection, taken]
        exact draws_still here there same (by simp [passes, here, control, connection, taken])
      | cons f rest =>
        have same : (s.perform (.pick k)).server =
            { s with engine := s.engine.updateConnection c fun z =>
              { z with queue := z.queue.tail } } := by
          simp [perform, pickNext, here, ended, control, connection, takeFrames_cons waits,
            sendMessage_server]
        obtain rfl : p = p' := by simpa [same, here] using there
        apply Draws.goes rfl
        obtain ⟨z, found, queue⟩ :
          ∃ z, s.engine.connections[c]? = some z ∧ z.queue = f :: rest := by
          unfold Engine.queueOf at waits
          split at waits
          · exact ⟨_, ‹_›, waits⟩
          · cases waits
        have taken : s.passes k (.pick k) = [f] := by
          simp [passes, here, ended, control, connection, takeFrames_cons waits]
        rw [taken, same, waits, Engine.queueOf_update, found]
        simp [queue]

theorem write_draws {i : Item} (here : s.peers[k]? = some p)
    (there : (s.perform (.write k i)).server.peers[k]? = some p') :
    Draws s k c p p' (.write k i) := by
  cases ended : p.ended with
  | true => exact draws_still here there (by simp [perform, writeItem, here, ended]) rfl
  | false =>
    cases broken : p.broken with
    | false =>
      have same : (s.perform (.write k i)).server =
          s.updatePeer k fun p => (p.push i).onWire Wire.send := by
        simp [perform, writeItem, here, ended, broken]
      exact draws_updated here there same rfl rfl
    | true =>
      cases last : i.isClose with
      | false =>
        exact draws_still here there (by simp [perform, writeItem, here, ended, broken, last]) rfl
      | true =>
        have turn : s.perform (.write k i) = ⟨s.stopWriting k, [], []⟩ := by
          simp [perform, writeItem, here, ended, broken, last]
        rw [turn] at there
        exact .stops (stopWriting_stops there) (by rw [turn]) rfl

theorem flush_draws {isLast : Bool} {due : Nat} (here : s.peers[k]? = some p)
    (there : (s.perform (.flush k isLast due)).server.peers[k]? = some p') :
    Draws s k c p p' (.flush k isLast due) := by
  have stopped (s' : Server) (turn : s.perform (.flush k isLast due) = ⟨s'.stopWriting k, [], []⟩) :
      Draws s k c p p' (.flush k isLast due) := by
    rw [turn] at there
    exact .stops (stopWriting_stops there) (by rw [turn]) rfl
  cases ended : p.ended with
  | true => exact draws_still here there (by simp [perform, flush, here, ended]) rfl
  | false =>
    cases gone : p.gone with
    | true =>
      cases isLast with
      | true => exact stopped s (by simp [perform, flush, here, ended, gone])
      | false => exact draws_still here there (by simp [perform, flush, here, ended, gone]) rfl
    | false =>
      cases can : p.canFlush with
      | false =>
        cases isLast with
        | true => exact stopped s (by simp [perform, flush, here, ended, gone, can])
        | false => exact stopped _ (by simp only [perform, flush, here, ended, gone, can]; rfl)
      | true =>
        cases isLast with
        | true => exact stopped _ (by simp only [perform, flush, here, ended, gone, can]; rfl)
        | false =>
          have same : (s.perform (.flush k false due)).server = s.updatePeer k (·.flush) := by
            simp [perform, flush, here, ended, gone, can]
          have writing : p.flush.writing = p.writing := by
            unfold Peer.flush Peer.pushClose
            split
            · split <;> rfl
            · rfl
          exact draws_updated here there same writing rfl

theorem Pen.draws {ahead : List Item} (pen : Pen k p [[a]] ahead) (here : s.peers[k]? = some p)
    (connection : p.connection? = some c) (there : (s.perform a).server.peers[k]? = some p') :
    Draws s k c p p' a := by
  generalize form : [[a]] = us at pen
  cases pen with
  | through => simp at form
  | picks fresh =>
    obtain rfl : a = .pick k := by simpa using form
    exact pick_draws here connection there
  | writes i worded fresh =>
    obtain rfl : a = .write k i := by simpa using form
    exact write_draws here there
  | parts =>
    obtain rfl : a = .writeClose k := by simpa using form
    refine draws_updated here there rfl ?_ rfl
    split
    · rfl
    · unfold Peer.pushClose
      split <;> rfl
  | flushes due fresh =>
    obtain rfl : a = .flush k false due := by simpa using form
    exact flush_draws here there
  | rests due =>
    obtain rfl : a = .flush k true due := by simpa using form
    exact flush_draws here there

structure Own (s : Server) (k : PeerId) (c : ConnectionId) : Prop where
  sits : s.Sits k c
  alone : ∀ j, s.Sits j c → j = k
  unfed : ∀ j, ¬ s.Feeds j c

theorem reached_own (begun : first.engine = Engine.start setup hub) (nobody : first.peers = [])
    (silent : first.streams = []) (reached : Reached (World.start first) s ts log)
    (sits : s.Sits k c) : s.Own k c where
  sits := sits
  alone j also := (reached_seated begun nobody reached).apart k j c sits also
  unfed _ feeds := (reached_lined nobody silent reached).unsat feeds k sits

theorem unpicked (other : a ≠ .pick k) : s.sends k a = [] ∧ s.passes k a = [] := by
  cases a with
  | pick j =>
    have differ : j ≠ k := fun same => other (same ▸ rfl)
    simp [sends, passes, differ]
  | _ => exact ⟨rfl, rfl⟩

theorem Own.line (own : s.Own k c) (session : a.engine? = none) (other : a.handles? ≠ some k) :
    (s.perform a).server.engine.connections[c]? = s.engine.connections[c]? := by
  cases whose : a.handles? with
  | some j =>
    refine apart_line whose fun sits => other ?_
    rw [whose, own.alone j sits]
  | none =>
    cases served : a.serves? with
    | some j => exact served_line served (own.unfed j)
    | none => rw [(perform_mild session served whose).lines]

def Runs (k : PeerId) (p : Peer) (ts : List (List Action)) : Prop :=
  writers k ts ≠ [] → p.ended = false → p.writing = true

theorem Runs.onward (runs : Runs k p ts) (tasks : writers k us = writers k ts)
    (ended : p.ended = true → p'.ended = true) (writing : p'.writing = p.writing) :
    Runs k p' us := by
  intro busy going
  rw [writing]
  apply runs (tasks ▸ busy)
  cases gone : p.ended with
  | false => rfl
  | true =>
    rw [ended gone] at going
    cases going

structure QueueKept (s : Server) (k : PeerId) (c : ConnectionId) (p : Peer)
    (ts : List (List Action))
    (log : Steps) : Prop where
  queued : ∃ left, passings k log ++ left = entered c (happened (innerSteps log)) ∧
    (p.writing = true → left = s.engine.queueOf c)
  runs : Runs k p ts

theorem QueueKept.apart {ahead : List Item} (kept : QueueKept s k c p ((a :: todo) :: others) log)
    (pen : Pen k p (writers k ((a :: todo) :: others)) ahead) (own : s.Own k c)
    (here : s.peers[k]? = some p) (there : (s.perform a).server.peers[k]? = some p')
    (other : a.writer? ≠ some k) : QueueKept (s.perform a).server k c p'
      (((s.perform a).next ++ todo) :: ((s.perform a).started ++ others)) (log ++ [(s, a)]) := by
  obtain ⟨left, whole, waits⟩ := kept.queued
  have taken : passings k (log ++ [(s, a)]) = passings k log := by
    have nothing := (unpicked (s := s) fun same : a = .pick k => other (same ▸ rfl)).2
    rw [passings_more, nothing, List.append_nil]
  have same := pen.apart (s := s) other
  have ended := ((perform_alters s k a).touched here there).ended
  have writing (foreign : a.handles? ≠ some k) : p'.writing = p.writing := by
    obtain ⟨q, found, steady⟩ := perform_steady foreign here
    obtain rfl : p' = q := by simpa [there] using found
    exact steady.writing
  have runs (foreign : a.handles? ≠ some k) : Runs k p'
      (((s.perform a).next ++ todo) :: ((s.perform a).started ++ others)) :=
    kept.runs.onward same ended (writing foreign)
  cases session : a.engine? with
  | some b =>
    obtain rfl := eq_engine session
    have one : happened (innerSteps [(s, .engine b)]) = s.engine.happenings b := List.append_nil _
    refine ⟨⟨left ++ entered c (s.engine.happenings b), ?_, fun going => ?_⟩, runs nofun⟩
    · rw [taken, innerSteps_append, happened_append, Engine.entered_append, one, ← whole,
        List.append_assoc]
    · rw [waits (writing nofun ▸ going)]
      exact (Engine.perform_queueOf s.engine b c).symm
  | none =>
    have silent : innerSteps (log ++ [(s, a)]) = innerSteps log := by simp [innerSteps, session]
    by_cases whose : a.handles? = some k
    · cases a with
      | endSocket j due =>
        obtain rfl : j = k := Option.some.inj whose
        have stopped := finishSocket_here here there
        refine ⟨⟨left, by rw [taken, silent, whole], fun going => ?_⟩, fun _ going => ?_⟩
        · simp [stopped] at going
        · simp [stopped] at going
      | _ => exact absurd whose other
    · refine ⟨⟨left, by rw [taken, silent, whole], fun going => ?_⟩, runs whose⟩
      rw [waits (writing whose ▸ going), Engine.queueOf, Engine.queueOf, own.line session whose]

/-- The writer itself goes on. -/
theorem QueueKept.turned {ahead : List Item} (kept : QueueKept s k c p ((a :: []) :: others) log)
    (pen : Pen k p [[a]] ahead) (whose : a.writer? = some k) (none : writers k others = [])
    (here : s.peers[k]? = some p) (connection : p.connection? = some c)
    (there : (s.perform a).server.peers[k]? = some p') (going : p.ended = false) :
    QueueKept (s.perform a).server k c p'
      (((s.perform a).next ++ []) :: ((s.perform a).started ++ others)) (log ++ [(s, a)]) := by
  obtain ⟨left, whole, waits⟩ := kept.queued
  have busy : writers k ([a] :: others) ≠ [] := by simp [writers, writtenBy, whose]
  have running := kept.runs busy going
  have silent : innerSteps (log ++ [(s, a)]) = innerSteps log := by
    cases a <;> simp_all [innerSteps, Action.engine?, Action.writer?]
  cases pen.draws here connection there with
  | goes writing queue =>
    refine ⟨⟨(s.perform a).server.engine.queueOf c, ?_, fun _ => rfl⟩, fun _ _ => ?_⟩
    · rw [passings_more, silent, List.append_assoc, queue, ← waits running, whole]
    · rw [writing, running]
  | stops writing done nothing =>
    refine ⟨⟨left, ?_, fun still => ?_⟩, fun more => ?_⟩
    · rw [passings_more, silent, nothing, List.append_nil, whole]
    · simp [writing] at still
    · rw [writers_turned whose none, done] at more
      simp [writers, writtenBy] at more

/-! ## Told to stop -/

theorem quiet_halts {e e' : Engine} (quiet : Quiet e e') (halts : e.Halts c) : e'.Halts c := by
  induction quiet with
  | same => exact halts
  | input i _ _ ih => exact Engine.input_halts i ih

theorem perform_halts (a : Action) (halts : s.engine.Halts c) :
    (s.perform a).server.engine.Halts c := by
  cases session : a.engine? with
  | some b =>
    obtain rfl := eq_engine session
    exact Engine.perform_halts b halts
  | none =>
    cases perform_conduct s a session with
    | alone engine => exact quiet_halts engine halts
    | waits _ _ _ _ _ engine => exact engine ▸ halts
    | asks _ _ _ engine => exact engine ▸ halts
    | subscribes _ _ _ _ _ _ _ _ _ _ _ _ _ _ _ engine => exact engine ▸ halts
    | unsubscribes _ _ _ _ _ _ _ _ _ engine => exact engine ▸ halts
    | sends _ engine => exact engine ▸ halts

theorem reached_halts (reached : Reached w₀ s ts log) (halts : w₀.state.engine.Halts c) :
    s.engine.Halts c := by
  induction reached with
  | start => exact halts
  | shuffle _ _ ih => exact ih
  | idle _ ih => exact ih
  | outside i _ ih =>
    obtain ⟨z, found, cancelled⟩ := ih
    exact ⟨z, audience_line (input_audience _ i) found, cancelled⟩
  | inside _ _ ih => exact perform_halts _ ih

end Server

end SubscriptionGateway
