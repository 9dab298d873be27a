import SubscriptionGateway.Proofs.Server.Output
import SubscriptionGateway.Proofs.Server.EventLines

/-!
The streams of a server. Each has one task, which first asks the engine and then writes: a refusal,
or one frame after the other as they come out of the queue of its connection. Nobody else writes on
a stream or takes frames out of its queue, so what it has written and what waits there is together
what has entered the queue.
-/
namespace SubscriptionGateway

open Broker

namespace Server

variable {s s' s'' : Server} {k j : StreamId} {c : ConnectionId} {a : Action} {x y : Streaming}
  {task todo : List Action} {ts us others : List (List Action)} {log : Steps} {setup : Setup}
  {hub : Hub} {first : Server}

def Action.serves? : Action → Option StreamId
  | .answerStream k _ | .refuseStream k _ | .stream k _ => some k
  | _ => none

/-! ## What sessions of sockets leave alone -/

/-- Streams are left alone, and so are connections on which nobody sits. -/
structure Beside (s s' : Server) : Prop where
  streams : s'.streams = s.streams
  managed : s'.engine.managed = s.engine.managed
  kinds : s'.engine.connections.map (·.transport) = s.engine.connections.map (·.transport)
  line : ∀ c, (∀ k, ¬ s.Sits k c) → s'.engine.connections[c]? = s.engine.connections[c]?
  sits : ∀ k c, s'.Sits k c → s.Sits k c

theorem beside_refl (s : Server) : Beside s s := ⟨rfl, rfl, rfl, fun _ _ => rfl, fun _ _ => id⟩

theorem Beside.trans (first : Beside s s') (second : Beside s' s'') : Beside s s'' where
  streams := second.streams.trans first.streams
  managed := second.managed.trans first.managed
  kinds := second.kinds.trans first.kinds
  line c unsat := by
    rw [second.line c fun k sits => unsat k (first.sits k c sits), first.line c unsat]
  sits k c sits := first.sits k c (second.sits k c sits)

theorem beside_peer {f : Peer → Peer} (k : PeerId)
    (connection : ∀ p, (f p).connection? = p.connection?) : Beside s (s.updatePeer k f) where
  streams := rfl
  managed := rfl
  kinds := rfl
  line _ _ := rfl
  sits k' c sits := by
    refine (sits_same (by simp [updatePeer]) fun p here => ?_).mp sits
    by_cases same : k = k'
    · exact ⟨f p, by simp [updatePeer, same, here], connection p⟩
    · exact ⟨p, by simp [updatePeer, same, here], rfl⟩

theorem beside_called (s : Server) (task : CallId → List Engine.Action) :
    Beside s (s.ask task).2.2 :=
  ⟨rfl, rfl, rfl, fun _ _ => rfl, fun _ _ sits => sits⟩

theorem beside_connection {f : Connection → Connection} {k : PeerId} (sits : s.Sits k c)
    (kind : ∀ z, (f z).transport = z.transport) :
    Beside s (s.mapEngine (·.updateConnection c f)) where
  streams := rfl
  managed := rfl
  kinds := by
    refine List.ext_getElem? fun n => ?_
    simp only [mapEngine, Engine.updateConnection, List.getElem?_map, List.getElem?_modify]
    cases s.engine.connections[n]? with
    | none => rfl
    | some z => by_cases here : c = n <;> simp [here, kind]
  line c' unsat := by
    have other : c ≠ c' := fun same => unsat k (same ▸ sits)
    simp [mapEngine, Engine.updateConnection, other]
  sits _ _ sits := sits

theorem beside_stopWriting (s : Server) (k : PeerId) : Beside s (s.stopWriting k) := by
  have stopped : Beside s (s.updatePeer k fun p => { p with writing := false }) :=
    beside_peer k fun _ => rfl
  unfold stopWriting
  dsimp only
  split
  · rename_i c connection
    obtain ⟨p, here, own⟩ := Option.bind_eq_some_iff.mp connection
    exact stopped.trans (beside_connection (k := k) ⟨p, here, own⟩ fun _ => rfl)
  · exact stopped

theorem beside_finishSocket (s : Server) (k : PeerId) : Beside s (s.finishSocket k) :=
  (beside_stopWriting s k).trans (beside_peer k fun _ => rfl)

/-- What comes of an action of a socket's session: streams are left alone and given nothing to do,
and only connections are given back on which somebody sits. -/
structure Aloof (s : Server) (f : Effect) : Prop where
  beside : Beside s f.server
  unserved : ∀ b ∈ f.next, b.serves? = none
  releases : ∀ c, .engine (.release c) ∈ f.next → ∃ k, s.Sits k c
  started : f.started = []

theorem Aloof.after {f : Effect} (aloof : Aloof s' f) (first : Beside s s') : Aloof s f where
  beside := first.trans aloof.beside
  unserved := aloof.unserved
  releases c member := (aloof.releases c member).imp fun k => first.sits k c
  started := aloof.started

theorem aloof_last (beside : Beside s s') : Aloof s ⟨s', [], []⟩ := ⟨beside, by simp, by simp, rfl⟩

theorem aloof_next (beside : Beside s s') (session : a.engine? = none)
    (unserved : a.serves? = none) :
    Aloof s ⟨s', [a], []⟩ := by
  refine ⟨beside, by simp [unserved], fun c member => ?_, rfl⟩
  obtain rfl := List.mem_singleton.mp member
  simp [Action.engine?] at session

theorem aloof_readOn (s : Server) (k : PeerId) : Aloof s (s.readOn k) := by
  unfold readOn
  split
  · exact aloof_last (beside_refl s)
  · exact aloof_next (beside_refl s) rfl rfl

theorem aloof_call (s : Server) (task : CallId → List Engine.Action)
    (releases : ∀ c, .release c ∈ task s.engine.calls → ∃ k, s.Sits k c)
    (session : a.engine? = none)
    (unserved : a.serves? = none) : Aloof s ⟨(s.ask task).2.2, (s.ask task).2.1 ++ [a], []⟩ := by
  refine ⟨beside_called s task, fun b member => ?_, fun c member => ?_, rfl⟩
  · rcases List.mem_append.mp member with asked | last
    · obtain ⟨e, -, rfl⟩ := List.mem_map.mp asked
      rfl
    · rw [List.mem_singleton.mp last]
      exact unserved
  · rcases List.mem_append.mp member with asked | last
    · obtain ⟨e, inside, same⟩ := List.mem_map.mp asked
      obtain rfl : e = .release c := Action.engine.inj same
      exact releases c inside
    · obtain rfl := List.mem_singleton.mp last
      simp [Action.engine?] at session

theorem aloof_hangUp (s : Server) (k : PeerId) : Aloof s (s.hangUp k) := by
  unfold hangUp
  split
  · exact aloof_last (beside_refl s)
  split
  · exact aloof_next (beside_refl s) rfl rfl
  · rename_i p here _ c connection
    refine aloof_call s (Engine.World.release c) (a := .waitForWriter k)
      (fun c' member => ?_) rfl rfl
    obtain rfl : c' = c := by simpa [Engine.World.release] using member
    exact ⟨k, p, here, connection⟩

theorem aloof_closeWith (s : Server) (k : PeerId) (code : Nat) (reason : String) :
    Aloof s (s.closeWith k code reason) :=
  (aloof_hangUp _ k).after (beside_peer k fun _ => rfl)

theorem aloof_react (s : Server) (k : PeerId) (c : ConnectionId) (r : WebSocket.Reaction) :
    Aloof s (s.react k c r) := by
  cases r with
  | reply ms => exact (aloof_readOn _ k).after (beside_peer k fun _ => rfl)
  | acknowledge ms =>
    have told : Beside s (s.tell k ms) := beside_peer k fun _ => rfl
    exact (aloof_readOn _ k).after (told.trans (beside_peer k fun _ => rfl))
  | close code reason => exact aloof_closeWith s k code reason
  | subscribe id r =>
    exact aloof_call s (Engine.World.subscribe c id r) (a := .subscribed k id s.engine.calls)
      (by simp [Engine.World.subscribe]) rfl rfl
  | unsubscribe id sub =>
    exact aloof_call s (Engine.World.unsubscribe sub) (a := .unsubscribed k id)
      (by simp [Engine.World.unsubscribe]) rfl rfl
  | leave => exact aloof_hangUp s k

theorem aloof_onItem (s : Server) (k : PeerId) (p : Peer) (c : ConnectionId) (i : Incoming) :
    Aloof s (s.onItem k p c i) := by
  cases i with
  | text t => exact aloof_react s k c _
  | binary => exact aloof_closeWith s k _ _
  | ping payload =>
    unfold onItem
    dsimp only
    split
    · exact aloof_hangUp s k
    · exact (aloof_readOn _ k).after (beside_peer k fun p => (answerPing_kept p payload).1)
  | pong payload =>
    unfold onItem
    dsimp only
    split
    · exact aloof_hangUp s k
    · exact aloof_readOn s k
  | close => exact (aloof_hangUp _ k).after (beside_peer k fun _ => rfl)
  | lost => exact aloof_hangUp s k

theorem aloof_readNext (s : Server) (k : PeerId) (since : Nat) (before : Bool) :
    Aloof s (s.readNext k since before) := by
  unfold readNext
  split
  · exact aloof_last (beside_refl s)
  split
  · exact (aloof_onItem _ k _ _ _).after (beside_peer k fun _ => rfl)
  · exact aloof_readOn s k
  · exact aloof_hangUp s k
  · exact aloof_closeWith s k _ _

theorem aloof_sendMessage (s : Server) (k : PeerId) (p : Peer) (m : WebSocket.ServerMessage) :
    Aloof s (s.sendMessage k p m) := by
  unfold sendMessage
  split
  · exact aloof_next (beside_refl s) rfl rfl
  · exact aloof_next (beside_refl s) rfl rfl

theorem aloof_pickNext (s : Server) (k : PeerId) : Aloof s (s.pickNext k) := by
  unfold pickNext
  split
  · exact aloof_last (beside_refl s)
  rename_i p here
  split
  · exact aloof_last (beside_refl s)
  split
  · exact (aloof_sendMessage _ k _ _).after (beside_peer k fun _ => rfl)
  split
  · exact aloof_last (beside_refl s)
  · rename_i c connection
    unfold Engine.takeFrames
    cases s.engine.connections[c]? with
    | none => exact aloof_next (beside_refl s) (a := .writeClose k) rfl rfl
    | some z =>
      have taken : Beside s (s.mapEngine (·.updateConnection c fun x =>
          { x with queue := x.queue.drop 1 })) :=
        beside_connection ⟨p, here, connection⟩ fun _ => rfl
      cases queue : z.queue with
      | nil =>
        simp only [queue, List.take_nil]
        exact aloof_next (beside_refl s) rfl rfl
      | cons f rest =>
        simp only [queue, List.take_succ_cons, List.take_zero]
        exact (aloof_sendMessage _ k _ _).after taken

theorem aloof_writeItem (s : Server) (k : PeerId) (i : Item) : Aloof s (s.writeItem k i) := by
  unfold writeItem
  split
  · exact aloof_last (beside_refl s)
  split
  · exact aloof_last (beside_refl s)
  split
  · split
    · exact aloof_last (beside_stopWriting s k)
    · exact aloof_next (beside_refl s) rfl rfl
  · exact aloof_next (beside_peer k fun _ => rfl) rfl rfl

theorem beside_writeClose (s : Server) (k : PeerId) : Beside s (s.writeClose k) := by
  refine beside_peer k fun p => ?_
  split
  · rfl
  · exact (pushClose_kept p).1

theorem aloof_flush (s : Server) (k : PeerId) (isLast : Bool) : Aloof s (s.flush k isLast) := by
  unfold flush
  split
  · exact aloof_last (beside_refl s)
  rename_i p here
  split
  · exact aloof_last (beside_refl s)
  split
  · split
    · exact aloof_last (beside_stopWriting s k)
    · exact aloof_next (beside_refl s) rfl rfl
  split
  · have flushed : Beside s (s.updatePeer k (·.flush)) := beside_peer k fun p => (flush_kept p).1
    dsimp only
    split
    · exact aloof_last (flushed.trans (beside_stopWriting _ k))
    · exact aloof_next flushed rfl rfl
  split
  · exact aloof_last (beside_stopWriting s k)
  · dsimp only
    split
    · rename_i c connection
      have cancelled : Beside s (s.mapEngine (·.cancelConnection c)) :=
        beside_connection ⟨p, here, connection⟩ fun _ => rfl
      exact aloof_last (cancelled.trans (beside_stopWriting _ k))
    · exact aloof_last (beside_stopWriting s k)

theorem aloof_readBlocked (s : Server) (k : PeerId) : Aloof s (s.readBlocked k) := by
  have popped : Beside s (s.updatePeer k fun p => { p with incoming := p.incoming.tail }) :=
    beside_peer k fun _ => rfl
  have hanging (s : Server) : Aloof s (s.hangUpBlocked k) :=
    ⟨beside_refl s, by simp [hangUpBlocked, Action.serves?], by simp [hangUpBlocked], rfl⟩
  unfold readBlocked
  split
  · exact aloof_last (beside_refl s)
  dsimp only
  split
  · exact aloof_next popped rfl rfl
  · split
    · exact (hanging _).after popped
    · refine ⟨popped, fun b member => ?_, fun c member => ?_, rfl⟩
      · rcases List.mem_append.mp member with reply | last
        · obtain ⟨i, -, here⟩ := List.mem_flatMap.mp reply
          have either : b = .writeBlocked k i ∨ b = .flushBlocked k := by simpa using here
          rcases either with rfl | rfl <;> rfl
        · rw [List.mem_singleton.mp last]
          rfl
      · simp at member
  · split
    · exact (hanging _).after popped
    · exact aloof_next (popped.trans (beside_peer k fun p => (answerPing_kept p _).1)) rfl rfl
  · split
    · exact (hanging _).after popped
    · exact aloof_next popped rfl rfl
  · exact (hanging _).after (popped.trans (beside_peer k fun _ => rfl))
  · exact (hanging _).after popped
  · exact aloof_next popped rfl rfl

theorem perform_aloof (session : a.engine? = none) (other : a.serves? = none) :
    Aloof s (s.perform a) := by
  cases a with
  | engine b => simp [Action.engine?] at session
  | read k since before due? => exact aloof_readNext s k since before
  | subscribed k id call =>
    simp only [perform]
    split
    · exact (aloof_readOn _ k).after (beside_peer k fun _ => rfl)
    · exact aloof_readOn s k
  | unsubscribed k id =>
    simp only [perform]
    split
    · exact (aloof_readOn _ k).after (beside_peer k fun _ => rfl)
    · exact aloof_last (beside_refl s)
  | waitForWriter k => exact aloof_next (beside_refl s) rfl rfl
  | endSocket k due => exact aloof_last (beside_finishSocket s k)
  | pick k => exact aloof_pickNext s k
  | write k i => exact aloof_writeItem s k i
  | writeClose k => exact aloof_next (beside_writeClose s k) rfl rfl
  | flush k isLast due => exact aloof_flush s k isLast
  | readBlocked k => exact aloof_readBlocked s k
  | writeBlocked k i =>
    refine aloof_last (beside_peer k fun p => ?_)
    split <;> rfl
  | writeCloseBlocked k => exact aloof_last (beside_writeClose s k)
  | flushBlocked k =>
    refine aloof_last (beside_peer k fun p => ?_)
    split
    · rfl
    · exact (flush_kept p).1
  | endBlocked k => exact aloof_last (beside_finishSocket s k)
  | answerStream k call | refuseStream k payload | stream k due => simp [Action.serves?] at other

/-! ## What is written on a stream -/

inductive Piece where
  | said (chunk : String)
  | frame (f : Frame)
  | alive

namespace Piece

def text : Piece → String
  | said chunk => chunk
  | frame f => EventStream.chunk f
  | alive => EventStream.keepAlive

def frame? : Piece → Option Frame
  | frame f => some f
  | _ => none

end Piece

def nextPiece (s : Server) (x : Streaming) : List Piece :=
  if x.gone then []
  else match x.pending with
    | chunk :: _ => [.said chunk]
    | [] =>
      if x.complete then []
      else match x.connection? with
        | none => []
        | some c =>
          match s.engine.queueOf c with
          | f :: _ => [.frame f]
          | [] => if s.engine.isCancelled c then [] else [.alive]

def lays (s : Server) (k : StreamId) : Action → List Piece
  | .stream k' _ =>
    if k' = k then
      match s.streams[k]? with
      | some x => s.nextPiece x
      | none => []
    else []
  | _ => []

def streamed (k : StreamId) (log : Steps) : List Piece := log.flatMap fun q => q.1.lays k q.2

def framesOf (pieces : List Piece) : List Frame := pieces.filterMap Piece.frame?

theorem streamed_more (k : StreamId) (log : Steps) (s : Server) (a : Action) :
    streamed k (log ++ [(s, a)]) = streamed k log ++ s.lays k a := by
  simp [streamed]

theorem framesOf_append (p q : List Piece) : framesOf (p ++ q) = framesOf p ++ framesOf q :=
  List.filterMap_append

theorem lays_here (here : s.streams[k]? = some x) (due : Nat) :
    s.lays k (.stream k due) = s.nextPiece x := by
  simp [lays, here]

theorem lays_other (other : a.serves? ≠ some k) : s.lays k a = [] := by
  cases a with
  | stream k' due =>
    have differ : k' ≠ k := fun same => other (same ▸ rfl)
    simp [lays, differ]
  | _ => rfl

/-! ### A turn of a stream -/

theorem takeFrames_cons {e : Engine} {f : Frame} {rest : List Frame}
    (waits : e.queueOf c = f :: rest) :
    e.takeFrames c 1 = ([f], e.updateConnection c fun z => { z with queue := z.queue.drop 1 }) := by
  cases found : e.connections[c]? with
  | some z =>
    have queue : z.queue = f :: rest := by simpa [Engine.queueOf, found] using waits
    simp [Engine.takeFrames, found, queue]
  | none => simp [Engine.queueOf, found] at waits

theorem takeFrames_nil {e : Engine} (waits : e.queueOf c = []) : (e.takeFrames c 1).1 = [] := by
  cases found : e.connections[c]? with
  | some z =>
    have queue : z.queue = [] := by simpa [Engine.queueOf, found] using waits
    simp [Engine.takeFrames, found, queue]
  | none => simp [Engine.takeFrames, found]

def Streaming.write (x : Streaming) (chunk : String) : Streaming :=
  { x with wire := (x.wire.push (.chunk chunk)).flush }

inductive Beat (s : Server) (k : StreamId) (x : Streaming) (f : Effect) : Prop where
  | ends (ceased : x.gone = true ∨ x.pending = [] ∧ (x.complete = true ∨ x.connection? = none ∨
        ∃ c, x.connection? = some c ∧ s.engine.queueOf c = [] ∧ s.engine.isCancelled c = true))
      (silent : s.nextPiece x = [])
      (after : f.server.streams[k]? = some { x with wire := x.wire.cut, complete := true })
      (lines : f.server.engine.connections = s.engine.connections)
      (managed : f.server.engine.managed = s.engine.managed) (next : f.next = [])
      (started : f.started = x.connection?.toList.map fun c =>
        (Engine.World.release c s.engine.calls).map .engine)
  | speaks (chunk : String) (rest : List String) (going : x.gone = false)
      (pending : x.pending = chunk :: rest) (writes : s.nextPiece x = [.said chunk])
      (after : f.server.streams[k]? =
        some { x.write chunk with pending := rest, complete := rest.isEmpty })
      (engine : f.server.engine = s.engine) (due : Nat) (next : f.next = [.stream k due])
      (started : f.started = [])
  | passes (c : ConnectionId) (g : Frame) (rest : List Frame) (going : x.gone = false)
      (nothing : x.pending = []) (ongoing : x.complete = false)
      (connection : x.connection? = some c)
      (waits : s.engine.queueOf c = g :: rest) (writes : s.nextPiece x = [.frame g])
      (after : f.server.streams[k]? =
        some { x.write (EventStream.chunk g) with complete := !g.isMessage })
      (engine : f.server.engine =
        s.engine.updateConnection c fun z => { z with queue := z.queue.drop 1 })
      (due : Nat) (next : f.next = [.stream k due]) (started : f.started = [])
  | rests (c : ConnectionId) (going : x.gone = false) (nothing : x.pending = [])
      (ongoing : x.complete = false) (connection : x.connection? = some c)
      (waits : s.engine.queueOf c = []) (writes : s.nextPiece x = [.alive])
      (after : f.server.streams[k]? = some (x.write EventStream.keepAlive))
      (engine : f.server.engine = s.engine) (due : Nat) (next : f.next = [.stream k due])
      (started : f.started = [])

theorem endStream_beat (here : s.streams[k]? = some x)
    (ceased : x.gone = true ∨ x.pending = [] ∧ (x.complete = true ∨ x.connection? = none ∨
      ∃ c, x.connection? = some c ∧ s.engine.queueOf c = [] ∧ s.engine.isCancelled c = true))
    (silent : s.nextPiece x = []) : Beat s k x (s.endStream k x) := by
  have after :
    (s.updateStream k fun x => { x with wire := x.wire.cut, complete := true }).streams[k]? =
      some { x with wire := x.wire.cut, complete := true } := by simp [updateStream, here]
  unfold endStream
  dsimp only
  cases connection : x.connection? with
  | none => exact .ends ceased silent after rfl rfl rfl (by simp [connection])
  | some c =>
    refine .ends ceased silent after rfl rfl rfl ?_
    rw [connection]
    rfl

theorem streamNext_beat (here : s.streams[k]? = some x) : Beat s k x (s.streamNext k) := by
  have written (s : Server) (here : s.streams[k]? = some x) (chunk : String)
      (f : Streaming → Streaming) :
      ((s.emit k chunk).updateStream k f).streams[k]? = some (f (x.write chunk)) := by
    simp [emit, updateStream, here, Streaming.write]
  unfold streamNext
  rw [here]
  dsimp only
  split
  · rename_i gone
    exact endStream_beat here (.inl gone) (by simp [nextPiece, gone])
  rename_i stays
  have going : x.gone = false := Bool.eq_false_iff.mpr stays
  split
  · rename_i chunk rest pending
    have piece : s.nextPiece x = [.said chunk] := by simp [nextPiece, going, pending]
    exact .speaks chunk rest going pending piece (written s here chunk _) rfl _ rfl rfl
  rename_i pending
  split
  · rename_i complete
    exact endStream_beat here (.inr ⟨pending, .inl complete⟩)
      (by simp [nextPiece, pending, complete])
  rename_i more
  have ongoing : x.complete = false := Bool.eq_false_iff.mpr more
  split
  · rename_i connection
    exact endStream_beat here (.inr ⟨pending, .inr (.inl connection)⟩)
      (by simp [nextPiece, pending, connection])
  rename_i c connection
  cases waits : s.engine.queueOf c with
  | cons g rest =>
    have piece : s.nextPiece x = [.frame g] := by
      simp [nextPiece, going, pending, ongoing, connection, waits]
    rw [takeFrames_cons waits]
    exact .passes c g rest going pending ongoing connection waits piece
      (written { s with engine := _ } here _ _) rfl _ rfl rfl
  | nil =>
    have none := takeFrames_nil waits
    split
    · rename_i taking
      simp [taking] at none
    rw [connection]
    split
    · rename_i cancelled
      exact endStream_beat here (.inr ⟨pending, .inr (.inr ⟨c, connection, waits, cancelled⟩)⟩)
        (by
          have cancelled : s.engine.isCancelled c = true := cancelled
          simp [nextPiece, pending, connection, waits, cancelled])
    · rename_i serving
      have serving : s.engine.isCancelled c = false := Bool.eq_false_iff.mpr serving
      have piece : s.nextPiece x = [.alive] := by
        simp [nextPiece, going, pending, ongoing, connection, waits, serving]
      have alive : (s.emit k EventStream.keepAlive).streams[k]? =
          some (x.write EventStream.keepAlive) := by
            simp [emit, updateStream, here, Streaming.write]
      exact .rests c going pending ongoing connection waits piece alive rfl _ rfl rfl

/-! ### Whose streams -/

/-- On a stream nobody else does anything, and streams are as many as before. -/
theorem perform_streams (s : Server) (a : Action) :
    (s.perform a).server.streams.length = s.streams.length ∧
      ∀ k, a.serves? ≠ some k → (s.perform a).server.streams[k]? = s.streams[k]? := by
  have kept {s' : Server} (same : s'.streams = s.streams) : s'.streams.length = s.streams.length ∧
      ∀ k, a.serves? ≠ some k → s'.streams[k]? = s.streams[k]? := by simp [same]
  have served {s' : Server} {f : Streaming → Streaming} {k' : StreamId}
    (whose : a.serves? = some k')
      (same : s'.streams = s.streams.modify k' f) : s'.streams.length = s.streams.length ∧
      ∀ k, a.serves? ≠ some k → s'.streams[k]? = s.streams[k]? := by
    refine ⟨by simp [same], fun k other => ?_⟩
    have differ : k' ≠ k := fun is => other (whose.trans (congrArg some is))
    simp [same, differ]
  cases a with
  | engine b => exact kept rfl
  | answerStream k' call =>
    simp only [perform, answerStream]
    split
    · split
      · exact kept rfl
      · exact kept rfl
    · exact served rfl rfl
  | refuseStream k' payload => exact served rfl rfl
  | stream k' due =>
    have ended (x : Streaming) : (s.endStream k' x).server.streams.length = s.streams.length ∧
        ∀ k, (Action.stream k' due).serves? ≠ some k →
          (s.endStream k' x).server.streams[k]? = s.streams[k]? := by
      unfold endStream
      dsimp only
      split
      · exact served rfl rfl
      · exact served rfl rfl
    simp only [perform, streamNext]
    split
    · exact kept rfl
    split
    · exact ended _
    split
    · exact served rfl (List.modify_modify_eq ..)
    split
    · exact ended _
    split
    · exact ended _
    split
    · exact served rfl (List.modify_modify_eq ..)
    · split
      · exact ended _
      · exact served rfl rfl
  | _ => exact kept (perform_aloof rfl rfl).beside.streams

end Server

end SubscriptionGateway
