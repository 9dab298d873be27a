import SubscriptionGateway.Proofs.Server.Streams

/-!
Streams and their connections. Whatever is to be done for a stream the stream gives itself, or it
has come from outside with it. A stream keeps the connection that was made for it, which is told to
stop only when it is closed.
-/
namespace SubscriptionGateway

open Broker

namespace Server

open Engine (happened happened_append)

variable {s s' : Server} {k j : StreamId} {c : ConnectionId} {a : Action} {x y : Streaming}
  {todo as : List Action} {ts us others : List (List Action)} {log : Steps} {setup : Setup}
  {hub : Hub} {first : Server} {laid : List Piece}

/-! ## What is to be done for a stream -/

def chores (k : StreamId) (as : List Action) : List Action := as.filter fun a => a.serves? == some k

theorem chores_append (as bs : List Action) : chores k (as ++ bs) = chores k as ++ chores k bs :=
  List.filter_append ..

theorem chores_unserved (unserved : ∀ b ∈ as, b.serves? = none) : chores k as = [] :=
  List.filter_eq_nil_iff.mpr fun b member => by simp [unserved b member]

theorem engine_unserved (es : List Engine.Action) :
    ∀ b ∈ es.map Action.engine, b.serves? = none := by
  intro b member
  obtain ⟨e, -, rfl⟩ := List.mem_map.mp member
  rfl

theorem started_unserved (s : Server) (a : Action) :
    ∀ b ∈ (s.perform a).started.flatten, b.serves? = none := by
  intro b member
  obtain ⟨u, started, inside⟩ := List.mem_flatten.mp member
  cases session : a.engine? with
  | some e =>
    obtain rfl := eq_engine session
    obtain ⟨es, -, rfl⟩ := List.mem_map.mp started
    exact engine_unserved es b inside
  | none =>
    cases perform_conduct s a session with
    | sends c _ _ starts =>
      obtain rfl : u = ((Engine.Call.release c).task s.engine.calls).map Action.engine := by
        simpa [starts] using started
      exact engine_unserved _ b inside
    | _ => simp_all

theorem answerStream_serves (s : Server) (k : StreamId) (call : CallId) :
    ∀ b ∈ (s.answerStream k call).next, b.serves? = none ∨ b.serves? = some k := by
  unfold answerStream
  split
  · dsimp only
    split
    · simp [Action.serves?]
    · simp [ask, Engine.World.release, Action.serves?]
  · simp [Action.serves?]

theorem perform_unserved (s : Server) (other : a.serves? ≠ some k) :
    chores k (s.perform a).next = [] := by
  have own {k' : StreamId} (whose : a.serves? = some k')
      (next : ∀ b ∈ (s.perform a).next, b.serves? = none ∨ b.serves? = some k') :
      chores k (s.perform a).next = [] := by
    refine List.filter_eq_nil_iff.mpr fun b member => ?_
    have differ : k' ≠ k := fun same => other (whose.trans (congrArg some same))
    rcases next b member with none | mine
    · simp [none]
    · simp [mine, differ]
  cases a with
  | engine b => exact chores_unserved (engine_unserved _)
  | answerStream k' call => exact own rfl (answerStream_serves s k' call)
  | refuseStream k' payload => exact own rfl (by simp [perform, refuseStream, Action.serves?])
  | stream k' due =>
    refine own rfl ?_
    cases here : s.streams[k']? with
    | none => simp [perform, streamNext, here]
    | some x =>
      have beat : Beat s k' x (s.perform (.stream k' due)) := streamNext_beat here
      cases beat with
      | ends _ _ _ _ _ next => simp [next]
      | speaks _ _ _ _ _ _ _ due next => simp [next, Action.serves?]
      | passes _ _ _ _ _ _ _ _ _ _ _ due next => simp [next, Action.serves?]
      | rests _ _ _ _ _ _ _ _ _ due next => simp [next, Action.serves?]
  | _ => exact chores_unserved (perform_aloof rfl rfl).unserved

theorem mem_performed {b : Action}
    (member : b ∈ (((s.perform a).next ++ todo) :: ((s.perform a).started ++ others)).flatten) :
    b ∈ (s.perform a).next ++ (s.perform a).started.flatten ∨ b ∈ todo ++ others.flatten := by
  simp only [List.flatten_cons, List.flatten_append, List.mem_append] at member ⊢
  rcases member with (next | own) | started | elsewhere
  · exact .inl (.inl next)
  · exact .inr (.inl own)
  · exact .inl (.inr started)
  · exact .inr (.inr elsewhere)

theorem chores_performed (s : Server) (a : Action) (todo : List Action)
    (others : List (List Action)) :
    chores k (((s.perform a).next ++ todo) :: ((s.perform a).started ++ others)).flatten =
      chores k (s.perform a).next ++ chores k (todo ++ others.flatten) := by
  have started : chores k (s.perform a).started.flatten = [] :=
    chores_unserved (started_unserved s a)
  simp only [List.flatten_cons, List.flatten_append, chores_append, started, List.nil_append,
    List.append_assoc]

/-! ## Connections of streams -/

def Feeds (s : Server) (k : StreamId) (c : ConnectionId) : Prop :=
  ∃ x, s.streams[k]? = some x ∧ x.connection? = some c

/-- Every stream has a connection of its own, which is told to stop only when it is closed. -/
structure Lined (s : Server) : Prop where
  line : ∀ k c, s.Feeds k c → ∃ z : Connection, s.engine.connections[c]? = some z ∧
    z.transport = .eventStream ∧ z.cancelled = z.closed
  single : ∀ j k c, s.Feeds j c → s.Feeds k c → j = k
  socket : ∀ k c, s.Sits k c → ∃ z : Connection, s.engine.connections[c]? = some z ∧
    z.transport = .webSocket

theorem Lined.aloof (lined : Lined s) {z : Connection} (found : s.engine.connections[c]? = some z)
    (kind : z.transport = .eventStream) (k : PeerId) : ¬ s.Sits k c := by
  intro sits
  obtain ⟨z', found', kind'⟩ := lined.socket k c sits
  obtain rfl : z = z' := by simpa [found] using found'
  simp [kind] at kind'

theorem Lined.unsat (lined : Lined s) (feeds : s.Feeds k c) (k' : PeerId) : ¬ s.Sits k' c := by
  obtain ⟨z, found, kind, -⟩ := lined.line k c feeds
  exact lined.aloof found kind k'

/-! ### Turns of a stream before it is served -/

inductive Reception (s : Server) (k : StreamId) (x : Streaming) (c : ConnectionId) (call : CallId)
    (f : Effect) : Prop where
  | refuses (fault : Fault) (failed : s.engine.reply? call = some (.failed fault))
      (streams : f.server.streams = s.streams) (engine : f.server.engine = s.engine.newCall.2)
      (next : f.next = (Engine.World.release c s.engine.calls).map Action.engine ++
        [.refuseStream k (Outcome.errorsBody [{ message := fault.clientMessage }])])
      (started : f.started = [])
  | accepts (after : f.server.streams[k]? = some { x with response? := some opened })
      (engine : f.server.engine = s.engine) (due : Nat) (next : f.next = [.stream k due])
      (started : f.started = [])

theorem answerStream_reception (here : s.streams[k]? = some x) (connection : x.connection? = some c)
    (call : CallId) : Reception s k x c call (s.answerStream k call) := by
  unfold answerStream
  rw [here]
  split
  · rename_i fault x' failed same
    obtain rfl : x = x' := Option.some.inj same
    dsimp only
    rw [connection]
    exact .refuses fault failed rfl rfl rfl rfl
  · exact .accepts (by simp [updateStream, here]) rfl _ rfl rfl

inductive Assigns (s : Server) (k : StreamId) (a : Action) : Action → Prop where
  | serves (due : Nat) : Assigns s k a (.stream k due)
  | refuses (call : CallId) (fault : Fault) (answers : a = .answerStream k call)
      (failed : s.engine.reply? call = some (.failed fault)) (payload : Json)
      (releases : ∀ c, s.Feeds k c → .engine (.release c) ∈ (s.perform a).next) :
    Assigns s k a (.refuseStream k payload)

theorem perform_assigns {b : Action} (next : b ∈ (s.perform a).next) (whose : b.serves? = some k) :
    Assigns s k a b := by
  have own : a.serves? = some k := by
    refine Classical.byContradiction fun other => ?_
    have member : b ∈ chores k (s.perform a).next := List.mem_filter.mpr ⟨next, by simp [whose]⟩
    rw [perform_unserved s other] at member
    exact List.not_mem_nil member
  have served {due : Nat} (only : (s.perform a).next = [.stream k due]) : Assigns s k a b := by
    obtain rfl : b = .stream k due := by simpa [only] using next
    exact .serves due
  cases a with
  | answerStream k' call =>
    obtain rfl : k' = k := by simpa [Action.serves?] using own
    have fed {x : Streaming} (here : s.streams[k']? = some x) {c : ConnectionId}
      (feeds : s.Feeds k' c) :
        x.connection? = some c := by
      obtain ⟨x', here', connection⟩ := feeds
      obtain rfl := Option.some.inj (here.symm.trans here')
      exact connection
    have answer : b ∈ (s.answerStream k' call).next := next
    unfold answerStream at answer
    split at answer
    · rename_i fault x failed here
      cases connection : x.connection? with
      | none =>
        obtain rfl : b = .refuseStream k' _ := by simpa [connection] using answer
        exact .refuses call fault rfl failed _ fun c feeds => by simp [fed here feeds] at connection
      | some c =>
        have reception : Reception s k' x c call (s.perform (.answerStream k' call)) :=
          answerStream_reception here connection call
        cases reception with
        | refuses _ _ _ _ all =>
          rw [all] at next
          rcases List.mem_append.mp next with release | refusal
          · simp [engine_unserved _ b release] at whose
          · obtain rfl := List.mem_singleton.mp refusal
            refine .refuses call fault rfl failed _ fun c' feeds => ?_
            obtain rfl := Option.some.inj (connection.symm.trans (fed here feeds))
            rw [all]
            exact List.mem_append_left _ (List.mem_cons_self ..)
        | accepts _ _ due only => exact served only
    · obtain rfl : b = .stream k' s.nextKeepAlive := by simpa using answer
      exact .serves _
  | refuseStream k' payload =>
    obtain rfl : k' = k := by simpa [Action.serves?] using own
    exact served rfl
  | stream k' due =>
    obtain rfl : k' = k := by simpa [Action.serves?] using own
    cases here : s.streams[k']? with
    | none => simp [perform, streamNext, here] at next
    | some x =>
      have beat : Beat s k' x (s.perform (.stream k' due)) := streamNext_beat here
      cases beat with
      | ends _ _ _ _ _ none => simp [none] at next
      | speaks _ _ _ _ _ _ _ due only => exact served only
      | passes _ _ _ _ _ _ _ _ _ _ _ due only => exact served only
      | rests _ _ _ _ _ _ _ _ _ due only => exact served only
  | _ => simp [Action.serves?] at own

theorem mem_assigned {b : Action} (whose : b.serves? = some k)
    (member : b ∈ (((s.perform a).next ++ todo) :: ((s.perform a).started ++ others)).flatten) :
    Assigns s k a b ∨ b ∈ todo ++ others.flatten := by
  refine (mem_performed member).imp_left fun new => ?_
  rcases List.mem_append.mp new with next | started
  · exact perform_assigns next whose
  · simp [started_unserved s a b started] at whose

theorem perform_connection (here : s.streams[k]? = some x)
    (there : (s.perform a).server.streams[k]? = some y) : y.connection? = x.connection? ∨
      y.connection? = none ∧ ∃ payload, a = .refuseStream k payload := by
  by_cases whose : a.serves? = some k
  · cases a with
    | answerStream k' call =>
      obtain rfl : k' = k := by simpa [Action.serves?] using whose
      simp only [perform, answerStream] at there
      split at there
      · have same : s.streams[k']? = some y := by split at there <;> exact there
        obtain rfl := Option.some.inj (here.symm.trans same)
        exact .inl rfl
      · obtain rfl : { x with response? := some opened } = y := by
          simpa [updateStream, here] using there
        exact .inl rfl
    | refuseStream k' payload =>
      obtain rfl : k' = k := by simpa [Action.serves?] using whose
      have after : (s.perform (.refuseStream k' payload)).server.streams[k']? =
          some { x with response? := some opened, connection? := none,
                        pending := EventStream.refusal payload } := by
        simp [perform, refuseStream, updateStream, here]
      obtain rfl := Option.some.inj (after.symm.trans there)
      exact .inr ⟨rfl, payload, rfl⟩
    | stream k' due =>
      obtain rfl : k' = k := by simpa [Action.serves?] using whose
      have beat : Beat s k' x (s.perform (.stream k' due)) := streamNext_beat here
      cases beat with
      | ends _ _ after | speaks _ _ _ _ _ after | passes _ _ _ _ _ _ _ _ _ after
      | rests _ _ _ _ _ _ _ after =>
        obtain rfl := Option.some.inj (after.symm.trans there)
        exact .inl rfl
    | _ => simp [Action.serves?] at whose
  · obtain rfl := Option.some.inj ((((perform_streams s a).2 k whose).trans here).symm.trans there)
    exact .inl rfl

theorem perform_feeds (feeds : (s.perform a).server.Feeds k c) : s.Feeds k c := by
  obtain ⟨y, there, connection⟩ := feeds
  have bound := (List.getElem?_eq_some_iff.mp there).1
  rw [(perform_streams s a).1] at bound
  have here := List.getElem?_eq_getElem bound
  rcases perform_connection here there with same | ⟨none, -⟩
  · exact ⟨_, here, same.symm.trans connection⟩
  · simp [none] at connection

theorem served_line (served : a.serves? = some k) (other : ¬ s.Feeds k c) :
    (s.perform a).server.engine.connections[c]? = s.engine.connections[c]? := by
  cases a with
  | answerStream k' call =>
    simp only [perform, answerStream]
    split
    · split <;> rfl
    · rfl
  | refuseStream k' payload => rfl
  | stream k' due =>
    obtain rfl : k' = k := by simpa [Action.serves?] using served
    cases here : s.streams[k']? with
    | none => simp [perform, streamNext, here]
    | some x =>
      have beat : Beat s k' x (s.perform (.stream k' due)) := streamNext_beat here
      cases beat with
      | ends _ _ _ lines => rw [lines]
      | speaks _ _ _ _ _ _ engine => rw [engine]
      | passes c' _ _ _ _ _ connection _ _ _ engine =>
        have apart : c' ≠ c := fun same => other ⟨x, here, same ▸ connection⟩
        simp [engine, Engine.updateConnection, apart]
      | rests _ _ _ _ _ _ _ _ engine => rw [engine]
  | _ => simp [Action.serves?] at served

theorem session_line (session : a.engine? = none) (unsat : ∀ k, ¬ s.Sits k c)
    (other : ∀ k, a.serves? = some k → ¬ s.Feeds k c) :
    (s.perform a).server.engine.connections[c]? = s.engine.connections[c]? := by
  cases served : a.serves? with
  | some k => exact served_line served (other k served)
  | none => exact (perform_aloof session served).beside.line c unsat

theorem perform_kinds (s : Server) (a : Action) :
    (s.perform a).server.engine.connections.map (·.transport) =
      s.engine.connections.map (·.transport) := by
  cases a with
  | engine b =>
    refine List.ext_getElem? fun c => ?_
    simp only [List.getElem?_map]
    cases found : s.engine.connections[c]? with
    | none =>
      have beyond := List.getElem?_eq_none_iff.mp found
      rw [← (Engine.perform_setup s.engine b).2] at beyond
      have absent : (s.perform (.engine b)).server.engine.connections[c]? = none :=
        List.getElem?_eq_none beyond
      rw [absent]
    | some z =>
      obtain ⟨z', found', kind, -⟩ := Engine.perform_line s.engine b found
      have there : (s.perform (.engine b)).server.engine.connections[c]? = some z' := found'
      simp [there, kind]
  | answerStream k call =>
    simp only [perform, answerStream]
    split
    · split <;> rfl
    · rfl
  | refuseStream k payload => rfl
  | stream k due =>
    cases here : s.streams[k]? with
    | none => simp [perform, streamNext, here]
    | some x =>
      have beat : Beat s k x (s.perform (.stream k due)) := streamNext_beat here
      cases beat with
      | ends _ _ _ lines => rw [lines]
      | speaks _ _ _ _ _ _ engine => rw [engine]
      | passes c _ _ _ _ _ _ _ _ _ engine =>
        refine List.ext_getElem? fun n => ?_
        simp only [engine, Engine.updateConnection, List.getElem?_map, List.getElem?_modify]
        cases s.engine.connections[n]? with
        | none => rfl
        | some z => by_cases here : c = n <;> simp [here]
      | rests _ _ _ _ _ _ _ _ engine => rw [engine]
  | _ => exact (perform_aloof rfl rfl).beside.kinds

/-- What becomes of the connection of a stream: frames apart it is only ever closed. -/
theorem fed_line (lined : Lined s) (feeds : s.Feeds k c) {z : Connection}
    (found : s.engine.connections[c]? = some z) (a : Action) : ∃ z' : Connection,
    (s.perform a).server.engine.connections[c]? = some z' ∧ z'.transport = z.transport ∧
      (z.cancelled = z.closed → z'.cancelled = z'.closed) ∧
      (z.closed = true → z'.closed = true) := by
  have still {s' : Server} (same : s'.engine.connections[c]? = s.engine.connections[c]?) :
      ∃ z' : Connection, s'.engine.connections[c]? = some z' ∧ z'.transport = z.transport ∧
        (z.cancelled = z.closed → z'.cancelled = z'.closed) ∧
        (z.closed = true → z'.closed = true) := ⟨z, same.trans found, rfl, id, id⟩
  cases session : a.engine? with
  | some b =>
    obtain rfl := eq_engine session
    obtain ⟨z', found', kind, even⟩ := Engine.perform_line s.engine b found
    refine ⟨z', found', kind, even, fun closed => ?_⟩
    cases after : z'.closed with
    | true => rfl
    | false =>
      have isOpen :=
        Engine.perform_closed s.engine b (c := c) (by simp [Engine.isClosed, found', after])
      simp [Engine.isClosed, found, closed] at isOpen
  | none =>
    by_cases own : ∃ j, a.serves? = some j ∧ s.Feeds j c
    · obtain ⟨j, whose, mine⟩ := own
      cases a with
      | answerStream k' call =>
        refine still ?_
        simp only [perform, answerStream]
        split
        · split <;> rfl
        · rfl
      | refuseStream k' payload => exact still rfl
      | stream k' due =>
        obtain rfl : k' = j := by simpa [Action.serves?] using whose
        obtain ⟨x, here, connection⟩ := mine
        have beat : Beat s k' x (s.perform (.stream k' due)) := streamNext_beat here
        cases beat with
        | ends _ _ _ lines => exact still (by rw [lines])
        | speaks _ _ _ _ _ _ engine => exact still (by rw [engine])
        | passes c' _ _ _ _ _ connection' _ _ _ engine =>
          obtain rfl : c = c' := Option.some.inj (connection.symm.trans connection')
          exact ⟨{ z with queue := z.queue.drop 1 }, by
            simp [engine, Engine.updateConnection, found],
            rfl, id, id⟩
        | rests _ _ _ _ _ _ _ _ engine => exact still (by rw [engine])
      | _ => simp [Action.serves?] at whose
    · exact still (session_line session (lined.unsat feeds) fun j whose mine =>
        own ⟨j, whose, mine⟩)

theorem perform_lined (lined : Lined s) (a : Action) : Lined (s.perform a).server where
  line k c feeds := by
    obtain ⟨z, found, kind, even⟩ := lined.line k c (perform_feeds feeds)
    obtain ⟨z', found', kind', even', -⟩ := fed_line lined (perform_feeds feeds) found a
    exact ⟨z', found', kind'.trans kind, even' even⟩
  single j k c one other := lined.single j k c (perform_feeds one) (perform_feeds other)
  socket k c sits := by
    obtain ⟨z, found, kind⟩ := lined.socket k c ((perform_sits s a).mp sits)
    have kinds := congrArg (·[c]?) (perform_kinds s a)
    simp only [List.getElem?_map, found, Option.map_some] at kinds
    obtain ⟨z', found', same⟩ := Option.map_eq_some_iff.mp kinds
    exact ⟨z', found', same.trans kind⟩

/-! ### What comes from outside -/

def refusedStream : Streaming :=
  { connection? := none, response? := some opened
    pending := EventStream.refusal WebSocket.Session.blockedPayload }

inductive Audience (s : Server) (w : World) : Prop where
  | none (streams : w.state.streams = s.streams)
      (lines : w.state.engine.connections = s.engine.connections)
      (managed : w.state.engine.managed = s.engine.managed)
      (unserved : ∀ a ∈ w.tasks.flatten, a.serves? = none)
  | changes (k : StreamId) (f : Streaming → Streaming)
      (stays : (∀ x, f x = { x with gone := true }) ∨ ∀ x, f x = { x with wire := x.wire.take.2 })
      (streams : w.state.streams = s.streams.modify k f) (engine : w.state.engine = s.engine)
      (tasks : w.tasks = [])
  | joins (streams : w.state.streams = s.streams)
      (engine : w.state.engine = (s.engine.openConnection .webSocket).2)
      (unserved : ∀ a ∈ w.tasks.flatten, a.serves? = none)
  | refused (streams : w.state.streams = s.streams ++ [refusedStream])
      (engine : w.state.engine = s.engine) (due : Nat)
      (tasks : w.tasks = [[.stream s.streams.length due]])
  | asks (r : Request)
      (streams : w.state.streams = s.streams ++
        [{ connection? := some s.engine.connections.length }])
      (engine : w.state.engine = (s.engine.openConnection .eventStream).2.newCall.2)
      (tasks : w.tasks = [[.engine (.subscribe s.engine.calls s.engine.connections.length
        EventStream.clientId r), .answerStream s.streams.length s.engine.calls]])

theorem input_audience (s : Server) (i : Input) : Audience s (i.act ⟨s, []⟩) := by
  have apart {w : World} (streams : w.state.streams = s.streams)
      (engine : w.state.engine = s.engine) (tasks : w.tasks = []) : Audience s w :=
    .none streams (by rw [engine]) (by rw [engine]) (by simp [tasks])
  cases i with
  | join header capacity stalled =>
    simp only [Input.act, World.openSocket]
    split
    · exact .none rfl rfl rfl (by simp [World.map, Running.spawn, Action.serves?])
    · refine .joins rfl rfl ?_
      simp [Running.spawn, readOn, Action.serves?]
  | say k i =>
    simp only [Input.act, World.send]
    split <;> exact apart rfl rfl rfl
  | request accept body =>
    simp only [Input.act, World.requestStream]
    split
    · exact apart rfl rfl rfl
    split
    · exact apart rfl rfl rfl
    split
    · exact .refused rfl rfl _ rfl
    · rename_i r _ _
      exact .asks r rfl rfl rfl
  | abandon k => exact .changes k _ (.inl fun _ => rfl) rfl rfl rfl
  | shutdown drainMs =>
    exact .none rfl rfl rfl (by simp [Input.act, World.beginShutdown, Running.spawn, ask,
      Engine.World.shutdownAll, Action.serves?])
  | receive k =>
    simp only [Input.act, World.received]
    split <;> exact apart rfl rfl rfl
  | receiveChunks k =>
    simp only [Input.act, World.receivedChunks]
    split
    · exact .changes k _ (.inr fun _ => rfl) rfl rfl rfl
    · exact apart rfl rfl rfl
  | drop k => exact apart rfl rfl rfl
  | resume k => exact apart rfl rfl rfl
  | brokers hub => exact .none rfl rfl rfl (by simp [Input.act, World.map])
  | pass ms => exact .none rfl rfl rfl (by simp [Input.act, World.map])

theorem openConnection_line (e : Engine) (t : Transport) (c : ConnectionId) :
    (e.openConnection t).2.connections[c]? =
      if c = e.connections.length then some { transport := t } else e.connections[c]? := by
  have made :
    (e.openConnection t).2.connections = e.connections ++ [({ transport := t } : Connection)] :=
    rfl
  rw [made]
  rcases Nat.lt_trichotomy c e.connections.length with old | rfl | beyond
  · rw [List.getElem?_append_left old, if_neg (Nat.ne_of_lt old)]
  · simp
  · rw [if_neg (Nat.ne_of_gt beyond), List.getElem?_eq_none (Nat.le_of_lt beyond)]
    exact List.getElem?_eq_none (by simp; omega)

theorem feeds_joined (streams : s'.streams = s.streams ++ [y]) (feeds : s'.Feeds k c) :
    s.Feeds k c ∨ k = s.streams.length ∧ y.connection? = some c := by
  obtain ⟨x, there, connection⟩ := feeds
  rw [streams] at there
  rcases Nat.lt_trichotomy k s.streams.length with old | rfl | beyond
  · rw [List.getElem?_append_left old] at there
    exact .inl ⟨x, there, connection⟩
  · obtain rfl : y = x := by simpa using there
    exact .inr ⟨rfl, connection⟩
  · rw [List.getElem?_eq_none (by simp; omega)] at there
    cases there

theorem audience_feeds {w : World} (audience : Audience s w) (feeds : w.state.Feeds k c) :
    s.Feeds k c ∨ k = s.streams.length ∧ c = s.engine.connections.length ∧
      w.state.engine = (s.engine.openConnection .eventStream).2.newCall.2 := by
  have same (streams : w.state.streams = s.streams) : s.Feeds k c := by
    obtain ⟨x, there, connection⟩ := feeds
    exact ⟨x, streams ▸ there, connection⟩
  cases audience with
  | none streams => exact .inl (same streams)
  | changes j f stays streams =>
    obtain ⟨y, there, connection⟩ := feeds
    rw [streams, List.getElem?_modify] at there
    obtain ⟨x, here, kept⟩ := Option.map_eq_some_iff.mp there
    refine .inl ⟨x, here, ?_⟩
    rw [← connection, ← kept]
    split
    · rcases stays with gone | read
      · rw [gone]
      · rw [read]
    · rfl
  | joins streams => exact .inl (same streams)
  | refused streams =>
    refine (feeds_joined streams feeds).imp_right fun ⟨_, connection⟩ => ?_
    simp [refusedStream] at connection
  | asks r streams engine =>
    refine (feeds_joined streams feeds).imp_right fun ⟨last, connection⟩ => ?_
    exact ⟨last, (Option.some.inj connection).symm, engine⟩

theorem audience_line {w : World} (audience : Audience s w) {z : Connection}
    (found : s.engine.connections[c]? = some z) : w.state.engine.connections[c]? = some z := by
  have old : c ≠ s.engine.connections.length :=
    Nat.ne_of_lt (List.getElem?_eq_some_iff.mp found).1
  cases audience with
  | none _ lines => rw [lines, found]
  | changes _ _ _ _ engine => rw [engine, found]
  | joins _ engine => rw [engine, openConnection_line, if_neg old, found]
  | refused _ engine => rw [engine, found]
  | asks _ _ engine =>
    rw [engine]
    exact (openConnection_line ..).trans ((if_neg old).trans found)

theorem input_lined (lined : Lined s) (i : Input) : Lined (i.act ⟨s, []⟩).state := by
  have audience := input_audience s i
  have bound {k : StreamId} {c : ConnectionId} (feeds : s.Feeds k c) :
      c < s.engine.connections.length := by
    obtain ⟨z, found, -⟩ := lined.line k c feeds
    exact (List.getElem?_eq_some_iff.mp found).1
  constructor
  · intro k c feeds
    rcases audience_feeds audience feeds with old | ⟨-, rfl, engine⟩
    · obtain ⟨z, found, kind⟩ := lined.line k c old
      exact ⟨z, audience_line audience found, kind⟩
    · rw [engine]
      exact ⟨_, (openConnection_line ..).trans (if_pos rfl), rfl, rfl⟩
  · intro j k c one other
    rcases audience_feeds audience one with old | ⟨rfl, rfl, -⟩
    · rcases audience_feeds audience other with old' | ⟨rfl, rfl, -⟩
      · exact lined.single j k c old old'
      · exact absurd (bound old) (Nat.lt_irrefl _)
    · rcases audience_feeds audience other with old' | ⟨rfl, -, -⟩
      · exact absurd (bound old') (Nat.lt_irrefl _)
      · rfl
  · intro k c sits
    rcases company_sits (input_company s i) sits with old | ⟨-, rfl, made, since,
      before, due?, tasks⟩
    · obtain ⟨z, found, kind⟩ := lined.socket k c old
      exact ⟨z, audience_line audience found, kind⟩
    · cases audience with
      | none _ lines => exact absurd made (by simp [lines])
      | changes _ _ _ _ engine => exact absurd made (by simp [engine])
      | joins _ engine =>
        rw [engine]
        exact ⟨_, (openConnection_line ..).trans (if_pos rfl), rfl⟩
      | refused _ engine => exact absurd made (by simp [engine])
      | asks _ _ _ asked => simp [asked] at tasks

theorem reached_lined (nobody : first.peers = []) (silent : first.streams = [])
    (reached : Reached (World.start first) s ts log) : Lined s := by
  induction reached with
  | start =>
    constructor
    · rintro k c ⟨x, here, -⟩
      simp [World.start, silent] at here
    · rintro j k c ⟨x, here, -⟩
      simp [World.start, silent] at here
    · rintro k c ⟨p, here, -⟩
      simp [World.start, nobody] at here
  | shuffle _ _ ih => exact ih
  | idle _ ih => exact ih
  | outside i _ ih => exact input_lined ih i
  | @inside s a _ _ _ _ _ ih => exact perform_lined ih a

end Server

end SubscriptionGateway
