import SubscriptionGateway.Proofs.Server.Feeding

/-!
The course of a stream: it is asked for, answered, served and ended, each once and one after the
other. What it has written is a refusal or frames; with the frames that wait on its connection these
are all that have been handed over to it, and its client reads them as they are written.
-/
namespace SubscriptionGateway

open Broker

namespace Server

open Engine (happened happened_append)

variable {s s' : Server} {k j : StreamId} {c : ConnectionId} {a : Action} {x y : Streaming}
  {todo as : List Action} {ts us others : List (List Action)} {log : Steps} {setup : Setup}
  {hub : Hub} {first : Server} {laid : List Piece}

/-! ## How far a stream is -/

/-- What has been written is a refusal, or frames and comments. -/
inductive Telling (x : Streaming) (laid : List Piece) : Prop where
  | refusal (errors : List ClientError) (told : List String) (apart : x.connection? = none)
      (form : laid = told.map .said)
      (whole : told ++ x.pending = EventStream.refusal (Outcome.errorsBody errors))
  | frames (c : ConnectionId) (connection : x.connection? = some c) (nothing : x.pending = [])
      (plain : ∀ p ∈ laid, ∀ chunk, p ≠ .said chunk)

def Said (x : Streaming) (laid : List Piece) : Prop :=
  x.pending = [] ∧ (x.connection? = none ∨ ∃ f ∈ framesOf laid, f.isMessage = false)

structure Streaming.Fresh (x : Streaming) (laid : List Piece) : Prop where
  connected : x.connection? ≠ none
  ongoing : x.complete = false
  uncut : x.wire.isCut = false
  silent : laid = []

/-- What is to be done for a stream, by what it is and what has been written on it. -/
inductive Course (k : StreamId) (s : Server) (x : Streaming) (laid : List Piece) :
    List Action → Prop where
  | asks (call : CallId) (fresh : x.Fresh laid) : Course k s x laid [.answerStream k call]
  | refuses (errors : List ClientError) (fresh : x.Fresh laid) :
    Course k s x laid [.refuseStream k (Outcome.errorsBody errors)]
  | serves (due : Nat) (uncut : x.wire.isCut = false) (last : x.complete = true → Said x laid) :
    Course k s x laid [.stream k due]
  | ended (cut : x.wire.isCut = true)
      (why : x.gone = true ∨ Said x laid ∨ ∃ c, x.connection? = some c ∧
        s.engine.isClosed c = true) :
    Course k s x laid []

theorem Course.few (course : Course k s x laid as) : as.length ≤ 1 := by cases course <;> simp

theorem chores_perm (perm : ts.Perm us) (few : (chores k ts.flatten).length ≤ 1) :
    chores k us.flatten = chores k ts.flatten := perm_few (perm.flatten.filter _) few

/-! ### Wires of streams -/

/-- Whoever reads a stream does so at once, and until it is cut. -/
structure Wire.Flows (w : Wire) : Prop where
  awake : w.stalled = false
  empty : w.frames = []
  ceased : w.isOver = w.isCut

theorem write_wire (flows : x.wire.Flows) (uncut : x.wire.isCut = false) (chunk : String) :
    (x.write chunk).wire.Flows ∧ (x.write chunk).wire.isCut = false ∧
      (x.write chunk).wire.read = x.wire.read ++ [.chunk chunk] := by
  obtain ⟨awake, empty, ceased⟩ := flows
  have size : (x.wire.push (.chunk chunk)).size = (Item.chunk chunk).bytes := by
    simp [Wire.push, Wire.size, empty]
  have whole : Wire.complete (Item.chunk chunk).bytes [.chunk chunk] = ([.chunk chunk], [], 0) := by
    simp [Wire.complete]
  have still : (x.wire.push (.chunk chunk)).stalled = false := awake
  have wire : (x.write chunk).wire = { x.wire with
      sent := 0, taken := 0, read := x.wire.read ++ [.chunk chunk], isOver := false } := by
    simp only [Streaming.write, Wire.flush, still, Bool.false_eq_true, ↓reduceIte,
      size, Wire.deliver]
    simp [Wire.push, empty, whole, uncut, Wire.readItem, ceased, Item.asRead,
      Item.isFinished, awake]
  rw [wire]
  exact ⟨⟨awake, empty, uncut.symm⟩, uncut, rfl⟩

theorem cut_wire {w : Wire} (flows : w.Flows) (uncut : w.isCut = false) :
    w.cut.Flows ∧ w.cut.isCut = true ∧ w.cut.read = w.read ++ [.finished] := by
  obtain ⟨awake, empty, ceased⟩ := flows
  have wire : w.cut = { w with
      isCut := true, sent := 0, taken := 0, read := w.read ++ [.finished], isOver := true } := by
    simp [Wire.cut, Wire.deliver, awake, empty, Wire.complete, Wire.readItem, ceased,
      uncut, Item.asRead,
      Item.isFinished]
  rw [wire]
  exact ⟨⟨awake, empty, rfl⟩, rfl, rfl⟩

/-! ### Every stream -/

structure Streamed (k : StreamId) (s : Server) (x : Streaming) (ts : List (List Action))
    (log : Steps) :
    Prop where
  course : Course k s x (streamed k log) (chores k ts.flatten)
  telling : Telling x (streamed k log)
  queue : ∀ c, x.connection? = some c → framesOf (streamed k log) ++ s.engine.queueOf c =
    Engine.entered c (happened (innerSteps log))
  flows : x.wire.Flows

theorem Streamed.other (here : s.streams[k]? = some x)
    (known : Streamed k s x ((a :: todo) :: others) log) (lined : Lined s)
    (other : a.serves? ≠ some k) :
    Streamed k (s.perform a).server x
      (((s.perform a).next ++ todo) :: ((s.perform a).started ++ others)) (log ++ [(s, a)]) := by
  have silent : streamed k (log ++ [(s, a)]) = streamed k log := by
    rw [streamed_more, lays_other other, List.append_nil]
  have same : chores k (((s.perform a).next ++ todo) :: ((s.perform a).started ++ others)).flatten =
      chores k ((a :: todo) :: others).flatten := by
    rw [chores_performed, perform_unserved s other]
    exact (List.filter_cons_of_neg (by simpa using other)).symm
  have closes {c : ConnectionId} (connection : x.connection? = some c)
      (closed : s.engine.isClosed c = true) : (s.perform a).server.engine.isClosed c = true := by
    obtain ⟨z, found, -⟩ := lined.line k c ⟨x, here, connection⟩
    obtain ⟨z', found', -, -, stays⟩ := fed_line lined ⟨x, here, connection⟩ found a
    have closed : z.closed = true := by simpa [Engine.isClosed, found] using closed
    simp [Engine.isClosed, found', stays closed]
  constructor
  · rw [silent, same]
    have course := known.course
    generalize chores k ((a :: todo) :: others).flatten = as at course
    cases course with
    | asks call fresh => exact .asks call fresh
    | refuses errors fresh => exact .refuses errors fresh
    | serves due uncut last => exact .serves due uncut last
    | ended cut why =>
      refine .ended cut (why.imp_right (·.imp_right ?_))
      rintro ⟨c, connection, closed⟩
      exact ⟨c, connection, closes connection closed⟩
  · rw [silent]
    exact known.telling
  · intro c connection
    have before := known.queue c connection
    rw [silent, innerSteps_append, happened_append, Engine.entered_append, ← before,
      List.append_assoc]
    congr 1
    cases session : a.engine? with
    | some b =>
      obtain rfl := eq_engine session
      have one : happened (innerSteps [(s, .engine b)]) = s.engine.happenings b := List.append_nil _
      rw [one]
      exact Engine.perform_queueOf s.engine b c
    | none =>
      have none : innerSteps [(s, a)] = [] := by simp [innerSteps, session]
      have kept := session_line session (lined.unsat ⟨x, here, connection⟩) fun j whose mine =>
        other (whose.trans (congrArg some (lined.single j k c mine ⟨x, here, connection⟩)))
      rw [none]
      simp [Engine.queueOf, kept, happened, Engine.entered]
  · exact known.flows

theorem Streamed.alone (known : Streamed k s x ((a :: todo) :: others) log)
    (whose : a.serves? = some k) :
    Course k s x (streamed k log) [a] ∧ chores k (todo ++ others.flatten) = [] := by
  have whole : chores k ((a :: todo) :: others).flatten = a :: chores k (todo ++ others.flatten) :=
    List.filter_cons_of_pos (by simp [whose])
  have course := known.course
  rw [whole] at course
  have none : chores k (todo ++ others.flatten) = [] := by simpa using course.few
  rw [none] at course
  exact ⟨course, none⟩

theorem quiet_queue (same : s'.engine.connections = s.engine.connections) (c : ConnectionId) :
    s'.engine.queueOf c = s.engine.queueOf c := by simp only [Engine.queueOf, same]

theorem serving_chores (due : Nat) : chores k [.stream k due] = [.stream k due] := by
  simp [chores, Action.serves?]

def Continues (k : StreamId) (s : Server) (a : Action) (todo : List Action)
    (others : List (List Action))
    (log : Steps) : Prop :=
  ∃ x, (s.perform a).server.streams[k]? = some x ∧ Streamed k (s.perform a).server x
    (((s.perform a).next ++ todo) :: ((s.perform a).started ++ others)) (log ++ [(s, a)])

theorem Streamed.continues (known : Streamed k s x ((a :: todo) :: others) log)
    (whose : a.serves? = some k) (after : (s.perform a).server.streams[k]? = some y)
    (course : Course k (s.perform a).server y (streamed k log ++ s.lays k a)
      (chores k (s.perform a).next))
    (telling : Telling y (streamed k log ++ s.lays k a))
    (queue : ∀ c, y.connection? = some c → x.connection? = some c ∧
      framesOf (s.lays k a) ++ (s.perform a).server.engine.queueOf c = s.engine.queueOf c)
    (flows : y.wire.Flows) : Continues k s a todo others log := by
  have quiet : innerSteps [(s, a)] = [] := by
    cases a <;> simp_all [innerSteps, Action.engine?, Action.serves?]
  refine ⟨y, after, ?_, ?_, fun c connection => ?_, flows⟩
  · rw [streamed_more, chores_performed, (known.alone whose).2, List.append_nil]
    exact course
  · rw [streamed_more]
    exact telling
  · obtain ⟨own, kept⟩ := queue c connection
    rw [streamed_more, framesOf_append, List.append_assoc, kept, innerSteps_append, quiet,
      List.append_nil]
    exact known.queue c own

theorem Streamed.answered {call : CallId}
    (known : Streamed k s x ((.answerStream k call :: todo) :: others) log)
    (here : s.streams[k]? = some x) : Continues k s (.answerStream k call) todo others log := by
  have fresh : x.Fresh (streamed k log) := by
    cases (known.alone rfl).1 with
    | asks call fresh => exact fresh
  obtain ⟨c, connection⟩ := Option.ne_none_iff_exists'.mp fresh.connected
  have silent : streamed k log ++ s.lays k (.answerStream k call) = streamed k log :=
    List.append_nil _
  have reception : Reception s k x c call (s.perform (.answerStream k call)) :=
    answerStream_reception here connection call
  cases reception with
  | refuses fault _ streams engine next =>
    refine known.continues rfl (streams ▸ here) ?_ ?_
      (fun c connection => ⟨connection, quiet_queue (by rw [engine]; rfl) c⟩) known.flows
    · have one (payload : Json) :
        chores k [.refuseStream k payload] = [.refuseStream k payload] := by
        simp [chores, Action.serves?]
      rw [silent, next, chores_append, chores_unserved (engine_unserved _), List.nil_append, one]
      exact .refuses _ fresh
    · rw [silent]
      exact known.telling
  | accepts after engine due next =>
    refine known.continues rfl after ?_ ?_
      (fun c connection => ⟨connection, quiet_queue (by rw [engine]) c⟩) known.flows
    · rw [silent, next, serving_chores]
      exact .serves due fresh.uncut fun complete => by simp [fresh.ongoing] at complete
    · rw [silent]
      cases known.telling with
      | refusal _ _ apart => exact absurd apart fresh.connected
      | frames c connection nothing plain => exact .frames c connection nothing plain

theorem Streamed.refused {payload : Json}
    (known : Streamed k s x ((.refuseStream k payload :: todo) :: others) log)
    (here : s.streams[k]? = some x) : Continues k s (.refuseStream k payload) todo others log := by
  obtain ⟨errors, form, fresh⟩ : ∃ errors, payload = Outcome.errorsBody errors ∧
      x.Fresh (streamed k log) := by
    cases (known.alone rfl).1 with
    | refuses errors fresh => exact ⟨errors, rfl, fresh⟩
  have silent : streamed k log ++ s.lays k (.refuseStream k payload) = streamed k log :=
    List.append_nil _
  have after : (s.perform (.refuseStream k payload)).server.streams[k]? =
      some { x with response? := some opened, connection? := none,
                    pending := EventStream.refusal payload } := by
    simp [perform, refuseStream, updateStream, here]
  have next : chores k (s.perform (.refuseStream k payload)).next = [.stream k s.nextKeepAlive] :=
    serving_chores s.nextKeepAlive
  refine known.continues rfl after ?_ ?_ (by rintro c ⟨⟩) known.flows
  · rw [silent, next]
    exact .serves _ fresh.uncut fun complete => by simp [fresh.ongoing] at complete
  · rw [silent, fresh.silent]
    exact .refusal errors [] rfl rfl (congrArg EventStream.refusal form)

theorem Telling.more {piece : Piece} (telling : Telling x laid)
    (connection : x.connection? = some c)
    (plain : ∀ chunk, piece ≠ .said chunk) (same : y.connection? = x.connection?)
    (nothing : y.pending = []) : Telling y (laid ++ [piece]) := by
  cases telling with
  | refusal _ _ apart => simp [apart] at connection
  | frames c connection _ earlier =>
    refine .frames c (same.trans connection) nothing fun p member => ?_
    rcases List.mem_append.mp member with old | new
    · exact earlier p old
    · rw [List.mem_singleton.mp new]
      exact plain

/-- A stream ends when its client has gone, when all is said or when its connection is closed. -/
theorem Lined.ends (lined : Lined s) (here : s.streams[k]? = some x)
    (last : x.complete = true → Said x laid)
    (ceased : x.gone = true ∨ x.pending = [] ∧ (x.complete = true ∨ x.connection? = none ∨
      ∃ c, x.connection? = some c ∧ s.engine.queueOf c = [] ∧ s.engine.isCancelled c = true)) :
    x.gone = true ∨ Said x laid ∨ ∃ c, x.connection? = some c ∧ s.engine.isClosed c = true := by
  rcases ceased with gone | ⟨nothing, complete | apart | ⟨c, connection, -, cancelled⟩⟩
  · exact .inl gone
  · exact .inr (.inl (last complete))
  · exact .inr (.inl ⟨nothing, .inl apart⟩)
  · obtain ⟨z, found, -, even⟩ := lined.line k c ⟨x, here, connection⟩
    refine .inr (.inr ⟨c, connection, ?_⟩)
    rw [Engine.isCancelled, found] at cancelled
    rw [Engine.isClosed, found]
    exact even.symm.trans cancelled

theorem Streamed.served {due : Nat} (known : Streamed k s x ((.stream k due :: todo) :: others) log)
    (here : s.streams[k]? = some x) (lined : Lined s) :
    Continues k s (.stream k due) todo others log := by
  obtain ⟨uncut, last⟩ : x.wire.isCut = false ∧ (x.complete = true → Said x (streamed k log)) := by
    cases (known.alone rfl).1 with
    | serves due uncut last => exact ⟨uncut, last⟩
  have lays := lays_here here due
  have beat : Beat s k x (s.perform (.stream k due)) := streamNext_beat here
  cases beat with
  | ends ceased silent after lines managed next =>
    rw [silent] at lays
    obtain ⟨flows, cut, -⟩ := cut_wire known.flows uncut
    refine known.continues rfl after ?_ ?_ (fun c connection => ⟨connection, ?_⟩) flows
    · rw [lays, List.append_nil, next]
      refine .ended cut ((lined.ends here last ceased).imp_right (·.imp_right ?_))
      rintro ⟨c, connection, closed⟩
      refine ⟨c, connection, ?_⟩
      rw [Engine.isClosed, lines]
      exact closed
    · rw [lays, List.append_nil]
      cases known.telling with
      | refusal errors told apart form whole => exact .refusal errors told apart form whole
      | frames c connection nothing plain => exact .frames c connection nothing plain
    · rw [lays]
      exact quiet_queue lines c
  | speaks chunk more going pending writes after engine later next =>
    rw [writes] at lays
    obtain ⟨flows, still, -⟩ := write_wire known.flows uncut chunk
    obtain ⟨errors, told, apart, form, whole⟩ : ∃ errors told, x.connection? = none ∧
        streamed k log = told.map .said ∧
        told ++ x.pending = EventStream.refusal (Outcome.errorsBody errors) := by
      cases known.telling with
      | refusal errors told apart form whole => exact ⟨errors, told, apart, form, whole⟩
      | frames c connection nothing => simp [pending] at nothing
    refine known.continues rfl after ?_ ?_ (fun c connection => ?_) flows
    · rw [lays, next, serving_chores]
      exact .serves later still fun complete => ⟨List.isEmpty_iff.mp complete, .inl apart⟩
    · rw [lays]
      refine .refusal errors (told ++ [chunk]) apart ?_ ?_
      · rw [form, List.map_append]
        rfl
      · rw [← whole, pending, List.append_assoc]
        rfl
    · have connection : x.connection? = some c := connection
      simp [apart] at connection
  | passes c g more going nothing ongoing connection waits writes after engine later next =>
    rw [writes] at lays
    obtain ⟨flows, still, -⟩ := write_wire known.flows uncut (EventStream.chunk g)
    refine known.continues rfl after ?_ ?_ (fun c' connection' => ?_) flows
    · rw [lays, next, serving_chores]
      refine .serves later still fun complete => ⟨nothing, .inr ⟨g, ?_, by simpa using complete⟩⟩
      rw [framesOf_append]
      exact List.mem_append_right _ (List.mem_singleton.mpr rfl)
    · rw [lays]
      exact known.telling.more connection (fun _ => Piece.noConfusion) rfl nothing
    · obtain rfl : c = c' := Option.some.inj (connection.symm.trans connection')
      obtain ⟨z, found, -⟩ := lined.line k c ⟨x, here, connection⟩
      have queue : z.queue = g :: more := by simpa [Engine.queueOf, found] using waits
      have left : (s.perform (.stream k due)).server.engine.queueOf c = more := by
        rw [engine, Engine.queueOf_update, found]
        simp [queue]
      rw [lays, left, waits]
      exact ⟨connection, rfl⟩
  | rests c going nothing ongoing connection waits writes after engine later next =>
    rw [writes] at lays
    obtain ⟨flows, still, -⟩ := write_wire known.flows uncut EventStream.keepAlive
    refine known.continues rfl after ?_ ?_ (fun c' connection' => ⟨connection', ?_⟩) flows
    · rw [lays, next, serving_chores]
      refine .serves later still fun complete => ?_
      have complete : x.complete = true := complete
      simp [ongoing] at complete
    · rw [lays]
      exact known.telling.more connection (fun _ => Piece.noConfusion) rfl nothing
    · rw [lays, engine]
      rfl

theorem Streamed.inside (known : Streamed k s x ((a :: todo) :: others) log)
    (here : s.streams[k]? = some x) (lined : Lined s) : Continues k s a todo others log := by
  by_cases whose : a.serves? = some k
  · cases a with
    | answerStream k' call =>
      obtain rfl : k' = k := by simpa [Action.serves?] using whose
      exact known.answered here
    | refuseStream k' payload =>
      obtain rfl : k' = k := by simpa [Action.serves?] using whose
      exact known.refused here
    | stream k' due =>
      obtain rfl : k' = k := by simpa [Action.serves?] using whose
      exact known.served here lined
    | _ => simp [Action.serves?] at whose
  · exact ⟨x, ((perform_streams s a).2 k whose).trans here, known.other here lined whose⟩

theorem audience_stream {w : World} (audience : Audience s w) (here : s.streams[k]? = some x) :
    w.state.streams[k]? = some x ∨ w.state.streams[k]? = some { x with gone := true } ∨
      w.state.streams[k]? = some { x with wire := x.wire.take.2 } := by
  have older {y : Streaming} (streams : w.state.streams = s.streams ++ [y]) :
      w.state.streams[k]? = some x := by
    rw [streams, List.getElem?_append_left (List.getElem?_eq_some_iff.mp here).1, here]
  cases audience with
  | none streams => exact .inl (streams ▸ here)
  | changes j f stays streams =>
    by_cases same : j = k
    · have there : w.state.streams[k]? = some (f x) := by simp [streams, same, here]
      rcases stays with gone | read
      · exact .inr (.inl (gone x ▸ there))
      · exact .inr (.inr (read x ▸ there))
    · exact .inl (by simp [streams, same, here])
  | joins streams => exact .inl (streams ▸ here)
  | refused streams => exact .inl (older streams)
  | asks r streams => exact .inl (older streams)

inductive Newcomer (s : Server) (w : World) (k : StreamId) : Streaming → Prop where
  | refused (engine : w.state.engine = s.engine) (due : Nat)
      (tasks : chores k w.tasks.flatten = [.stream k due]) : Newcomer s w k refusedStream
  | asks (call : CallId)
      (engine : w.state.engine = (s.engine.openConnection .eventStream).2.newCall.2)
      (tasks : chores k w.tasks.flatten = [.answerStream k call]) :
    Newcomer s w k { connection? := some s.engine.connections.length }

theorem audience_newcomer {w : World} (audience : Audience s w) (absent : s.streams[k]? = none)
    (there : w.state.streams[k]? = some x) : k = s.streams.length ∧ Newcomer s w k x := by
  have beyond := List.getElem?_eq_none_iff.mp absent
  have last {y : Streaming} (streams : w.state.streams = s.streams ++ [y]) :
      k = s.streams.length ∧ y = x := by
    rw [streams] at there
    have bound : k < s.streams.length + 1 := by simpa using (List.getElem?_eq_some_iff.mp there).1
    obtain rfl : k = s.streams.length := Nat.le_antisymm (Nat.le_of_lt_succ bound) beyond
    exact ⟨rfl, by simpa using there⟩
  cases audience with
  | none streams => simp [streams, absent] at there
  | changes j f _ streams =>
    rw [streams, List.getElem?_modify, absent] at there
    cases there
  | joins streams => simp [streams, absent] at there
  | refused streams engine due tasks =>
    obtain ⟨rfl, rfl⟩ := last streams
    exact ⟨rfl, .refused engine due (by simp [tasks, chores, Action.serves?])⟩
  | asks r streams engine tasks =>
    obtain ⟨rfl, rfl⟩ := last streams
    exact ⟨rfl, .asks s.engine.calls engine (by simp [tasks, chores, Action.serves?])⟩

theorem audience_chores {w : World} (audience : Audience s w)
    (apart : k ≠ s.streams.length ∨ w.state.streams[k]? = none) :
    chores k w.tasks.flatten = [] := by
  have other {y : Streaming} (streams : w.state.streams = s.streams ++ [y]) :
    s.streams.length ≠ k := by
    rintro rfl
    simp [streams] at apart
  cases audience with
  | none _ _ _ unserved => exact chores_unserved unserved
  | changes _ _ _ _ _ tasks => simp [tasks, chores]
  | joins _ _ unserved => exact chores_unserved unserved
  | refused streams _ due tasks => simp [tasks, chores, Action.serves?, other streams]
  | asks r streams _ tasks => simp [tasks, chores, Action.serves?, other streams]

theorem audience_absent {w : World} (audience : Audience s w)
    (absent : w.state.streams[k]? = none) :
    s.streams[k]? = none := by
  cases here : s.streams[k]? with
  | none => rfl
  | some x => rcases audience_stream audience here with same | gone | read <;> simp_all

theorem reached_unstreamed (reached : Reached (World.start first) s ts log)
    (absent : s.streams[k]? = none) : streamed k log = [] ∧ chores k ts.flatten = [] := by
  induction reached with
  | start => exact ⟨rfl, rfl⟩
  | shuffle perm _ ih =>
    obtain ⟨silent, idle⟩ := ih absent
    exact ⟨silent, (chores_perm perm (by simp [idle])).trans idle⟩
  | idle _ ih => exact ih absent
  | @outside s ts _ i _ ih =>
    have audience := input_audience s i
    obtain ⟨silent, idle⟩ := ih (audience_absent audience absent)
    refine ⟨silent, ?_⟩
    rw [List.flatten_append, chores_append, idle, List.append_nil]
    exact audience_chores audience (.inr absent)
  | @inside s a todo others log _ _ ih =>
    have before : s.streams[k]? = none := by
      rw [List.getElem?_eq_none_iff] at absent ⊢
      rwa [(perform_streams s a).1] at absent
    obtain ⟨silent, idle⟩ := ih before
    have other : a.serves? ≠ some k := by
      intro whose
      have head : a ∈ chores k ((a :: todo) :: others).flatten :=
        List.mem_filter.mpr ⟨List.mem_cons_self .., by simp [whose]⟩
      rw [idle] at head
      exact List.not_mem_nil head
    refine ⟨by rw [streamed_more, silent, lays_other other, List.append_nil], ?_⟩
    have rest : chores k ((a :: todo) :: others).flatten = chores k (todo ++ others.flatten) :=
      List.filter_cons_of_neg (by simpa using other)
    rw [chores_performed, perform_unserved s other, ← rest, idle, List.append_nil]

theorem reached_unborn (reached : Reached (World.start first) s ts log) :
    ∀ b ∈ ts.flatten, b.serves? ≠ some s.streams.length := by
  intro b pending whose
  have idle := (reached_unstreamed reached (List.getElem?_eq_none (Nat.le_refl s.streams.length))).2
  have member : b ∈ chores s.streams.length ts.flatten :=
    List.mem_filter.mpr ⟨pending, by simp [whose]⟩
  rw [idle] at member
  exact List.not_mem_nil member

theorem reached_unentered (reached : Reached (World.start first) s ts log)
    (absent : s.engine.connections[c]? = none) :
    Engine.entered c (happened (innerSteps log)) = [] := by
  induction reached with
  | start => rfl
  | shuffle _ _ ih => exact ih absent
  | idle _ ih => exact ih absent
  | @outside s _ _ i _ ih =>
    refine ih ?_
    cases found : s.engine.connections[c]? with
    | none => rfl
    | some z => simp [audience_line (input_audience s i) found] at absent
  | @inside s a _ _ log _ _ ih =>
    have before : s.engine.connections[c]? = none := by
      have kinds := congrArg (·[c]?) (perform_kinds s a)
      simpa [absent] using kinds.symm
    rw [innerSteps_append, happened_append, Engine.entered_append, ih before, List.nil_append]
    cases session : a.engine? with
    | none => simp [innerSteps, session, happened, Engine.entered]
    | some b =>
      obtain rfl := eq_engine session
      have queues := Engine.perform_queueOf s.engine b c
      have none : (s.engine.perform b).engine.queueOf c = [] := by
        have absent : (s.engine.perform b).engine.connections[c]? = none := absent
        simp [Engine.queueOf, absent]
      have one : happened (innerSteps [(s, .engine b)]) = s.engine.happenings b := List.append_nil _
      rw [none] at queues
      rw [one]
      exact (List.append_eq_nil_iff.mp queues.symm).2

structure Streaming.Heard (x y : Streaming) : Prop where
  connection : y.connection? = x.connection?
  pending : y.pending = x.pending
  complete : y.complete = x.complete
  cut : y.wire.isCut = x.wire.isCut
  gone : x.gone = true → y.gone = true
  flows : x.wire.Flows → y.wire.Flows

theorem audience_heard {w : World} (audience : Audience s w) (here : s.streams[k]? = some x)
    (there : w.state.streams[k]? = some y) : x.Heard y := by
  rcases audience_stream audience here with same | gone | read
  · obtain rfl := Option.some.inj (same.symm.trans there)
    exact ⟨rfl, rfl, rfl, rfl, id, id⟩
  · obtain rfl := Option.some.inj (gone.symm.trans there)
    exact ⟨rfl, rfl, rfl, rfl, fun _ => rfl, id⟩
  · obtain rfl := Option.some.inj (read.symm.trans there)
    exact ⟨rfl, rfl, rfl, rfl, id, fun flows => ⟨flows.awake, flows.empty, flows.ceased⟩⟩

theorem Streaming.Heard.fresh (heard : x.Heard y) (fresh : x.Fresh laid) : y.Fresh laid :=
  ⟨heard.connection ▸ fresh.connected, heard.complete.trans fresh.ongoing,
    heard.cut.trans fresh.uncut,
    fresh.silent⟩

theorem Streaming.Heard.said (heard : x.Heard y) (said : Said x laid) : Said y laid := by
  unfold Said
  rw [heard.pending, heard.connection]
  exact said

theorem Streamed.outside {w : World} (known : Streamed k s x ts log) (here : s.streams[k]? = some x)
    (lined : Lined s) (audience : Audience s w) (heard : x.Heard y) :
    Streamed k w.state y (w.tasks ++ ts) log := by
  have old : k ≠ s.streams.length := Nat.ne_of_lt (List.getElem?_eq_some_iff.mp here).1
  have same : chores k (w.tasks ++ ts).flatten = chores k ts.flatten := by
    rw [List.flatten_append, chores_append, audience_chores audience (.inl old), List.nil_append]
  have line {c : ConnectionId} (connection : x.connection? = some c) :
      w.state.engine.connections[c]? = s.engine.connections[c]? := by
    obtain ⟨z, found, -⟩ := lined.line k c ⟨x, here, connection⟩
    rw [found, audience_line audience found]
  constructor
  · rw [same]
    have course := known.course
    generalize chores k ts.flatten = as at course
    cases course with
    | asks call fresh => exact .asks call (heard.fresh fresh)
    | refuses errors fresh => exact .refuses errors (heard.fresh fresh)
    | serves due uncut last =>
      exact .serves due (heard.cut.trans uncut) fun complete =>
        heard.said (last (heard.complete.symm.trans complete))
    | ended cut why =>
      refine .ended (heard.cut.trans cut) ?_
      rcases why with gone | said | ⟨c, connection, closed⟩
      · exact .inl (heard.gone gone)
      · exact .inr (.inl (heard.said said))
      · refine .inr (.inr ⟨c, heard.connection.trans connection, ?_⟩)
        rw [Engine.isClosed, line connection]
        exact closed
  · cases known.telling with
    | refusal errors told apart form whole =>
      exact .refusal errors told (heard.connection.trans apart) form (heard.pending.symm ▸ whole)
    | frames c connection nothing plain =>
      exact .frames c (heard.connection.trans connection) (heard.pending.trans nothing) plain
  · intro c connection
    have own : x.connection? = some c := heard.connection.symm.trans connection
    rw [Engine.queueOf, line own]
    exact known.queue c own
  · exact heard.flows known.flows

theorem Newcomer.streamed {w : World} (newcomer : Newcomer s w k x)
    (silent : Server.streamed k log = [])
    (idle : chores k ts.flatten = [])
    (unentered : Engine.entered s.engine.connections.length (happened (innerSteps log)) = []) :
    Streamed k w.state x (w.tasks ++ ts) log := by
  have only : chores k (w.tasks ++ ts).flatten = chores k w.tasks.flatten := by
    rw [List.flatten_append, chores_append, idle, List.append_nil]
  cases newcomer with
  | refused engine due tasks =>
    refine ⟨?_, ?_, by rintro c ⟨⟩, rfl, rfl, rfl⟩
    · rw [only, tasks]
      exact .serves due rfl (by rintro ⟨⟩)
    · rw [silent]
      exact .refusal _ [] rfl rfl rfl
  | asks call engine tasks =>
    refine ⟨?_, ?_, fun c connection => ?_, rfl, rfl, rfl⟩
    · rw [only, tasks, silent]
      exact .asks call ⟨by simp, rfl, rfl, rfl⟩
    · rw [silent]
      exact .frames _ rfl rfl (by simp)
    · obtain rfl := Option.some.inj connection
      have found : (s.engine.openConnection .eventStream).2.newCall.2.connections[
          s.engine.connections.length]? = some { transport := .eventStream } :=
        (openConnection_line ..).trans (if_pos rfl)
      have waits : w.state.engine.queueOf s.engine.connections.length = [] := by
        simp [engine, Engine.queueOf, found]
      rw [silent, unentered, waits]
      rfl

theorem reached_streamed (nobody : first.peers = []) (silent : first.streams = [])
    (reached : Reached (World.start first) s ts log) :
    ∀ x, s.streams[k]? = some x → Streamed k s x ts log := by
  induction reached with
  | start => simp [World.start, silent]
  | shuffle perm _ ih =>
    intro x here
    have known := ih x here
    have same := chores_perm perm known.course.few
    exact ⟨same ▸ known.course, known.telling, known.queue, known.flows⟩
  | idle _ ih =>
    intro x here
    have known := ih x here
    exact ⟨known.course, known.telling, known.queue, known.flows⟩
  | @outside s ts log i before ih =>
    intro y there
    have audience := input_audience s i
    cases here : s.streams[k]? with
    | some x =>
      exact (ih x here).outside here (reached_lined nobody silent before) audience
        (audience_heard audience here there)
    | none =>
      obtain ⟨quiet, idle⟩ := reached_unstreamed before here
      exact (audience_newcomer audience here there).2.streamed quiet idle
        (reached_unentered before (List.getElem?_eq_none (Nat.le_refl _)))
  | @inside s a todo others log _ before ih =>
    intro y there
    have bound := (List.getElem?_eq_some_iff.mp there).1
    rw [(perform_streams s a).1] at bound
    have here := List.getElem?_eq_getElem bound
    obtain ⟨y', found, known⟩ := (ih _ here).inside here (reached_lined nobody silent before)
    obtain rfl := Option.some.inj (found.symm.trans there)
    exact known

/-! ### The end of a stream -/

theorem Streamed.cut_iff (known : Streamed k s x ts log) :
    x.wire.isCut = true ↔ ∀ b ∈ ts.flatten, b.serves? ≠ some k := by
  have none : (∀ b ∈ ts.flatten, b.serves? ≠ some k) ↔ chores k ts.flatten = [] := by
    rw [chores, List.filter_eq_nil_iff]
    simp only [beq_iff_eq, ne_eq]
  have course := known.course
  rw [none]
  generalize chores k ts.flatten = as at course
  cases course with
  | asks _ fresh | refuses _ fresh => simp [fresh.uncut]
  | serves _ uncut => simp [uncut]
  | ended cut => simp [cut]

theorem Streamed.ceased (known : Streamed k s x ((a :: todo) :: others) log)
    (cut : x.wire.isCut = true) :
    a.serves? ≠ some k := known.cut_iff.mp cut a (List.mem_cons_self ..)

theorem Streamed.cuts (known : Streamed k s x ((a :: todo) :: others) log)
    (here : s.streams[k]? = some x) (there : (s.perform a).server.streams[k]? = some y)
    (uncut : x.wire.isCut = false) (cut : y.wire.isCut = true) :
    (x.gone = true ∨ x.pending = [] ∧ (x.complete = true ∨ x.connection? = none ∨
      ∃ c, x.connection? = some c ∧ s.engine.queueOf c = [] ∧ s.engine.isCancelled c = true)) ∧
    y = { x with wire := x.wire.cut, complete := true } ∧ s.lays k a = [] ∧
    (x.complete = true → Said x (streamed k log)) ∧
    (s.perform a).started = x.connection?.toList.map fun c =>
      (Engine.World.release c s.engine.calls).map .engine := by
  by_cases whose : a.serves? = some k
  · have course := (known.alone whose).1
    cases a with
    | answerStream k' call =>
      obtain rfl : k' = k := by simpa [Action.serves?] using whose
      have fresh : x.Fresh (streamed k' log) := by
        cases course with
        | asks call fresh => exact fresh
      obtain ⟨c, connection⟩ := Option.ne_none_iff_exists'.mp fresh.connected
      have reception : Reception s k' x c call (s.perform (.answerStream k' call)) :=
        answerStream_reception here connection call
      cases reception with
      | refuses _ _ streams =>
        obtain rfl := Option.some.inj ((streams ▸ here).symm.trans there)
        simp [uncut] at cut
      | accepts after =>
        obtain rfl := Option.some.inj (after.symm.trans there)
        simp [uncut] at cut
    | refuseStream k' payload =>
      obtain rfl : k' = k := by simpa [Action.serves?] using whose
      have after : (s.perform (.refuseStream k' payload)).server.streams[k']? =
          some { x with
            response? := some opened, connection? := none,
            pending := EventStream.refusal payload } := by
        simp [perform, refuseStream, updateStream, here]
      obtain rfl := Option.some.inj (after.symm.trans there)
      simp [uncut] at cut
    | stream k' due =>
      obtain rfl : k' = k := by simpa [Action.serves?] using whose
      have last : x.complete = true → Said x (streamed k' log) := by
        cases course with
        | serves due uncut last => exact last
      have beat : Beat s k' x (s.perform (.stream k' due)) := streamNext_beat here
      cases beat with
      | ends ceased silent after _ _ _ started =>
        obtain rfl := Option.some.inj (after.symm.trans there)
        exact ⟨ceased, rfl, (lays_here here due).trans silent, last, started⟩
      | speaks chunk _ _ _ _ after | passes _ g _ _ _ _ _ _ _ after | rests _ _ _ _ _ _ _ after =>
        obtain rfl := Option.some.inj (after.symm.trans there)
        have still := (write_wire known.flows uncut _).2.1.symm.trans cut
        cases still
    | _ => simp [Action.serves?] at whose
  · obtain rfl := Option.some.inj ((((perform_streams s a).2 k whose).trans here).symm.trans there)
    simp [uncut] at cut

end Server

end SubscriptionGateway
