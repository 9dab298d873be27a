import SubscriptionGateway.Proofs.Server.Closing
import SubscriptionGateway.Proofs.Server.Requests

/-!
Requests for streams that are refused. As long as the call of a request has got nothing, nothing is
registered on its connection; when it has been answered with a fault nobody else asks there. So a
stream keeps its connection or nothing is ever registered on it, and then nothing is handed over to
it.
-/
namespace SubscriptionGateway

open Broker

namespace Engine

variable {e e' : Engine} {a : Action} {c : ConnectionId} {call : CallId}
  {rest pool more : List Action}
  {log : Steps}

structure Pristine (c : ConnectionId) (e : Engine) (log : Steps) : Prop where
  now : ∀ id, Unheld e c id
  earlier : ∀ p ∈ log, ∀ id, Unheld p.1 c id

/-- All who ask for a subscription on a connection belong to one call, and nothing has been
registered there unless the call has got it. -/
structure Awaits (call : CallId) (c : ConnectionId) (e : Engine) (pool : List Action)
    (log : Steps) :
    Prop where
  whose : ∀ b ∈ pool, ∀ id, b.aim? e = some (c, id) → b.ticket? = some call
  either : Granted call e ∨ Pristine c e log

structure Vacant (c : ConnectionId) (e : Engine) (pool : List Action) (log : Steps) : Prop where
  pristine : Pristine c e log
  unasked : ∀ b ∈ pool, ∀ id, b.aim? e ≠ some (c, id)

theorem Pristine.spared (pristine : Pristine c e log) (spared : Spared c pool e e') :
    Pristine c e' log :=
  ⟨fun id => spared.unheld (pristine.now id), pristine.earlier⟩

theorem Pristine.onward (pristine : Pristine c e log)
    (after : ∀ id, Unheld (e.perform a).engine c id) :
    Pristine c (e.perform a).engine (log ++ [(e, a)]) := by
  refine ⟨after, fun p member => ?_⟩
  rcases List.mem_append.mp member with old | new
  · exact pristine.earlier p old
  · rw [List.mem_singleton.mp new]
    exact pristine.now

theorem Awaits.perm (awaits : Awaits call c e pool log) (perm : pool.Perm more) :
    Awaits call c e more log :=
  ⟨fun b member => awaits.whose b (perm.mem_iff.mpr member), awaits.either⟩

theorem Vacant.perm (vacant : Vacant c e pool log) (perm : pool.Perm more) : Vacant c e more log :=
  ⟨vacant.pristine, fun b member => vacant.unasked b (perm.mem_iff.mpr member)⟩

theorem Awaits.spared (awaits : Awaits call c e pool log) (spared : Spared c pool e e')
    (others : ∀ b ∈ more, ∀ id, b.aim? e' ≠ some (c, id)) :
    Awaits call c e' (more ++ pool) log := by
  refine ⟨fun b member id aim => ?_, awaits.either.imp ?_ fun pristine => pristine.spared spared⟩
  · rcases List.mem_append.mp member with new | old
    · exact absurd aim (others b new id)
    · exact awaits.whose b old id (spared.aims b old ▸ aim)
  · rintro ⟨i, told⟩
    exact ⟨i, spared.told _ told⟩

theorem Vacant.spared (vacant : Vacant c e pool log) (spared : Spared c pool e e')
    (others : ∀ b ∈ more, ∀ id, b.aim? e' ≠ some (c, id)) : Vacant c e' (more ++ pool) log := by
  refine ⟨vacant.pristine.spared spared, fun b member id aim => ?_⟩
  rcases List.mem_append.mp member with new | old
  · exact others b new id aim
  · exact vacant.unasked b old id (spared.aims b old ▸ aim)

theorem sequel_ticket {b : Action} {id : String} (grounded : Grounded e (a :: rest))
    (member : b ∈ (e.perform a).sequel) (aim : b.aim? (e.perform a).engine = some (c, id)) :
    b.ticket? = a.ticket? := by
  have asks := aim_asks (sequel_aims grounded member aim)
  obtain ⟨call, whose⟩ : ∃ call, a.ticket? = some call := by
    cases a <;> simp_all [Action.asks, Action.ticket?]
  cases asks_pursues grounded.sound asks whose with
  | onward b' next started _ own =>
    obtain rfl : b = b' := by simpa [Effect.sequel, next, started] using member
    exact own.trans whose.symm
  | answered r next _ calm =>
    obtain ⟨task, started, inside⟩ : ∃ task ∈ (e.perform a).started, b ∈ task := by
      simpa [Effect.sequel, next] using member
    exact absurd (aim_asks aim) (by simp [calm task started b inside])

theorem Vacant.perform (vacant : Vacant c e (a :: rest) log) (grounded : Grounded e (a :: rest)) :
    Vacant c (e.perform a).engine ((e.perform a).sequel ++ rest) (log ++ [(e, a)]) := by
  have spared := perform_spared grounded (vacant.unasked a (List.mem_cons_self ..))
  constructor
  · exact vacant.pristine.onward fun id => spared.unheld (vacant.pristine.now id)
  · intro b member id aim
    rcases List.mem_append.mp member with new | old
    · exact vacant.unasked a (List.mem_cons_self ..) id (sequel_aims grounded new aim)
    · exact vacant.unasked b (List.mem_cons_of_mem _ old) id (spared.aims b old ▸ aim)

theorem Awaits.perform (awaits : Awaits call c e (a :: rest) log) (ready : e.ready a = true)
    (grounded : Grounded e (a :: rest)) :
    Awaits call c (e.perform a).engine ((e.perform a).sequel ++ rest) (log ++ [(e, a)]) := by
  constructor
  · intro b member id aim
    rcases List.mem_append.mp member with new | old
    · rw [sequel_ticket grounded new aim]
      exact awaits.whose a (List.mem_cons_self ..) id (sequel_aims grounded new aim)
    · exact awaits.whose b (List.mem_cons_of_mem _ old) id (perform_aims grounded b old ▸ aim)
  · rcases awaits.either with ⟨i, told⟩ | pristine
    · have serves := perform_serves grounded.sound fun call r same =>
        grounded.honored.plain call r (same ▸ List.mem_cons_self ..)
      exact .inl ⟨i, told_lasts serves.answered told⟩
    by_cases granted : Granted call (e.perform a).engine
    · exact .inl granted
    refine .inr (pristine.onward fun id => ?_)
    by_cases asks : ∃ id, a.aim? e = some (c, id)
    · obtain ⟨id', aim⟩ := asks
      exact asks_unheld ready grounded.sound (awaits.whose a (List.mem_cons_self ..) id' aim)
        (pristine.now id) granted
    · exact (perform_spared grounded fun id aim => asks ⟨id, aim⟩).unheld (pristine.now id)

theorem Awaits.vacant {fault : Fault} (awaits : Awaits call c e pool log) (honored : Honored e pool)
    (failed : (call, .failed fault) ∈ e.replies) : Vacant c e pool log :=
  ⟨awaits.either.resolve_left (ungranted honored failed),
    fun b member id aim => answered_over honored failed member (awaits.whose b member id aim)⟩

end Engine

namespace Server

open Engine (Awaits Vacant Pristine Grounded happened)

variable {s s' : Server} {k : StreamId} {c : ConnectionId} {a : Action} {x y : Streaming}
  {todo : List Action} {ts us others : List (List Action)} {log more : Steps} {setup : Setup}
  {hub : Hub} {first : Server} {call : CallId}

theorem pristine_silent (begun : first.engine = Engine.start setup hub)
    (reached : Reached (World.start first) s ts log)
    (pristine : Pristine c s.engine (innerSteps log)) :
    Engine.entered c (happened (innerSteps log)) = [] := by
  refine List.eq_nil_iff_forall_not_mem.mpr fun f entered => ?_
  obtain ⟨r, queued⟩ := Engine.mem_entered.mp entered
  obtain ⟨i, whose, x, found, own⟩ := reached_user begun reached queued
  have said := Engine.mem_spoken queued whose
  obtain ⟨_, -, ⟨-, parting⟩, voiced⟩ :=
    reached_always begun (Engine.start_voiced setup hub i) reached
  obtain ⟨x', found', ends⟩ := Engine.spoken_ended parting voiced (List.ne_nil_of_mem said)
  obtain rfl := Option.some.inj (found.symm.trans found')
  rcases ends with active | ⟨ending, ended⟩
  · have sound := (reached_grounded begun reached).sound
    have registered := (sound.active_iff i).mpr (by simp [Engine.books, found, active])
    exact pristine.now x.clientId i ⟨(Engine.isRegistered_iff _ i).mpr registered, x,
      found, own, rfl⟩
  · obtain ⟨p, member, ends⟩ := Engine.ended_step ended
    obtain ⟨y, there, same, -⟩ := ended_record begun reached member ends found
    exact pristine.earlier p member y.clientId i
      ⟨Engine.ending_registered ends, y, there, same.trans own, rfl⟩

/-! ## Tasks of requests -/

/-- A request waits for its answer with the one action of its call, or the answer is there. -/
def Requesting (task : List Action) : Prop := ∀ k call, .answerStream k call ∈ task →
  task = [.answerStream k call] ∨
    ∃ b, b.asks = true ∧ b.ticket? = some call ∧ task = [.engine b, .answerStream k call]

theorem unserved_requesting (unserved : ∀ a ∈ task, a.serves? = none) : Requesting task := by
  intro k call member
  cases unserved _ member

theorem requesting_inside (grounded : Grounded s.engine (inner ((a :: todo) :: others).flatten))
    (requesting : Requesting (a :: todo)) : Requesting ((s.perform a).next ++ todo) := by
  intro k call member
  rcases List.mem_append.mp member with new | old
  · cases perform_assigns new rfl
  rcases requesting k call (List.mem_cons_of_mem a old) with alone | ⟨b, asks, whose, both⟩
  · obtain ⟨-, rfl⟩ := List.cons.inj alone
    exact absurd old List.not_mem_nil
  obtain ⟨rfl, rfl⟩ := List.cons.inj both
  rw [inner_pending] at grounded
  cases Engine.asks_pursues grounded.sound asks whose with
  | onward b' next _ asks' whose' _ =>
    have next : (s.perform (.engine b)).next = [.engine b'] := by simp [perform, ofEngine, next]
    exact .inr ⟨b', asks', whose', by rw [next]; rfl⟩
  | answered _ next _ _ =>
    have next : (s.perform (.engine b)).next = [] := by simp [perform, ofEngine, next]
    exact .inl (by rw [next]; rfl)

theorem reached_requesting (begun : first.engine = Engine.start setup hub)
    (reached : Reached (World.start first) s ts log) : ∀ task ∈ ts, Requesting task := by
  induction reached with
  | start => simp [World.start]
  | shuffle perm _ ih => exact fun task member => ih task (perm.mem_iff.mpr member)
  | idle _ ih => exact fun task member => ih task (List.mem_cons_of_mem _ member)
  | @outside s ts _ i _ ih =>
    intro task member
    rcases List.mem_append.mp member with new | old
    · have within {a : Action} (inside : a ∈ task) : a ∈ (i.act ⟨s, []⟩).tasks.flatten :=
        List.mem_flatten.mpr ⟨task, new, inside⟩
      cases input_audience s i with
      | none _ _ _ unserved | joins _ _ unserved =>
        exact unserved_requesting fun a inside => unserved a (within inside)
      | changes _ _ _ _ _ tasks => simp [tasks] at new
      | refused _ _ _ tasks =>
        obtain rfl := List.mem_singleton.mp (tasks ▸ new)
        intro k call member
        simp at member
      | asks r _ _ tasks =>
        obtain rfl := List.mem_singleton.mp (tasks ▸ new)
        intro k call member
        obtain ⟨rfl, rfl⟩ : k = s.streams.length ∧ call = s.engine.calls := by simpa using member
        exact .inr ⟨_, rfl, rfl, rfl⟩
    · exact ih task old
  | @inside s a todo others _ _ before ih =>
    intro task member
    rcases List.mem_cons.mp member with rfl | member
    · exact requesting_inside (reached_grounded begun before) (ih _ List.mem_cons_self)
    rcases List.mem_append.mp member with new | old
    · exact unserved_requesting fun b inside =>
        started_unserved s a b (List.mem_flatten.mpr ⟨task, new, inside⟩)
    · exact ih task (List.mem_cons_of_mem _ old)

/-! ## Calls of streams -/

/-- A request that waits for its answer is alone on its connection, and one that is refused has left
nothing there. -/
structure Answering (s : Server) (ts : List (List Action)) (log : Steps) : Prop where
  asks : ∀ (k : StreamId) (call : CallId) (c : ConnectionId), .answerStream k call ∈ ts.flatten →
    s.Feeds k c → Awaits call c s.engine (inner ts.flatten) (innerSteps log)
  refuses : ∀ (k : StreamId) (payload : Json)
    (c : ConnectionId), .refuseStream k payload ∈ ts.flatten →
    s.Feeds k c → Vacant c s.engine (inner ts.flatten) (innerSteps log)

/-! ### What is kept -/

section Kept

variable {P : Engine → List Engine.Action → Engine.Steps → Prop}

/-- What is kept of a connection by whatever the engine does, and as long as nobody else comes to
ask there, is kept by whatever is done on a server if the connection is no socket's. -/
theorem kept_inside {z : Connection} (lined : Lined s) (found : s.engine.connections[c]? = some z)
    (kind : z.transport = .eventStream)
    (perm : ∀ {e pool more l}, pool.Perm more → P e pool l → P e more l)
    (performed : ∀ {b rest}, a = .engine b → inner ((a :: todo) :: others).flatten = b :: rest →
      P s.engine (b :: rest) (innerSteps log) →
      P (s.engine.perform b).engine ((s.engine.perform b).sequel ++ rest)
        (innerSteps log ++ [(s.engine, b)]))
    (spared : ∀ {e' pool more l}, P s.engine pool l → Engine.Spared c pool s.engine e' →
      (∀ b ∈ more, ∀ id, b.aim? e' ≠ some (c, id)) → P e' (more ++ pool) l)
    (holds : P s.engine (inner ((a :: todo) :: others).flatten) (innerSteps log)) :
    P (s.perform a).server.engine
      (inner (((s.perform a).next ++ todo) :: ((s.perform a).started ++ others)).flatten)
      (innerSteps (log ++ [(s, a)])) := by
  have same := inner_performed s a todo others
  rw [innerSteps_append]
  cases session : a.engine? with
  | some b =>
    obtain rfl := eq_engine session
    have pending :
      inner ((.engine b :: todo) :: others).flatten = b :: inner (todo ++ others.flatten) := by
      rw [inner_pending, inner_append]
    rw [pending] at holds
    rw [inner_sequel] at same
    exact perm same (performed rfl pending holds)
  | none =>
    have quiet : innerSteps [(s, a)] = [] := by simp [innerSteps, session]
    have conduct := perform_conduct s a session
    have pending : inner ((a :: todo) :: others).flatten = inner (todo ++ others.flatten) :=
      inner_session session
    rw [pending] at holds
    rw [quiet, List.append_nil]
    refine perm same (spared holds (conduct_spared conduct) fun b member id aim => ?_)
    obtain ⟨k, sits⟩ := conduct_sits conduct member aim
    exact lined.aloof found kind k sits

theorem kept_outside {i : Input} (made : c < s.engine.connections.length)
    (spared : ∀ {e' pool more l}, P s.engine pool l → Engine.Spared c pool s.engine e' →
      (∀ b ∈ more, ∀ id, b.aim? e' ≠ some (c, id)) → P e' (more ++ pool) l)
    (holds : P s.engine (inner ts.flatten) (innerSteps log)) :
    P (i.act ⟨s, []⟩).state.engine (inner ((i.act ⟨s, []⟩).tasks ++ ts).flatten)
      (innerSteps log) := by
  have arrival := input_arrival s i
  rw [List.flatten_append, inner_append]
  refine spared holds (arrival_spared arrival) fun b member id aim => ?_
  have inside : (c, id) ∈ aims (i.act ⟨s, []⟩).state.engine (i.act ⟨s, []⟩).tasks.flatten :=
    List.mem_filterMap.mpr ⟨b, member, aim⟩
  obtain ⟨task, among, asks⟩ := mem_aims_flatten.mp inside
  exact Nat.ne_of_lt made (arrival_aims arrival among asks).1

end Kept

section Steps

variable {z : Connection}

theorem vacant_inside (lined : Lined s) (found : s.engine.connections[c]? = some z)
    (kind : z.transport = .eventStream)
    (grounded : Grounded s.engine (inner ((a :: todo) :: others).flatten))
    (vacant : Vacant c s.engine (inner ((a :: todo) :: others).flatten) (innerSteps log)) :
    Vacant c (s.perform a).server.engine
      (inner (((s.perform a).next ++ todo) :: ((s.perform a).started ++ others)).flatten)
      (innerSteps (log ++ [(s, a)])) := by
  refine kept_inside (P := Vacant c) lined found kind (fun perm vacant => vacant.perm perm) ?_
    (fun vacant spared others => vacant.spared spared others) vacant
  intro b rest _ pending vacant
  exact vacant.perform (pending ▸ grounded)

theorem awaits_inside (ready : s.ready a = true) (lined : Lined s)
    (found : s.engine.connections[c]? = some z) (kind : z.transport = .eventStream)
    (grounded : Grounded s.engine (inner ((a :: todo) :: others).flatten))
    (awaits : Awaits call c s.engine (inner ((a :: todo) :: others).flatten) (innerSteps log)) :
    Awaits call c (s.perform a).server.engine
      (inner (((s.perform a).next ++ todo) :: ((s.perform a).started ++ others)).flatten)
      (innerSteps (log ++ [(s, a)])) := by
  refine kept_inside (P := Awaits call c) lined found kind (fun perm awaits => awaits.perm perm) ?_
    (fun awaits spared others => awaits.spared spared others) awaits
  rintro b rest rfl pending awaits
  exact awaits.perform ready (pending ▸ grounded)

end Steps

theorem Answering.inside (answering : Answering s ((a :: todo) :: others) log)
    (ready : s.ready a = true)
    (lined : Lined s) (grounded : Grounded s.engine (inner ((a :: todo) :: others).flatten)) :
    Answering (s.perform a).server
      (((s.perform a).next ++ todo) :: ((s.perform a).started ++ others))
      (log ++ [(s, a)]) := by
  constructor
  · intro k call c pending feeds
    have before := perform_feeds feeds
    obtain ⟨z, found, kind, -⟩ := lined.line k c before
    rcases mem_assigned rfl pending with new | old
    · cases new
    · exact awaits_inside ready lined found kind grounded
        (answering.asks k call c (List.mem_cons_of_mem _ old) before)
  · intro k payload c pending feeds
    have before := perform_feeds feeds
    obtain ⟨z, found, kind, -⟩ := lined.line k c before
    refine vacant_inside lined found kind grounded ?_
    rcases mem_assigned rfl pending with new | old
    · cases new with
      | refuses call fault answers failed =>
        have awaits := answering.asks k call c (answers ▸ List.mem_cons_self ..) before
        exact awaits.vacant grounded.honored (Engine.mem_of_reply failed)
    · exact answering.refuses k payload c (List.mem_cons_of_mem _ old) before

theorem unused_pristine (begun : first.engine = Engine.start setup hub)
    (reached : Reached (World.start first) s ts log) (nobody : ∀ i, ¬ s.engine.Uses c i) :
    Pristine c s.engine (innerSteps log) := by
  constructor
  · rintro id i ⟨-, x, found, own, -⟩
    exact nobody i ⟨x, found, own⟩
  · rintro p member id i ⟨registered, x, found, own, -⟩
    obtain ⟨_, -, lasting⟩ := reached_always begun (Engine.start_lasting setup hub) reached
    obtain ⟨y, y', found', there, same⟩ := lasting p member i registered
    obtain rfl := Option.some.inj (found.symm.trans found')
    exact nobody i ⟨y', there, same.connection.trans own⟩

theorem Answering.outside {i : Input} (answering : Answering s ts log)
    (begun : first.engine = Engine.start setup hub) (nobody : first.peers = [])
    (silent : first.streams = []) (reached : Reached (World.start first) s ts log) :
    Answering (i.act ⟨s, []⟩).state ((i.act ⟨s, []⟩).tasks ++ ts) log := by
  have audience := input_audience s i
  have lined := reached_lined nobody silent reached
  have older {k : StreamId} {b : Action} {c : ConnectionId} (old : b ∈ ts.flatten)
    (whose : b.serves? = some k)
      (feeds : (i.act ⟨s, []⟩).state.Feeds k c) :
      s.Feeds k c ∧ c < s.engine.connections.length := by
    rcases audience_feeds audience feeds with before | ⟨rfl, -⟩
    · obtain ⟨z, found, -⟩ := lined.line k c before
      exact ⟨before, (List.getElem?_eq_some_iff.mp found).1⟩
    · exact absurd whose (reached_unborn reached b old)
  have newcomer {k : StreamId} {call : CallId}
      (new : .answerStream k call ∈ (i.act ⟨s, []⟩).tasks.flatten) : k = s.streams.length ∧
        ∀ b ∈ inner (i.act ⟨s, []⟩).tasks.flatten, ∀ id,
          b.aim? (i.act ⟨s, []⟩).state.engine = some (s.engine.connections.length, id) →
            b.ticket? = some call := by
    cases audience with
    | none _ _ _ unserved | joins _ _ unserved => simpa [Action.serves?] using unserved _ new
    | changes _ _ _ _ _ tasks | refused _ _ _ tasks => simp [tasks] at new
    | asks r _ _ tasks =>
      obtain ⟨rfl, rfl⟩ : k = s.streams.length ∧ call = s.engine.calls := by simpa [tasks] using new
      refine ⟨rfl, fun b member id _ => ?_⟩
      obtain rfl : b = _ := by simpa [tasks, inner, Action.engine?] using member
      rfl
  constructor
  · intro k call c pending feeds
    rw [List.flatten_append] at pending
    rcases List.mem_append.mp pending with new | old
    · obtain ⟨rfl, fresh⟩ := newcomer new
      rcases audience_feeds audience feeds with ⟨x, here, -⟩ | ⟨-, rfl, -⟩
      · exact absurd (List.getElem?_eq_some_iff.mp here).1 (Nat.lt_irrefl _)
      have unused := ((reached_solitary begun nobody silent reached).unmade _
        (List.getElem?_eq_none (Nat.le_refl _))).2
      have spared : Engine.Spared s.engine.connections.length (inner ts.flatten) s.engine
          (i.act ⟨s, []⟩).state.engine := arrival_spared (input_arrival s i)
      refine ⟨fun b member id aim => ?_,
        .inr ((unused_pristine begun reached unused).spared spared)⟩
      rw [List.flatten_append, inner_append] at member
      rcases List.mem_append.mp member with asked | old
      · exact fresh b asked id aim
      · rw [spared.aims b old] at aim
        obtain ⟨task, among, asks⟩ := mem_aims_flatten.mp
          (List.mem_filterMap.mpr ⟨b, old, aim⟩ : (_, id) ∈ aims s.engine ts.flatten)
        exact absurd ((reached_seated begun nobody reached).aimed task among _ asks)
          (Nat.lt_irrefl _)
    · obtain ⟨before, made⟩ := older old rfl feeds
      exact kept_outside (P := Awaits call c) made
        (fun awaits spared others => awaits.spared spared others)
        (answering.asks k call c old before)
  · intro k payload c pending feeds
    rw [List.flatten_append] at pending
    have old : .refuseStream k payload ∈ ts.flatten := by
      refine (List.mem_append.mp pending).resolve_left fun new => ?_
      cases audience with
      | none _ _ _ unserved | joins _ _ unserved => simpa [Action.serves?] using unserved _ new
      | changes _ _ _ _ _ tasks | refused _ _ _ tasks | asks _ _ _ tasks => simp [tasks] at new
    obtain ⟨before, made⟩ := older old rfl feeds
    exact kept_outside (P := Vacant c) made
      (fun vacant spared others => vacant.spared spared others)
      (answering.refuses k payload c old before)

theorem reached_answering (begun : first.engine = Engine.start setup hub)
    (nobody : first.peers = [])
    (silent : first.streams = []) (reached : Reached (World.start first) s ts log) :
    Answering s ts log := by
  induction reached with
  | start =>
    constructor
    · simp [World.start]
    · simp [World.start]
  | shuffle perm _ ih =>
    have same := perm.flatten.filterMap Action.engine?
    constructor
    · intro k call c pending feeds
      exact (ih.asks k call c (perm.flatten.mem_iff.mpr pending) feeds).perm same
    · intro k payload c pending feeds
      exact (ih.refuses k payload c (perm.flatten.mem_iff.mpr pending) feeds).perm same
  | idle _ ih => exact ⟨ih.asks, ih.refuses⟩
  | outside i before ih => exact ih.outside begun nobody silent before
  | inside ready before ih =>
    exact ih.inside ready (reached_lined nobody silent before) (reached_grounded begun before)

theorem reached_kept {w : World} (begun : first.engine = Engine.start setup hub)
    (nobody : first.peers = []) (silent : first.streams = [])
    (before : Reached (World.start first) w.state w.tasks log) (feeds : w.state.Feeds k c)
    (reached : Reached w s ts more) :
    s.Feeds k c ∨ Vacant c s.engine (inner ts.flatten) (innerSteps (log ++ more)) := by
  obtain ⟨z, found, kind, -⟩ := (reached_lined nobody silent before).line k c feeds
  induction reached with
  | start => exact .inl feeds
  | shuffle perm _ ih => exact ih.imp_right (·.perm (perm.flatten.filterMap Action.engine?))
  | idle _ ih => exact ih
  | @outside s ts more i onward ih =>
    have audience := input_audience s i
    rcases ih with ⟨x, here, connection⟩ | vacant
    · left
      rcases audience_stream audience here with same | gone | read
      · exact ⟨_, same, connection⟩
      · exact ⟨_, gone, connection⟩
      · exact ⟨_, read, connection⟩
    · right
      obtain ⟨⟨z', found', -⟩, -⟩ := reached_fed found onward
      exact kept_outside (P := Vacant c) (List.getElem?_eq_some_iff.mp found').1
        (fun vacant spared others => vacant.spared spared others) vacant
  | @inside s a todo others more ready onward ih =>
    have whole := before.trans onward
    have lined := reached_lined nobody silent whole
    have grounded := reached_grounded begun whole
    obtain ⟨⟨z', found', same⟩, -⟩ := reached_fed found onward
    have kept (vacant : Vacant c s.engine (inner ((a :: todo) :: others).flatten)
        (innerSteps (log ++ more))) := vacant_inside (a := a) lined found' (same.trans kind)
          grounded vacant
    rw [← List.append_assoc]
    rcases ih with ⟨x, here, connection⟩ | vacant
    · have bound := (List.getElem?_eq_some_iff.mp here).1
      rw [← (perform_streams s a).1] at bound
      have there := List.getElem?_eq_getElem bound
      rcases perform_connection here there with own | ⟨-, payload, rfl⟩
      · exact .inl ⟨_, there, own.trans connection⟩
      · exact .inr (kept ((reached_answering begun nobody silent whole).refuses k payload c
          (List.mem_cons_self ..) ⟨x, here, connection⟩))
    · exact .inr (kept vacant)

end Server

end SubscriptionGateway
