import SubscriptionGateway.Proofs.Engine.Locks
import SubscriptionGateway.Proofs.Engine.Shutdown
import SubscriptionGateway.Proofs.Server.Refusals
import SubscriptionGateway.Proofs.Server.Releases

/-!
Requests whose clients go away while they subscribe. The call stops where it waits and nothing of
it is ever registered, but nobody gives its connection back: it stays managed and counted until a
shutdown releases all. A binding that the call was about to open stays listed without anybody who
opens it, until somebody else joins it.
-/
namespace SubscriptionGateway

open Broker

namespace Server

open Engine (Awaits Vacant Grounded Counted Forsaken Manned)

variable {s : Server} {k : StreamId} {c : ConnectionId} {a : Action} {b : Engine.Action}
  {call : CallId} {todo : List Action} {ts others : List (List Action)} {log more : Steps}
  {setup : Setup} {hub : Hub} {first : Server} {w : World} {place : Nat}

/-! ## Before the response -/

/-- A request that waits for its answer has its connection. -/
structure Unreturned (s : Server) (ts : List (List Action)) : Prop where
  made : ∀ c, .engine (.release c) ∈ ts.flatten → c < s.engine.connections.length
  kept : ∀ (k : StreamId) (call : CallId) (c : ConnectionId), .answerStream k call ∈ ts.flatten →
    s.Feeds k c → ¬ Freed c s ts

theorem Unreturned.inside (unreturned : Unreturned s ((a :: todo) :: others)) (lined : Lined s)
    (grounded : Grounded s.engine (inner ((a :: todo) :: others).flatten))
    (known : ∀ k x, s.streams[k]? = some x → Streamed k s x ((a :: todo) :: others) log)
    (calm : a ≠ .engine .releaseAll) :
    Unreturned (s.perform a).server
      (((s.perform a).next ++ todo) :: ((s.perform a).started ++ others)) where
  made c pending := by
    have same : (s.perform a).server.engine.connections.length = s.engine.connections.length := by
      simpa using congrArg List.length (perform_kinds s a)
    rw [same]
    rcases mem_performed pending with new | old
    · rcases performed_release new with ⟨ends, -⟩ | ⟨j, sits⟩ | ⟨j, -, feeds⟩
      · exact absurd ends calm
      · obtain ⟨z, found, -⟩ := lined.socket j c sits
        exact (List.getElem?_eq_some_iff.mp found).1
      · obtain ⟨z, found, -⟩ := lined.line j c feeds
        exact (List.getElem?_eq_some_iff.mp found).1
    · exact unreturned.made c (List.mem_cons_of_mem a old)
  kept k call c pending feeds := by
    have before := perform_feeds feeds
    obtain ⟨x, here, -⟩ := id before
    rcases mem_assigned rfl pending with new | old
    · cases new
    have other : a.serves? ≠ some k := by
      intro serves
      have asked : .answerStream k call ∈ chores k (todo ++ others.flatten) :=
        List.mem_filter.mpr ⟨old, by simp [Action.serves?]⟩
      rw [((known k x here).alone serves).2] at asked
      exact List.not_mem_nil asked
    exact unfreed_inside (unreturned.kept k call c (List.mem_cons_of_mem a old) before) lined before
      other calm grounded

theorem served_newcomer (i : Input) (new : a ∈ (i.act ⟨s, []⟩).tasks.flatten)
    (serves : a.serves? = some k) : k = s.streams.length := by
  by_contra other
  have chore : a ∈ chores k (i.act ⟨s, []⟩).tasks.flatten :=
    List.mem_filter.mpr ⟨new, by simp [serves]⟩
  rw [audience_chores (input_audience s i) (.inl other)] at chore
  exact List.not_mem_nil chore

theorem Unreturned.outside (unreturned : Unreturned s ts) (i : Input) :
    Unreturned (i.act ⟨s, []⟩).state ((i.act ⟨s, []⟩).tasks ++ ts) where
  made c pending := by
    rw [List.flatten_append] at pending
    have old := (List.mem_append.mp pending).resolve_left (input_unreleased s i c)
    have found := List.getElem?_eq_getElem (unreturned.made c old)
    exact (List.getElem?_eq_some_iff.mp (audience_line (input_audience s i) found)).1
  kept k call c pending feeds := by
    rw [List.flatten_append] at pending
    rcases audience_feeds (input_audience s i) feeds with before | ⟨rfl, rfl, engine⟩
    · rcases List.mem_append.mp pending with new | old
      · obtain ⟨x, here, -⟩ := before
        obtain rfl := served_newcomer i new rfl
        exact absurd (List.getElem?_eq_some_iff.mp here).1 (Nat.lt_irrefl _)
      · exact unfreed_outside (unreturned.kept k call c old before) i
    · have managed : s.engine.connections.length ∈ (i.act ⟨s, []⟩).state.engine.managed := by
        rw [engine]
        exact List.mem_append_right _ List.mem_cons_self
      refine not_or.mpr ⟨not_not.mpr managed, ?_⟩
      rw [List.flatten_append, List.mem_append, not_or]
      exact ⟨input_unreleased s i _, fun old => Nat.lt_irrefl _ (unreturned.made _ old)⟩

def Calm (log : Steps) : Prop := ∀ q ∈ log, q.2 ≠ .engine .releaseAll

theorem reached_unreturned (begun : first.engine = Engine.start setup hub)
    (nobody : first.peers = []) (silent : first.streams = [])
    (reached : Reached (World.start first) s ts log) (calm : Calm log) : Unreturned s ts := by
  induction reached with
  | start => exact ⟨by simp [World.start], by simp [World.start]⟩
  | shuffle perm _ ih =>
    obtain ⟨made, kept⟩ := ih calm
    refine ⟨fun c pending => made c (perm.flatten.mem_iff.mpr pending),
      fun k call c pending feeds freed => ?_⟩
    exact kept k call c (perm.flatten.mem_iff.mpr pending) feeds
      (freed.imp_right perm.flatten.mem_iff.mpr)
  | idle _ ih => exact ⟨(ih calm).made, (ih calm).kept⟩
  | outside i _ ih => exact (ih calm).outside i
  | inside _ before ih =>
    refine (ih fun q member => calm q (List.mem_append_left _ member)).inside
      (reached_lined nobody silent before) (reached_grounded begun before)
      (fun k => reached_streamed nobody silent before) ?_
    exact calm _ (List.mem_append_right _ List.mem_cons_self)

/-! ## After the request is dropped -/

theorem suspended_task (waits : w.suspended? place = some (b, k)) :
    ∃ call, w.tasks[place]? = some [.engine b, .answerStream k call] ∧ b.suspends = true := by
  unfold World.suspended? at waits
  split at waits
  · rename_i b' k' call found
    split at waits
    · rename_i suspends
      obtain ⟨rfl, rfl⟩ : b' = b ∧ k' = k := by simpa using waits
      exact ⟨call, found, suspends⟩
    · cases waits
  · cases waits

/-- What is given up, with the stream and the connection that it was for. -/
structure Surrendered (w : World) (place : Nat) (b : Engine.Action) (k : StreamId)
    (c : ConnectionId) : Prop where
  feeds : w.state.Feeds k c
  suspends : b.suspends = true
  task : ∃ call, b.ticket? = some call ∧
    w.tasks[place]? = some [.engine b, .answerStream k call]
  engine : (w.dropRequest place).state.engine = (w.state.engine.giveUp b).stopReading c
  streams : (w.dropRequest place).state.streams =
    w.state.streams.modify k fun x => { x with gone := true }
  peers : (w.dropRequest place).state.peers = w.state.peers
  tasks : (w.dropRequest place).tasks = w.tasks.eraseIdx place

theorem dropped_surrendered (begun : first.engine = Engine.start setup hub)
    (nobody : first.peers = []) (silent : first.streams = [])
    (reached : Reached (World.start first) w.state w.tasks log)
    (waits : w.suspended? place = some (b, k)) : ∃ c, Surrendered w place b k c := by
  obtain ⟨call, found, suspends⟩ := suspended_task waits
  have among : [.engine b, .answerStream k call] ∈ w.tasks := List.mem_of_getElem? found
  have pending : .answerStream k call ∈ w.tasks.flatten :=
    List.mem_flatten.mpr ⟨_, among, by simp⟩
  have whose : b.ticket? = some call := by
    rcases reached_requesting begun reached _ among k call (by simp) with alone |
      ⟨b', -, whose, both⟩
    · simp at alone
    · obtain rfl : b = b' := by simpa using both
      exact whose
  have chore : .answerStream k call ∈ chores k w.tasks.flatten :=
    List.mem_filter.mpr ⟨pending, by simp [Action.serves?]⟩
  cases here : w.state.streams[k]? with
  | none =>
    rw [(reached_unstreamed reached here).2] at chore
    exact absurd chore List.not_mem_nil
  | some x =>
    have course := (reached_streamed nobody silent reached x here).course
    have fresh : x.Fresh (streamed k log) := by
      generalize chores k w.tasks.flatten = as at course chore
      cases course with
      | asks _ fresh => exact fresh
      | _ => simp at chore
    obtain ⟨c, connection⟩ := Option.ne_none_iff_exists'.mp fresh.connected
    refine ⟨c, ⟨x, here, connection⟩, suspends, ⟨call, whose, found⟩, ?_, ?_, ?_, ?_⟩ <;>
    simp [World.dropRequest, waits, World.dropStream, World.map, mapEngine, updateStream, here,
      connection]

theorem Surrendered.feeds_iff (given : Surrendered w place b k c) (j : StreamId)
    (c' : ConnectionId) :
    (w.dropRequest place).state.Feeds j c' ↔ w.state.Feeds j c' := by
  simp only [Feeds, given.streams, List.getElem?_modify]
  cases w.state.streams[j]? with
  | none => simp
  | some x => by_cases same : k = j <;> simp [same]

theorem Surrendered.line (given : Surrendered w place b k c) {c' : ConnectionId} {z : Connection}
    (found : w.state.engine.connections[c']? = some z) :
    ∃ z', (w.dropRequest place).state.engine.connections[c']? = some z' ∧
      z'.transport = z.transport ∧ z'.cancelled = z.cancelled ∧ z'.closed = z.closed := by
  obtain ⟨bindings, rest⟩ := Engine.giveUp_rest w.state.engine b
  rw [given.engine, rest]
  by_cases same : c = c'
  · exact ⟨{ z with read := false, queue := [] }, by
      simp [Engine.stopReading, Engine.updateConnection, same, found], rfl, rfl, rfl⟩
  · exact ⟨z, by simp [Engine.stopReading, Engine.updateConnection, same, found], rfl, rfl, rfl⟩

theorem Surrendered.lined (given : Surrendered w place b k c) (lined : Lined w.state) :
    Lined (w.dropRequest place).state where
  line j c' feeds := by
    obtain ⟨z, found, kind, even⟩ := lined.line j c' ((given.feeds_iff j c').mp feeds)
    obtain ⟨z', found', kind', cancelled, closed⟩ := given.line found
    exact ⟨z', found', kind'.trans kind, by rw [cancelled, closed, even]⟩
  single i j c' one other :=
    lined.single i j c' ((given.feeds_iff i c').mp one) ((given.feeds_iff j c').mp other)
  socket j c' sits := by
    have before : w.state.Sits j c' := by
      simp only [Sits, given.peers] at sits ⊢
      exact sits
    obtain ⟨z, found, kind⟩ := lined.socket j c' before
    obtain ⟨z', found', kind', -⟩ := given.line found
    exact ⟨z', found', kind'.trans kind⟩

theorem Surrendered.perm (given : Surrendered w place b k c) : ∃ call, b.ticket? = some call ∧
    w.tasks.Perm ([.engine b, .answerStream k call] :: (w.dropRequest place).tasks) := by
  obtain ⟨call, whose, found⟩ := given.task
  obtain ⟨bound, same⟩ := List.getElem?_eq_some_iff.mp found
  refine ⟨call, whose, ?_⟩
  rw [given.tasks, ← same]
  exact (List.getElem_cons_eraseIdx_perm bound).symm

theorem Surrendered.inner_perm (given : Surrendered w place b k c) :
    (inner w.tasks.flatten).Perm (b :: inner (w.dropRequest place).tasks.flatten) := by
  obtain ⟨call, -, perm⟩ := given.perm
  have same : inner ([.engine b, .answerStream k call] :: (w.dropRequest place).tasks).flatten =
      b :: inner (w.dropRequest place).tasks.flatten := inner_pending ..
  rw [← same]
  exact perm.flatten.filterMap _

theorem Surrendered.grounded (given : Surrendered w place b k c)
    (grounded : Grounded w.state.engine (inner w.tasks.flatten)) :
    Grounded (w.dropRequest place).state.engine (inner (w.dropRequest place).tasks.flatten) := by
  rw [given.engine]
  exact Engine.giveUp_grounded (Engine.grounded_shuffle given.inner_perm grounded) given.suspends c

theorem Surrendered.vacant (given : Surrendered w place b k c)
    (grounded : Grounded w.state.engine (inner w.tasks.flatten))
    (answering : Answering w.state w.tasks log) :
    Vacant c (w.dropRequest place).state.engine (inner (w.dropRequest place).tasks.flatten)
      (innerSteps log) := by
  obtain ⟨call, whose, perm⟩ := given.perm
  have pending : .answerStream k call ∈ w.tasks.flatten := perm.flatten.mem_iff.mpr (by simp)
  have awaits := (answering.asks k call c pending given.feeds).perm given.inner_perm
  have honored := (Engine.grounded_shuffle given.inner_perm grounded).honored
  obtain ⟨bindings, rest⟩ := Engine.giveUp_rest w.state.engine b
  rw [given.engine, rest]
  have pristine := awaits.either.resolve_left fun ⟨i, told⟩ =>
    Engine.answered_over honored told List.mem_cons_self whose
  refine ⟨⟨fun id i holds => pristine.now id i ⟨holds.registered, holds.record⟩,
    pristine.earlier⟩, fun b' member id aim => ?_⟩
  have aim : b'.aim? w.state.engine = some (c, id) := by
    cases b' <;> exact aim
  have others := (List.nodup_append.mp honored.once).2.1
  rw [Engine.tickets_cons, whose] at others
  exact (List.nodup_cons.mp others).1
    (Engine.mem_tickets member (awaits.whose b' (List.mem_cons_of_mem b member) id aim))

/-- Nobody serves a stream any more, nobody releases its connection and nobody registers anything
on it. -/
structure Stranded (k : StreamId) (c : ConnectionId) (s : Server) (ts : List (List Action))
    (log : Steps) : Prop where
  lined : Lined s
  feeds : s.Feeds k c
  unserved : ∀ a ∈ ts.flatten, a.serves? ≠ some k
  unfreed : ¬ Freed c s ts
  vacant : Vacant c s.engine (inner ts.flatten) (innerSteps log)

theorem Surrendered.stranded (given : Surrendered w place b k c) (lined : Lined w.state)
    (grounded : Grounded w.state.engine (inner w.tasks.flatten))
    (answering : Answering w.state w.tasks log)
    (known : ∀ x, w.state.streams[k]? = some x → Streamed k w.state x w.tasks log)
    (unreturned : Unreturned w.state w.tasks) :
    Stranded k c (w.dropRequest place).state (w.dropRequest place).tasks log where
  lined := given.lined lined
  feeds := (given.feeds_iff k c).mpr given.feeds
  unserved a member serves := by
    obtain ⟨x, here, -⟩ := given.feeds
    obtain ⟨call, -, perm⟩ := given.perm
    have few := (known x here).course.few
    rw [← chores_perm perm few] at few
    have others : a ∈ chores k (w.dropRequest place).tasks.flatten :=
      List.mem_filter.mpr ⟨member, by simp [serves]⟩
    have whole : chores k ([.engine b, .answerStream k call] ::
        (w.dropRequest place).tasks).flatten =
        .answerStream k call :: chores k (w.dropRequest place).tasks.flatten := by
      simp [chores, Action.serves?]
    rw [whole, List.length_cons] at few
    have some := List.length_pos_of_mem others
    omega
  unfreed := by
    obtain ⟨call, -, perm⟩ := given.perm
    have pending : .answerStream k call ∈ w.tasks.flatten := perm.flatten.mem_iff.mpr (by simp)
    obtain ⟨managed, unreleased⟩ := not_or.mp (unreturned.kept k call c pending given.feeds)
    obtain ⟨bindings, rest⟩ := Engine.giveUp_rest w.state.engine b
    refine not_or.mpr ⟨by rwa [given.engine, rest], fun released => ?_⟩
    exact unreleased (perm.flatten.mem_iff.mpr (List.mem_append_right _ released))
  vacant := given.vacant grounded answering

theorem Stranded.inside (stranded : Stranded k c s ((a :: todo) :: others) log)
    (grounded : Grounded s.engine (inner ((a :: todo) :: others).flatten))
    (calm : a ≠ .engine .releaseAll) :
    Stranded k c (s.perform a).server
      (((s.perform a).next ++ todo) :: ((s.perform a).started ++ others)) (log ++ [(s, a)]) := by
  have other : a.serves? ≠ some k := stranded.unserved a List.mem_cons_self
  obtain ⟨z, found, kind, -⟩ := stranded.lined.line k c stranded.feeds
  obtain ⟨x, here, connection⟩ := stranded.feeds
  have there := ((perform_streams s a).2 k other).trans here
  refine ⟨perform_lined stranded.lined a, ⟨x, there, connection⟩, fun a' member serves => ?_,
    unfreed_inside stranded.unfreed stranded.lined stranded.feeds other calm grounded,
    vacant_inside stranded.lined found kind grounded stranded.vacant⟩
  have chore : a' ∈ chores k (((s.perform a).next ++ todo) ::
      ((s.perform a).started ++ others)).flatten :=
    List.mem_filter.mpr ⟨member, by simp [serves]⟩
  rw [chores_performed, perform_unserved s other, List.nil_append] at chore
  exact stranded.unserved a' (List.mem_cons_of_mem a (List.mem_of_mem_filter chore)) serves

theorem Stranded.outside (stranded : Stranded k c s ts log) (i : Input) :
    Stranded k c (i.act ⟨s, []⟩).state ((i.act ⟨s, []⟩).tasks ++ ts) log := by
  have audience := input_audience s i
  obtain ⟨z, found, -⟩ := stranded.lined.line k c stranded.feeds
  obtain ⟨x, here, connection⟩ := stranded.feeds
  refine ⟨input_lined stranded.lined i, ?_, fun a member serves => ?_,
    unfreed_outside stranded.unfreed i,
    kept_outside (P := Vacant c) (List.getElem?_eq_some_iff.mp found).1
      (fun vacant spared others => vacant.spared spared others) stranded.vacant⟩
  · rcases audience_stream audience here with same | gone | read
    · exact ⟨_, same, connection⟩
    · exact ⟨_, gone, connection⟩
    · exact ⟨_, read, connection⟩
  · rw [List.flatten_append] at member
    rcases List.mem_append.mp member with new | old
    · obtain rfl := served_newcomer i new serves
      exact Nat.lt_irrefl _ (List.getElem?_eq_some_iff.mp here).1
    · exact stranded.unserved a old serves

theorem reached_stranded (stranded : Stranded k c w.state w.tasks log)
    (grounded : ∀ {s ts more}, Reached w s ts more → Grounded s.engine (inner ts.flatten))
    (reached : Reached w s ts more) (calm : Calm more) : Stranded k c s ts (log ++ more) := by
  induction reached with
  | start => rwa [List.append_nil]
  | shuffle perm _ ih =>
    have before := ih calm
    exact { before with
      unserved := fun a member => before.unserved a (perm.flatten.mem_iff.mpr member)
      unfreed := fun freed => before.unfreed (freed.imp_right perm.flatten.mem_iff.mpr)
      vacant := before.vacant.perm (perm.flatten.filterMap Action.engine?) }
  | idle _ ih => exact { ih calm with }
  | outside i _ ih => exact (ih calm).outside i
  | inside _ onward ih =>
    have before := ih fun q member => calm q (List.mem_append_left _ member)
    rw [← List.append_assoc]
    exact before.inside (grounded onward) (calm _ (List.mem_append_right _ List.mem_cons_self))

/-! ## Whatever comes then -/

def World.engineWorld (w : World) : Engine.World := ⟨w.state.engine, innerTasks w.tasks⟩

theorem reached_counted (begun : first.engine = Engine.start setup hub)
    (reached : Reached (World.start first) s ts log) : Counted s.engine (inner ts.flatten) := by
  have nobody : Counted (Engine.start setup hub) [] := ⟨rfl, List.nodup_nil, by simp [Engine.start]⟩
  have always := (Engine.start_accounted setup hub).and Engine.counted_upheld nobody
  exact mirrored_pending (P := fun e pool _ => Counted e pool) Engine.counted_shuffle
    (by simp [World.start]) (start_mirrored begun)
    (always.imp (fun perm counted => Engine.counted_shuffle perm.flatten counted) And.right)
    reached

theorem reached_manned (begun : first.engine = Engine.start setup hub) (β : BindingId)
    (reached : Reached (World.start first) s ts log) : Manned s.engine (inner ts.flatten) β :=
  mirrored_pending (P := fun e pool _ => Manned e pool β) Engine.Manned.shuffle
    (by simp [World.start]) (start_mirrored begun)
    ((Engine.start_staffed setup hub).imp (fun perm manned => manned.shuffle perm.flatten)
      fun both => both.2.manned β) reached

theorem dropped_pending {P : Engine → List Engine.Action → Engine.Steps → Prop}
    (shuffle : ∀ {e p q log}, p.Perm q → P e p log → P e q log)
    (given : Surrendered w place b k c) (before : Reached (World.start first) w.state w.tasks log)
    (always : Engine.Always (w.dropRequest place).engineWorld fun e ts log => P e ts.flatten log)
    (reached : Reached (w.dropRequest place) s ts more) :
    P s.engine (inner ts.flatten) (innerSteps more) := by
  refine mirrored_pending shuffle (fun task member => ?_) ⟨rfl, ?_, rfl⟩ always reached
  · refine reached_fronted (by simp [World.start]) before task ?_
    rw [given.tasks] at member
    exact List.mem_of_mem_eraseIdx member
  · change (Server.busy (innerTasks (w.dropRequest place).tasks)).Perm _
    rw [innerTasks, busy_busy]

theorem dropped_grounded (given : Surrendered w place b k c)
    (before : Reached (World.start first) w.state w.tasks log)
    (begun : first.engine = Engine.start setup hub)
    (reached : Reached (w.dropRequest place) s ts more) :
    Grounded s.engine (inner ts.flatten) := by
  refine dropped_pending (P := fun e pool _ => Grounded e pool) Engine.grounded_shuffle given before
    (Engine.grounded_always ?_) reached
  change Grounded _ (innerTasks (w.dropRequest place).tasks).flatten
  rw [innerTasks_flatten]
  exact given.grounded (reached_grounded begun before)

theorem dropped_upheld {P : Engine → List Engine.Action → Engine.Steps → Prop}
    (upheld : Engine.Upheld Engine.Accounted fun e ts log => P e ts.flatten log)
    (shuffle : ∀ {e p q log}, p.Perm q → P e p log → P e q log)
    (given : Surrendered w place b k c) (before : Reached (World.start first) w.state w.tasks log)
    (begun : first.engine = Engine.start setup hub)
    (holds : P (w.dropRequest place).state.engine (inner (w.dropRequest place).tasks.flatten) [])
    (reached : Reached (w.dropRequest place) s ts more) :
    P s.engine (inner ts.flatten) (innerSteps more) := by
  have sound := (given.grounded (reached_grounded begun before)).sound
  rw [← innerTasks_flatten] at holds sound
  have always := (Engine.accounted_always (w := (w.dropRequest place).engineWorld) sound).and upheld
    holds
  exact dropped_pending shuffle given before
    (always.imp (fun perm holds => shuffle perm.flatten holds) And.right) reached

theorem dropped_counted (given : Surrendered w place b k c)
    (before : Reached (World.start first) w.state w.tasks log)
    (begun : first.engine = Engine.start setup hub)
    (reached : Reached (w.dropRequest place) s ts more) : Counted s.engine (inner ts.flatten) := by
  refine dropped_upheld (P := fun e pool _ => Counted e pool) Engine.counted_upheld
    Engine.counted_shuffle given before begun ?_ reached
  rw [given.engine]
  exact Engine.giveUp_counted
    (Engine.counted_shuffle given.inner_perm (reached_counted begun before)) given.suspends c

def Unvisited (β : BindingId) (log : Steps) : Prop :=
  ∀ q ∈ log, ∀ a, q.2 = .engine a → a.visits β = false

theorem dropped_forsaken {β : BindingId} {y : Binding} (given : Surrendered w place b k c)
    (before : Reached (World.start first) w.state w.tasks log)
    (begun : first.engine = Engine.start setup hub)
    (here : (w.dropRequest place).state.engine.bindings[β]? = some y) (opening : y.phase = .opening)
    (unlocked : y.locked = false) (reached : Reached (w.dropRequest place) s ts more)
    (unvisited : Unvisited β more) : Forsaken β y s.engine (inner ts.flatten) := by
  have perm := given.inner_perm
  have grounded := Engine.grounded_shuffle perm (reached_grounded begun before)
  rw [given.engine] at here
  have forsaken := Engine.giveUp_forsaken grounded given.suspends
    ((reached_manned begun β before).shuffle perm) c here opening unlocked
  rw [← given.engine] at forsaken
  refine dropped_upheld (P := fun e pool log =>
    (∀ p ∈ log, p.2.visits β = false) → Forsaken β y e pool) (Engine.forsaken_upheld β y)
    (fun perm holds calm => (holds calm).shuffle perm) given before begun (fun _ => forsaken)
    reached fun p member => ?_
  obtain ⟨q, there, -, own⟩ := mem_innerSteps.mp member
  exact unvisited q there p.2 own

/-! ## What stays -/

structure Leftover (k : StreamId) (c : ConnectionId) (w : World) : Prop where
  feeds : w.state.Feeds k c
  unserved : ∀ a ∈ w.pending, a.serves? ≠ some k
  managed : c ∈ w.state.engine.managed
  unreleased : .engine (.release c) ∉ w.pending
  /-- Every managed connection counts. -/
  counted : w.state.engine.counters.connections =
    w.state.engine.managed.length + (Engine.outstanding (inner w.pending)).length
  bare : w.state.engine.owned c = []
  unused : ∀ i, w.state.engine.Uses c i → w.state.engine.isRegistered i = false

theorem Stranded.leftover (stranded : Stranded k c w.state w.tasks log)
    (grounded : Grounded w.state.engine (inner w.tasks.flatten))
    (counted : Counted w.state.engine (inner w.tasks.flatten)) : Leftover k c w := by
  obtain ⟨managed, unreleased⟩ := not_or.mp stranded.unfreed
  have unheld := stranded.vacant.pristine.now
  refine ⟨stranded.feeds, stranded.unserved, not_not.mp managed, unreleased, counted.connections,
    List.eq_nil_iff_forall_not_mem.mpr fun p member => ?_, fun i uses => ?_⟩
  · exact unheld p.2 p.1 ((Engine.owned_iff grounded.sound grounded.labelled).mp member)
  · obtain ⟨x, found, own⟩ := uses
    exact Bool.eq_false_iff.mpr fun registered =>
      unheld x.clientId i ⟨registered, x, found, own, rfl⟩

/-- When the client of a request goes away while its call waits, whatever comes then: nothing is
registered for it, and until a shutdown releases all its connection stays managed and counted,
though nobody serves it or will release it. The binding that the call was opening stays listed,
free and without members, as any does that nobody opens then, until somebody joins it or a shutdown
sweeps it. -/
theorem dropped_request_stays (setup : Setup) (hub : Hub) (first : Server)
    (begun : first.engine = Engine.start setup hub) (nobody : first.peers = [])
    (silent : first.streams = []) (before : List Move) (place : Nat) (b : Engine.Action)
    (k : StreamId) (waits : ((World.start first).play before).suspended? place = some (b, k))
    (calm : Calm ((World.start first).steps before)) :
    let dropped := ((World.start first).play before).dropRequest place
    (∃ c, ∀ later, Calm (dropped.steps later) → Leftover k c (dropped.play later)) ∧
    (∀ β, b.opens? = some β →
      ∃ y, dropped.state.engine.bindings[β]? = some y ∧ y.phase = .opening ∧ y.locked = false) ∧
    ∀ β y, dropped.state.engine.bindings[β]? = some y → y.phase = .opening → y.locked = false →
      ∀ later, Unvisited β (dropped.steps later) →
        (dropped.play later).state.engine.bindings[β]? = some y ∧ y.members = [] ∧
          (y.key, β) ∈ (dropped.play later).state.engine.listed := by
  intro dropped
  have reached := play_reached (World.start first) before
  obtain ⟨c, given⟩ := dropped_surrendered begun nobody silent reached waits
  have grounded {s : Server} {ts : List (List Action)} {more : Steps}
      (onward : Reached dropped s ts more) := dropped_grounded given reached begun onward
  refine ⟨⟨c, fun later still => ?_⟩, ?_, fun β y here opening unlocked later unvisited => ?_⟩
  · have stranded := given.stranded (reached_lined nobody silent reached)
      (reached_grounded begun reached) (reached_answering begun nobody silent reached)
      (fun x => reached_streamed nobody silent reached x)
      (reached_unreturned begun nobody silent reached calm)
    have onward := play_reached dropped later
    exact (reached_stranded stranded grounded onward still).leftover (grounded onward)
      (dropped_counted given reached begun onward)
  · intro β opens
    have sound := (Engine.grounded_shuffle given.inner_perm (reached_grounded begun reached)).sound
    exact given.engine ▸ Engine.giveUp_opening sound opens c
  · have onward := play_reached dropped later
    have forsaken := dropped_forsaken given reached begun here opening unlocked onward unvisited
    exact ⟨forsaken.here, forsaken.empty, forsaken.listed (grounded onward).sound⟩

def slowServer : Server :=
  { settings := {}, engine := Engine.start Engine.slowSetup Engine.staffHub }

def slowAsked : List Move :=
  [.input (.request ["text/event-stream"]
    ("\x7b\"query\":\"subscription \x7b employee \x7b id \x7d \x7d\"\x7d".toUTF8.toList)),
    .step 0, .step 0]

def slowDropped : World := ((World.start slowServer).play slowAsked).dropRequest 0

def Action.releasesAll : Action → Bool
  | .engine .releaseAll => true
  | _ => false

theorem slow_request_stays : (World.start slowServer).state.engine.counters.connections = 0 ∧
    (slowDropped.play [.input (.pass 60000)]).state.engine.counters.connections = 1 ∧
    Leftover 0 0 (slowDropped.play [.input (.pass 60000)]) ∧
    ∃ y, (slowDropped.play [.input (.pass 60000)]).state.engine.bindings[0]? = some y ∧
      y.phase = .opening ∧ y.locked = false ∧ y.members = [] := by
  have waiting : (((World.start slowServer).play slowAsked).suspended? 0).map
      (fun p => (p.1.opens?, p.2)) = some (some 0, 0) := by decide +kernel
  have calm : ((World.start slowServer).steps slowAsked).all
      (fun q => !q.2.releasesAll) = true := by decide +kernel
  have fed : (slowDropped.play [.input (.pass 60000)]).state.streams[0]?.bind
      (·.connection?) = some 0 := by decide +kernel
  have counted : (slowDropped.play [.input (.pass 60000)]).state.engine.counters.connections = 1 :=
    by decide +kernel
  obtain ⟨⟨b, k⟩, waits, same⟩ := Option.map_eq_some_iff.mp waiting
  obtain ⟨opens, rfl⟩ : b.opens? = some 0 ∧ k = 0 := by simpa using same
  obtain ⟨⟨c, stays⟩, left, forsaken⟩ := dropped_request_stays Engine.slowSetup Engine.staffHub
    slowServer rfl rfl rfl slowAsked 0 _ 0 waits fun q member releases => by
      have still := List.all_eq_true.mp calm q member
      simp [releases, Action.releasesAll] at still
  have nothing : slowDropped.steps [.input (.pass 60000)] = [] := rfl
  have remains : Leftover 0 c (slowDropped.play [.input (.pass 60000)]) :=
    stays _ fun q member => absurd (nothing ▸ member) List.not_mem_nil
  obtain rfl : c = 0 := by
    obtain ⟨x, here, own⟩ := remains.feeds
    simpa [here, own] using fed
  obtain ⟨y, here, opening, unlocked⟩ := left 0 opens
  obtain ⟨there, empty, -⟩ := forsaken 0 y here opening unlocked [.input (.pass 60000)]
    fun q member => absurd (nothing ▸ member) List.not_mem_nil
  exact ⟨rfl, counted, remains, y, there, opening, unlocked, empty⟩

end Server

end SubscriptionGateway
