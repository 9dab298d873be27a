import SubscriptionGateway.Proofs.Server.Courses

/-!
One request, one subscription. Only the request that a stream comes with asks for a subscription on
its connection, so all that is handed over there is of one subscription, and nothing follows its
completion. What a stream leaves behind when it ends by itself has come after its connection was
closed.
-/
namespace SubscriptionGateway

open Broker

namespace Engine

variable {e e' : Engine} {a b : Action} {c : ConnectionId} {i j : SubscriptionId}
  {pool rest more : List Action} {talk : List Happening}

/-! ## Who asks on a connection -/

def Action.wants? : Action → Option ConnectionId
  | .subscribe _ c _ _ => some c
  | _ => none

def wanting (c : ConnectionId) (pool : List Action) : List Action :=
  pool.filter fun a => a.wants? == some c

theorem wanting_append (pool more : List Action) :
    wanting c (pool ++ more) = wanting c pool ++ wanting c more := List.filter_append ..

theorem wanting_nil (calm : ∀ b ∈ pool, b.wants? ≠ some c) : wanting c pool = [] :=
  List.filter_eq_nil_iff.mpr fun b member => by simpa using calm b member

theorem wants_asks (wants : a.wants? = some c) : a.asks = true := by
  cases a <;> simp_all [Action.wants?, Action.asks]

theorem wants_aim (wants : a.wants? = some c) (e : Engine) : ∃ id, a.aim? e = some (c, id) := by
  cases a <;> simp_all [Action.wants?, Action.aim?]

theorem brings_wants (brings : a.Brings b) : b.wants? = none := by
  cases b with
  | subscribe => cases a <;> simp_all [Action.Brings]
  | _ => rfl

def Uses (e : Engine) (c : ConnectionId) (i : SubscriptionId) : Prop :=
  ∃ x, e.subscribers[i]? = some x ∧ x.connection = c

theorem uses_same (same : e'.subscribers = e.subscribers) : e'.Uses c i ↔ e.Uses c i := by
  simp only [Uses, same]

theorem perform_uses (sound : e.books.Sound (duties (a :: rest)))
    (uses : (e.perform a).engine.Uses c i) :
    e.Uses c i ∨ i = e.subscribers.length ∧ a.wants? = some c := by
  obtain ⟨x', found', connection⟩ := uses
  cases found : e.subscribers[i]? with
  | some x =>
    obtain ⟨x'', found'', same⟩ := perform_same e a found
    obtain rfl := Option.some.inj (found'.symm.trans found'')
    exact .inl ⟨x, found, same.connection.symm.trans connection⟩
  | none =>
    obtain ⟨call, c', clientId, r, rfl, rfl⟩ := absent_subscribes sound found found'
    obtain ⟨-, compiled, rfl, -⟩ := subscribe_record found'
    exact .inr ⟨rfl, congrArg some connection⟩

/-- On a connection there is one subscription at most, or one is still asked for. -/
structure Sole (c : ConnectionId) (e : Engine) (pool : List Action) : Prop where
  one : ∀ i j, e.Uses c i → e.Uses c j → i = j
  few : (wanting c pool).length ≤ 1
  either : wanting c pool ≠ [] → ∀ i, ¬ e.Uses c i

theorem Sole.perm (sole : Sole c e pool) (perm : pool.Perm more) : Sole c e more where
  one := sole.one
  few := (perm.filter _).length_eq ▸ sole.few
  either asked := sole.either fun none => by
    have same : (wanting c pool).Perm (wanting c more) := perm.filter _
    rw [none] at same
    exact asked (List.nil_perm.mp same)

theorem Sole.same (sole : Sole c e pool) (subscribers : e'.subscribers = e.subscribers)
    (calm : ∀ b ∈ more, b.wants? ≠ some c) : Sole c e' (more ++ pool) := by
  have same : wanting c (more ++ pool) = wanting c pool := by
    rw [wanting_append, wanting_nil calm, List.nil_append]
  refine ⟨fun i j one other => ?_, same ▸ sole.few, fun asked i uses => ?_⟩
  · exact sole.one i j ((uses_same subscribers).mp one) ((uses_same subscribers).mp other)
  · exact sole.either (same ▸ asked) i ((uses_same subscribers).mp uses)

theorem sole_unused (nobody : ∀ i, ¬ e.Uses c i) (few : (wanting c pool).length ≤ 1) :
    Sole c e pool :=
  ⟨fun i _ uses => absurd uses (nobody i), few, fun _ => nobody⟩

theorem perform_sole (sound : e.books.Sound (duties (a :: rest))) (sole : Sole c e (a :: rest)) :
    Sole c (e.perform a).engine ((e.perform a).sequel ++ rest) := by
  have same : wanting c ((e.perform a).sequel ++ rest) = wanting c rest := by
    rw [wanting_append, wanting_nil, List.nil_append]
    intro b member
    simp [brings_wants (perform_brings e a b member)]
  by_cases wants : a.wants? = some c
  · have whole : wanting c (a :: rest) = a :: wanting c rest :=
      List.filter_cons_of_pos (by simp [wants])
    have nobody := sole.either (by simp [whole])
    have none : wanting c rest = [] := by simpa [whole] using sole.few
    have last {i : SubscriptionId} (uses : (e.perform a).engine.Uses c i) :
      i = e.subscribers.length :=
      (perform_uses sound uses).elim (fun old => absurd old (nobody i)) (·.1)
    refine ⟨fun i j one other => (last one).trans (last other).symm, by
      simp [same, none], fun asked => ?_⟩
    exact absurd (same.trans none) asked
  · have whole : wanting c (a :: rest) = wanting c rest :=
      List.filter_cons_of_neg (by simpa using wants)
    have old {i : SubscriptionId} (uses : (e.perform a).engine.Uses c i) : e.Uses c i :=
      (perform_uses sound uses).resolve_right fun new => wants new.2
    refine ⟨fun i j one other => sole.one i j (old one) (old other), ?_, fun asked i uses => ?_⟩
    · rw [same, ← whole]
      exact sole.few
    · exact sole.either (by rwa [whole, ← same]) i (old uses)

/-! ## Frames of one subscription -/

/-- When all that enters a queue is of one subscription, it is what this one says. -/
theorem entered_spoken {x : SubscriptionId}
    (whose : ∀ f r, .queued c f r ∈ talk → r = .event x ∨ r = .ending x)
    (own : ∀ m ∈ spoken x talk, m.1 = c) : entered c talk = (spoken x talk).map Prod.snd := by
  induction talk with
  | nil => rfl
  | cons h talk ih =>
    have rest := ih (fun f r member => whose f r (List.mem_cons_of_mem _ member)) fun m member =>
      own m (spoken_append [h] talk ▸ List.mem_append_right _ member)
    have split : entered c (h :: talk) = entered c [h] ++ entered c talk :=
      entered_append c [h] talk
    have split' : spoken x (h :: talk) = spoken x [h] ++ spoken x talk := spoken_append [h] talk
    rw [split, split', List.map_append, rest]
    congr 1
    cases h with
    | found => rfl
    | queued c' f r =>
      by_cases here : c' = c
      · subst here
        rcases whose f r (List.mem_cons_self ..) with rfl | rfl <;> simp [entered, spoken]
      · have silent : spoken x [.queued c' f r] = [] := by
          refine List.eq_nil_iff_forall_not_mem.mpr fun m member => ?_
          have addressed := own m (split' ▸ List.mem_append_left _ member)
          cases r with
          | call => simp [spoken] at member
          | event a | ending a =>
            obtain ⟨-, rfl⟩ : a = x ∧ m = (c', f) := by simpa [spoken, eq_comm] using member
            exact here addressed
        simp [entered, here, silent]

end Engine

namespace Server

open Engine (Sole wanting happened happened_append)

variable {s s' : Server} {k : StreamId} {c : ConnectionId} {a : Action} {x : Streaming}
  {todo : List Action} {ts us others : List (List Action)} {log : Steps} {setup : Setup}
  {hub : Hub} {first : Server}

/-! ## The connection of a stream -/

structure Solitary (s : Server) (ts : List (List Action)) : Prop where
  sole : ∀ (c : ConnectionId) (z : Connection), s.engine.connections[c]? = some z →
    z.transport = .eventStream → Sole c s.engine (inner ts.flatten)
  unmade : ∀ c, s.engine.connections[c]? = none →
    wanting c (inner ts.flatten) = [] ∧ ∀ i, ¬ s.engine.Uses c i

theorem conduct_sits {f : Effect} {b : Engine.Action} {id : String} (conduct : Conduct s a f)
    (member : b ∈ inner (f.next ++ f.started.flatten))
    (aim : b.aim? f.server.engine = some (c, id)) :
    ∃ k, s.Sits k c := by
  have inside : (c, id) ∈ aims f.server.engine (f.next :: f.started).flatten :=
    List.mem_filterMap.mpr ⟨b, member, aim⟩
  obtain ⟨task, among, asks⟩ := mem_aims_flatten.mp inside
  obtain ⟨k, -, sits, -⟩ := session_aims conduct among asks
  exact ⟨k, sits⟩

theorem arrival_wants {w : World} (arrival : Arrival s w) :
    (∀ b ∈ inner w.tasks.flatten, b.wants? = none) ∨
      ∃ r, w.state.engine = (s.engine.openConnection .eventStream).2.newCall.2 ∧
        inner w.tasks.flatten =
          [.subscribe s.engine.calls s.engine.connections.length EventStream.clientId r] := by
  cases arrival with
  | quiet _ tasks =>
    refine .inl fun b member => ?_
    obtain ⟨a, among, own⟩ := List.mem_filterMap.mp member
    obtain ⟨task, inside, here⟩ := List.mem_flatten.mp among
    have none : b ∈ inner task := List.mem_filterMap.mpr ⟨a, here, own⟩
    rw [inner_aside (tasks task inside)] at none
    exact absurd none List.not_mem_nil
  | joins _ _ _ _ tasks => exact .inl (by simp [tasks, inner, Action.engine?])
  | requests c r x connection engine tasks =>
    exact .inr ⟨r, engine, by simp [tasks, inner, Action.engine?, connection]⟩
  | calls call ending _ tasks =>
    refine .inl fun b member => ?_
    rw [tasks, List.flatten_singleton, inner_map] at member
    have calm := ending_calm ending _ b member
    cases wants : b.wants? with
    | none => rfl
    | some c => simp [Engine.wants_asks wants] at calm

theorem inner_performed (s : Server) (a : Action) (todo : List Action)
    (others : List (List Action)) :
    (inner ((s.perform a).next ++ (s.perform a).started.flatten) ++ inner
      (todo ++ others.flatten)).Perm
      (inner (((s.perform a).next ++ todo) :: ((s.perform a).started ++ others)).flatten) := by
  have whole :
    ((s.perform a).next ++ (s.perform a).started.flatten ++ (todo ++ others.flatten)).Perm
      (((s.perform a).next ++ todo) :: ((s.perform a).started ++ others)).flatten := by
    simp only [List.flatten_cons, List.flatten_append, List.append_assoc]
    refine List.Perm.append_left _ ?_
    rw [← List.append_assoc, ← List.append_assoc todo]
    exact List.perm_append_comm.append_right _
  rw [← inner_append]
  exact whole.filterMap _

theorem inner_sequel (s : Server) (b : Engine.Action) :
    inner ((s.perform (.engine b)).next ++ (s.perform (.engine b)).started.flatten) =
      (s.engine.perform b).sequel := by
  simp [perform, ofEngine, inner, List.filterMap_append, Action.engine?, Engine.Effect.sequel,
    List.filterMap_flatten, Function.comp_def]

theorem Solitary.outside {i : Input} (solitary : Solitary s ts) :
    Solitary (i.act ⟨s, []⟩).state ((i.act ⟨s, []⟩).tasks ++ ts) := by
  have arrival := input_arrival s i
  have audience := input_audience s i
  have same := arrival_subscribers arrival
  have pending : inner ((i.act ⟨s, []⟩).tasks ++ ts).flatten =
      inner (i.act ⟨s, []⟩).tasks.flatten ++ inner ts.flatten := by
    rw [List.flatten_append, inner_append]
  have earlier {c : ConnectionId} (absent : (i.act ⟨s, []⟩).state.engine.connections[c]? = none) :
      s.engine.connections[c]? = none := by
    cases found : s.engine.connections[c]? with
    | none => rfl
    | some z => simp [audience_line audience found] at absent
  have old {c : ConnectionId} {z z' : Connection} (found : s.engine.connections[c]? = some z)
      (found' : (i.act ⟨s, []⟩).state.engine.connections[c]? = some z') : z' = z :=
    Option.some.inj (found'.symm.trans (audience_line audience found))
  constructor
  · intro c z' found' kind
    rw [pending]
    cases found : s.engine.connections[c]? with
    | some z =>
      obtain rfl := old found found'
      refine (solitary.sole c z' found kind).same same fun b member wants => ?_
      rcases arrival_wants arrival with calm | ⟨r, -, tasks⟩
      · simp [calm b member] at wants
      · obtain rfl : b = _ := by simpa [tasks] using member
        obtain rfl : s.engine.connections.length = c := Option.some.inj wants
        simp at found
    | none =>
      obtain ⟨quiet, nobody⟩ := solitary.unmade c found
      refine Engine.sole_unused (fun i uses => nobody i ((Engine.uses_same same).mp uses)) ?_
      rw [Engine.wanting_append, quiet, List.append_nil]
      rcases arrival_wants arrival with calm | ⟨r, -, tasks⟩
      · rw [Engine.wanting_nil fun b member => by simp [calm b member]]
        exact Nat.zero_le 1
      · rw [tasks]
        exact List.length_filter_le ..
  · intro c absent
    obtain ⟨quiet, nobody⟩ := solitary.unmade c (earlier absent)
    refine ⟨?_, fun i uses => nobody i ((Engine.uses_same same).mp uses)⟩
    rw [pending, Engine.wanting_append, quiet, List.append_nil]
    refine Engine.wanting_nil fun b member wants => ?_
    rcases arrival_wants arrival with calm | ⟨r, engine, tasks⟩
    · simp [calm b member] at wants
    · obtain rfl : b = _ := by simpa [tasks] using member
      obtain rfl : s.engine.connections.length = c := Option.some.inj wants
      have made : (i.act ⟨s, []⟩).state.engine.connections[s.engine.connections.length]? =
          some { transport := .eventStream } := by
        rw [engine]
        exact (openConnection_line ..).trans (if_pos rfl)
      simp [made] at absent

theorem Solitary.inside (solitary : Solitary s ((a :: todo) :: others)) (lined : Lined s)
    (grounded : Engine.Grounded s.engine (inner ((a :: todo) :: others).flatten)) :
    Solitary (s.perform a).server
      (((s.perform a).next ++ todo) :: ((s.perform a).started ++ others)) := by
  have kinds (c : ConnectionId) : (s.perform a).server.engine.connections[c]?.map (·.transport) =
      s.engine.connections[c]?.map (·.transport) := by
    simpa only [List.getElem?_map] using congrArg (·[c]?) (perform_kinds s a)
  have perm := inner_performed s a todo others
  cases session : a.engine? with
  | some b =>
    obtain rfl := eq_engine session
    have pending : inner ((Action.engine b :: todo) :: others).flatten =
        b :: inner (todo ++ others.flatten) := by rw [inner_pending, inner_append]
    rw [pending] at grounded
    rw [inner_sequel] at perm
    constructor
    · intro c z' found' kind
      obtain ⟨z, found, same⟩ :
        ∃ z, s.engine.connections[c]? = some z ∧ z.transport = z'.transport :=
        Option.map_eq_some_iff.mp ((kinds c).symm.trans (by simp [found']))
      have sole := solitary.sole c z found (same.trans kind)
      rw [pending] at sole
      exact (Engine.perform_sole grounded.sound sole).perm perm
    · intro c absent
      have before : s.engine.connections[c]? = none := by
        simpa [absent] using (kinds c).symm
      obtain ⟨quiet, nobody⟩ := solitary.unmade c before
      rw [pending] at quiet
      have other : b.wants? ≠ some c := by
        intro wants
        have asked : b ∈ wanting c (b :: inner (todo ++ others.flatten)) :=
          List.mem_filter.mpr ⟨List.mem_cons_self .., by simp [wants]⟩
        rw [quiet] at asked
        exact List.not_mem_nil asked
      have rest : wanting c (inner (todo ++ others.flatten)) = [] := by
        rwa [wanting, List.filter_cons_of_neg (by simpa using other)] at quiet
      refine ⟨?_, fun i uses => ?_⟩
      · have none :
          wanting c ((s.engine.perform b).sequel ++ inner (todo ++ others.flatten)) = [] := by
          rw [Engine.wanting_append, rest, List.append_nil]
          refine Engine.wanting_nil fun b' member => ?_
          simp [Engine.brings_wants (Engine.perform_brings s.engine b b' member)]
        exact List.nil_perm.mp (none ▸ perm.filter _)
      · exact (Engine.perform_uses grounded.sound uses).elim (nobody i) fun new => other new.2
  | none =>
    have conduct := perform_conduct s a session
    have same := conduct_subscribers conduct
    have pending : inner ((a :: todo) :: others).flatten = inner (todo ++ others.flatten) :=
      inner_session session
    constructor
    · intro c z' found' kind
      obtain ⟨z, found, same'⟩ :
        ∃ z, s.engine.connections[c]? = some z ∧ z.transport = z'.transport :=
        Option.map_eq_some_iff.mp ((kinds c).symm.trans (by simp [found']))
      have sole := solitary.sole c z found (same'.trans kind)
      rw [pending] at sole
      refine (sole.same same fun b member wants => ?_).perm perm
      obtain ⟨id, aim⟩ := Engine.wants_aim wants _
      obtain ⟨k, sits⟩ := conduct_sits conduct member aim
      obtain ⟨z'', found'', socket⟩ := lined.socket k c sits
      obtain rfl := Option.some.inj (found.symm.trans found'')
      simp [same'.trans kind] at socket
    · intro c absent
      have before : s.engine.connections[c]? = none := by
        simpa [absent] using (kinds c).symm
      obtain ⟨quiet, nobody⟩ := solitary.unmade c before
      rw [pending] at quiet
      refine ⟨?_, fun i uses => nobody i ((Engine.uses_same same).mp uses)⟩
      have none : wanting c (inner ((s.perform a).next ++ (s.perform a).started.flatten) ++
          inner (todo ++ others.flatten)) = [] := by
        rw [Engine.wanting_append, quiet, List.append_nil]
        refine Engine.wanting_nil fun b member wants => ?_
        obtain ⟨id, aim⟩ := Engine.wants_aim wants _
        obtain ⟨k, sits⟩ := conduct_sits conduct member aim
        obtain ⟨z, found, -⟩ := lined.socket k c sits
        simp [before] at found
      exact List.nil_perm.mp (none ▸ perm.filter _)

theorem reached_solitary (begun : first.engine = Engine.start setup hub) (nobody : first.peers = [])
    (silent : first.streams = []) (reached : Reached (World.start first) s ts log) :
    Solitary s ts := by
  induction reached with
  | start =>
    constructor
    · simp [World.start, begun, Engine.start]
    · intro c _
      refine ⟨rfl, fun i => ?_⟩
      simp [Engine.Uses, World.start, begun, Engine.start]
  | shuffle perm _ ih =>
    have same := perm.flatten.filterMap Action.engine?
    refine ⟨fun c z found kind => (ih.sole c z found kind).perm same, fun c absent => ?_⟩
    obtain ⟨none, nobody⟩ := ih.unmade c absent
    have kept : (wanting c _).Perm (wanting c _) := same.filter _
    exact ⟨List.nil_perm.mp (none ▸ kept), nobody⟩
  | idle _ ih => exact ⟨ih.sole, ih.unmade⟩
  | outside i _ ih => exact ih.outside
  | inside _ before ih =>
    exact ih.inside (reached_lined nobody silent before) (reached_grounded begun before)

/-! ## What comes last -/

theorem reached_user {f : Frame} {r : Engine.Receipt}
    (begun : first.engine = Engine.start setup hub)
    (reached : Reached (World.start first) s ts log)
    (queued : .queued c f r ∈ happened (innerSteps log)) :
    ∃ i, (r = .event i ∨ r = .ending i) ∧ s.engine.Uses c i := by
  obtain ⟨i, whose⟩ := reached_spoken reached queued
  have said := Engine.mem_spoken queued whose
  obtain ⟨_, -, attended, parting⟩ :=
    reached_always begun (Engine.start_parting setup hub i) reached
  cases found : s.engine.subscribers[i]? with
  | none => simp [(parting.absent found).2.1.spoken] at said
  | some y =>
    have addressed := Engine.spoken_addressed attended parting found _ said
    exact ⟨i, whose, y, found, addressed.1.symm⟩

theorem reached_final {f : Frame} {before after : List Frame}
    (begun : first.engine = Engine.start setup hub) (nobody : first.peers = [])
    (silent : first.streams = []) (reached : Reached (World.start first) s ts log)
    (feeds : s.Feeds k c)
    (split : Engine.entered c (happened (innerSteps log)) = before ++ f :: after)
    (complete : f.isMessage = false) : after = [] := by
  obtain ⟨z, found, kind, -⟩ := (reached_lined nobody silent reached).line k c feeds
  have sole := (reached_solitary begun nobody silent reached).sole c z found kind
  have entered : f ∈ Engine.entered c (happened (innerSteps log)) := split ▸ by simp
  obtain ⟨r, queued⟩ := Engine.mem_entered.mp entered
  obtain ⟨i, -, uses⟩ := reached_user begun reached queued
  obtain ⟨y, present, own⟩ := id uses
  obtain ⟨_, -, attended, parting⟩ :=
    reached_always begun (Engine.start_parting setup hub i) reached
  have addressed := Engine.spoken_addressed attended parting present
  have whole := Engine.entered_spoken (c := c)
    (fun f r queued => by
      obtain ⟨j, whose, other⟩ := reached_user begun reached queued
      rwa [sole.one i j uses other])
    fun m member => (addressed m member).1.trans own
  rw [whole] at split
  obtain ⟨l, l', spoken, -, last⟩ := List.map_eq_append_iff.mp split
  obtain ⟨m, rest, rfl, rfl, rfl⟩ := List.map_eq_cons_iff.mp last
  rw [(parting.present y present).final spoken complete]
  rfl

theorem Streamed.drained {f : Frame} (known : Streamed k s x ts log)
    (begun : first.engine = Engine.start setup hub) (nobody : first.peers = [])
    (silent : first.streams = []) (reached : Reached (World.start first) s ts log)
    (here : s.streams[k]? = some x) (connection : x.connection? = some c)
    (told : f ∈ framesOf (streamed k log)) (complete : f.isMessage = false) :
    s.engine.queueOf c = [] := by
  obtain ⟨before, after, split⟩ := List.append_of_mem told
  have whole := known.queue c connection
  rw [split, List.append_assoc, List.cons_append] at whole
  have nothing :=
    reached_final begun nobody silent reached ⟨x, here, connection⟩ whole.symm complete
  exact (List.append_eq_nil_iff.mp nothing).2

theorem reached_fed {w : World} {z : Connection} (found : w.state.engine.connections[c]? = some z)
    (reached : Reached w s ts log) : (∃ z' : Connection, s.engine.connections[c]? = some z' ∧
      z'.transport = z.transport) ∧ ∀ k, s.Feeds k c → w.state.Feeds k c := by
  induction reached with
  | start => exact ⟨⟨z, found, rfl⟩, fun _ => id⟩
  | shuffle _ _ ih => exact ih
  | idle _ ih => exact ih
  | @outside s _ _ i _ ih =>
    obtain ⟨⟨z', found', kind⟩, fed⟩ := ih
    refine ⟨⟨z', audience_line (input_audience s i) found', kind⟩, fun k feeds => ?_⟩
    rcases audience_feeds (input_audience s i) feeds with old | ⟨-, rfl, -⟩
    · exact fed k old
    · simp at found'
  | @inside s a _ _ _ _ _ ih =>
    obtain ⟨⟨z', found', kind⟩, fed⟩ := ih
    refine ⟨?_, fun k feeds => fed k (perform_feeds feeds)⟩
    have kinds := congrArg (·[c]?) (perform_kinds s a)
    simp only [List.getElem?_map, found', Option.map_some] at kinds
    obtain ⟨z'', found'', same⟩ := Option.map_eq_some_iff.mp kinds
    exact ⟨z'', found'', same.trans kind⟩

/-- A stream that ends by itself has written all that was handed over while its connection was
open. -/
theorem reached_exhausted {w : World} {more : Steps} (begun : first.engine = Engine.start setup hub)
    (nobody : first.peers = []) (silent : first.streams = [])
    (before : Reached (World.start first) w.state w.tasks log)
    (isOpen : w.state.engine.isClosed c = false) (reached : Reached w s ts more) :
    ∀ x, s.streams[k]? = some x → x.connection? = some c → x.wire.isCut = true → x.gone = false →
      Engine.entered c (happened (innerSteps log)) <+: framesOf (streamed k (log ++ more)) := by
  induction reached with
  | start =>
    intro x here connection cut stays
    rw [List.append_nil]
    have known := reached_streamed nobody silent before x here
    have whole := known.queue c connection
    have course := known.course
    generalize chores k w.tasks.flatten = as at course
    cases course with
    | asks call fresh => simp [fresh.uncut] at cut
    | refuses payload fresh => simp [fresh.uncut] at cut
    | serves due uncut => simp [uncut] at cut
    | ended _ why =>
      rcases why with gone | ⟨-, apart | ⟨f, told, complete⟩⟩ | ⟨c', connection', closed⟩
      · simp [stays] at gone
      · simp [connection] at apart
      · rw [known.drained begun nobody silent before here connection told complete,
          List.append_nil] at whole
        rw [whole]
      · obtain rfl := Option.some.inj (connection.symm.trans connection')
        simp [isOpen] at closed
  | shuffle _ _ ih => exact ih
  | idle _ ih => exact ih
  | @outside s _ more i onward ih =>
    intro y there connection cut stays
    have audience := input_audience s i
    cases here : s.streams[k]? with
    | some x =>
      have heard := audience_heard audience here there
      refine ih x here (heard.connection.symm.trans connection) (heard.cut.symm.trans cut) ?_
      exact Bool.eq_false_iff.mpr fun gone => by simp [heard.gone gone] at stays
    | none =>
      cases (audience_newcomer audience here there).2 with
      | refused => cases cut
      | asks => cases cut
  | @inside s a todo others more _ onward ih =>
    intro y there connection cut stays
    have whole := before.trans onward
    obtain ⟨x, here, own⟩ := perform_feeds (s := s) (a := a) ⟨y, there, connection⟩
    have known := reached_streamed nobody silent whole x here
    have grows : framesOf (streamed k (log ++ more)) <+:
        framesOf (streamed k (log ++ (more ++ [(s, a)]))) := by
      rw [← List.append_assoc, streamed_more, framesOf_append]
      exact List.prefix_append ..
    cases already : x.wire.isCut with
    | true =>
      have same := (perform_streams s a).2 k (known.ceased already)
      obtain rfl := Option.some.inj ((same.trans here).symm.trans there)
      exact (ih x here own cut stays).trans grows
    | false =>
      obtain ⟨ceased, rfl, -, last, -⟩ := known.cuts here there already cut
      have empty : s.engine.queueOf c = [] := by
        rcases ceased with gone | ⟨-, complete | apart | ⟨c', connection', waits, -⟩⟩
        · exact absurd (gone.symm.trans stays) Bool.noConfusion
        · obtain ⟨-, apart | ⟨f, told, complete⟩⟩ := last complete
          · simp [own] at apart
          · exact known.drained begun nobody silent whole here own told complete
        · simp [own] at apart
        · obtain rfl := Option.some.inj (own.symm.trans connection')
          exact waits
      have all := known.queue c own
      rw [empty, List.append_nil, innerSteps_append, happened_append, Engine.entered_append] at all
      exact (all ▸ List.prefix_append ..).trans grows

end Server

end SubscriptionGateway
