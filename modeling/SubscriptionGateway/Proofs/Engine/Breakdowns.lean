import SubscriptionGateway.Proofs.Engine.Permits

/-!
What a resolution that breaks down costs. The delivery of a subscription does one thing after the
other, each of them what the last one made it do. Its event is answered by one error, and when the
connection takes that the delivery goes on with the next event; the permit is free again.
-/
namespace SubscriptionGateway

open Broker

namespace Engine

def course (s : SubscriptionId) (log : Steps) : Steps := log.filter fun p => (p.2.stand? s).isSome

/-- What a delivery is about to do. -/
def left (s : SubscriptionId) (pool : List Action) : List Action :=
  pool.filter fun a => (a.stand? s).isSome

/-- What a step makes the delivery do next. -/
def brought (s : SubscriptionId) (p : Engine × Action) : List Action :=
  left s (p.1.perform p.2).sequel

inductive Carried (s : SubscriptionId) : List Action → Steps → List Action → Prop
  | still (first : List Action) : Carried s first [] first
  | step {e : Engine} {a : Action} {steps : Steps} {last : List Action} :
    Carried s (brought s (e, a)) steps last → Carried s [a] ((e, a) :: steps) last

variable {s : SubscriptionId} {e e' : Engine} {a b : Action} {x : Subscriber}
  {pool rest first last last' : List Action} {steps more : Steps} {ts : List (List Action)}
  {log : Steps}

theorem Carried.snoc (e : Engine) (a : Action) (carried : Carried s first steps [a]) :
    Carried s first (steps ++ [(e, a)]) (brought s (e, a)) := by
  generalize ends : [a] = last at carried
  induction carried with
  | still first =>
    subst ends
    exact .step (.still _)
  | step _ ih => exact .step (ih ends)

theorem Carried.one (carried : Carried s [a] steps last) :
    (steps = [] ∧ last = [a]) ∨
      ∃ e more, steps = (e, a) :: more ∧ Carried s (brought s (e, a)) more last := by
  cases carried with
  | still => exact .inl ⟨rfl, rfl⟩
  | step rest => exact .inr ⟨_, _, rfl, rest⟩

/-! ## Every play -/

theorem left_append (p q : List Action) : left s (p ++ q) = left s p ++ left s q :=
  List.filter_append ..

theorem left_nil_iff : left s pool = [] ↔ stands s pool = [] := by
  simp only [left, stands, List.filter_eq_nil_iff, List.filterMap_eq_nil_iff,
    Option.isSome_iff_ne_none, not_not]

theorem left_length : (left s pool).length = (stands s pool).length := by
  induction pool with
  | nil => rfl
  | cons a pool ih =>
    cases stand : a.stand? s <;> simp_all [left, stands]

theorem brought_other (other : a.stand? s = none) (member : b ∈ brought s (e, a)) :
    b = .deliverNext s ∧ a.enters? = some s := by
  obtain ⟨inside, stand⟩ := List.mem_filter.mp member
  have brings := perform_brings e a b inside
  cases a with
  | offer c f r | enqueue c f due r =>
    cases r <;> cases b <;> simp_all [Action.Brings, Action.stand?]
  | _ => cases b <;> simp_all [Action.Brings, Action.stand?, Action.enters?]

structure Pursued (s : SubscriptionId) (first : List Action) (e : Engine) (pool : List Action)
    (log : Steps) : Prop where
  entered : 2 ≤ standing (e.books.phase s)
  carried : ∃ last, Carried s first (course s log) last ∧ (left s pool).Perm last

variable {talk : List Happening}

theorem course_more (log : Steps) (p : Engine × Action) :
    course s (log ++ [p]) = course s log ++ if (p.2.stand? s).isSome then [p] else [] := by
  simp only [course, List.filter_append, List.filter_cons, List.filter_nil]

theorem left_few (delivery : Delivery s e pool talk) : (left s pool).length ≤ 1 := by
  rw [left_length]
  cases found : e.subscribers[s]? with
  | none => simp [(delivery.absent found).1.1]
  | some x => exact (delivery.present x found).single

theorem left_entered (delivery : Delivery s e pool talk) (busy : left s pool ≠ []) :
    2 ≤ standing (e.books.phase s) := by
  have stands : stands s pool ≠ [] := fun none => busy (left_nil_iff.mpr none)
  cases present : e.subscribers[s]? with
  | none => exact absurd (delivery.absent present).1.1 stands
  | some x =>
    have phase : e.books.phase s = some x.life.phase := by simp [books, present]
    rw [phase]
    cases life : x.life.phase with
    | pending => exact absurd ((delivery.present x present).begins life).1.1 stands
    | active => exact Nat.le_refl 2
    | cancelled => exact Nat.le_succ 2

theorem own_pursued {t : Stand} (ready : e.ready a = true)
    (delivery : Delivery s e (a :: rest) talk) (stand : a.stand? s = some t)
    (before : Pursued s first e (a :: rest) log) :
    Pursued s first (e.perform a).engine ((e.perform a).sequel ++ rest) (log ++ [(e, a)]) := by
  have own : (a.stand? s).isSome = true := by simp [stand]
  have here : left s (a :: rest) = a :: left s rest := List.filter_cons_of_pos own
  have alone : left s rest = [] := by
    have few := left_few delivery
    rw [here, List.length_cons] at few
    exact List.eq_nil_of_length_eq_zero (by omega)
  obtain ⟨last, carried, waits⟩ := before.carried
  rw [here, alone] at waits
  obtain rfl := List.singleton_perm.mp waits
  have follows := (perform_keeps ready delivery.sound).2
  constructor
  · exact Nat.le_trans before.entered (follows.phase s)
  · refine ⟨brought s (e, a), ?_, ?_⟩
    · rw [course_more, if_pos own]
      exact carried.snoc e a
    · rw [left_append, alone, List.append_nil]
      exact List.Perm.refl _

theorem other_pursued (ready : e.ready a = true) (delivery : Delivery s e (a :: rest) talk)
    (other : a.stand? s = none) (before : Pursued s first e (a :: rest) log) :
    Pursued s first (e.perform a).engine ((e.perform a).sequel ++ rest) (log ++ [(e, a)]) := by
  have own : (a.stand? s).isSome = false := by simp [other]
  have same : left s (a :: rest) = left s rest := List.filter_cons_of_neg (by simp [own])
  have none : left s (e.perform a).sequel = [] := by
    apply List.eq_nil_iff_forall_not_mem.mpr
    intro b member
    have enters := (brought_other other member).2
    have seeks : ∃ k, a.seeks? = some (k, s) := by
      cases a <;> simp_all [Action.enters?, Action.seeks?]
    obtain ⟨k, seeks⟩ := seeks
    obtain ⟨x, present, pending⟩ := seeker_pending delivery.sound seeks
    have entered := before.entered
    simp [books, present, pending, standing] at entered
  obtain ⟨last, carried, waits⟩ := before.carried
  have follows := (perform_keeps ready delivery.sound).2
  constructor
  · exact Nat.le_trans before.entered (follows.phase s)
  · refine ⟨last, ?_, ?_⟩
    · rw [course_more, own, if_neg Bool.false_ne_true, List.append_nil]
      exact carried
    · rw [left_append, none, List.nil_append, ← same]
      exact waits

theorem Pursued.shuffle {pool' : List Action} (perm : pool.Perm pool')
    (before : Pursued s first e pool log) : Pursued s first e pool' log := by
  have same : (left s pool).Perm (left s pool') := perm.filter _
  obtain ⟨last, carried, waits⟩ := before.carried
  exact ⟨before.entered, last, carried, same.symm.trans waits⟩

theorem input_pursued (i : Input) (sound : e.books.Sound (duties pool))
    (before : Pursued s first e pool log) : Pursued s first (i.apply e) (i.task e ++ pool) log := by
  have none : left s (i.task e) = [] := by
    apply List.filter_eq_nil_iff.mpr
    intro a member
    cases task_begins member <;> simp [Action.stand?]
  have follows := (input_keeps i sound).2
  obtain ⟨last, carried, waits⟩ := before.carried
  refine ⟨Nat.le_trans before.entered (follows.phase s), last, carried, ?_⟩
  rw [left_append, none, List.nil_append]
  exact waits

theorem pursued_upheld (s : SubscriptionId) (first : List Action) (past : Steps) :
    Upheld (fun e ts log => Tended e ts (past ++ log))
      fun e ts log => Pursued s first e ts.flatten log := by
  apply upheld_pending (P := fun e pool log => Pursued s first e pool log)
  · intro e p q log perm before
    exact before.shuffle perm
  · intro e ts log i tended before
    exact input_pursued i (tended.delivery rfl s).sound before
  · intro e a rest ts log ready pending tended before
    have delivery := tended.delivery pending s
    cases stand : a.stand? s with
    | some t => exact own_pursued ready delivery stand before
    | none => exact other_pursued ready delivery stand before

theorem tended_later (setup : Setup) (hub : Hub) (before : List Move) :
    Always ((World.start setup hub).play before) fun e ts log =>
      Tended e ts ((World.start setup hub).steps before ++ log) where
  loose perm tended := (start_tended setup hub).loose perm tended
  throughout later := by
    have whole := (start_tended setup hub).throughout (before ++ later)
    rwa [World.play_append, World.steps_append] at whole

theorem later_carried (setup : Setup) (hub : Hub) (before later : List Move)
    (s : SubscriptionId) (busy : left s ((World.start setup hub).play before).pending ≠ []) :
    Carried s (left s ((World.start setup hub).play before).pending)
      (course s (((World.start setup hub).play before).steps later))
      (left s (((World.start setup hub).play before).play later).pending) := by
  have tended := tended_later setup hub before
  generalize (World.start setup hub).steps before = past at tended
  generalize (World.start setup hub).play before = w at tended busy ⊢
  have delivery := ((tended.throughout []).delivery rfl s)
  have first : Pursued s (left s w.pending) w.state w.pending [] :=
    ⟨left_entered delivery busy, _, .still _, List.Perm.refl _⟩
  have always := tended.and (pursued_upheld s (left s w.pending) past) first
  obtain ⟨tended, pursued⟩ := always.throughout later
  obtain ⟨last, carried, waits⟩ := pursued.carried
  -- One thing at most is left, so there is one order of it only.
  obtain rfl := perm_few waits (left_few (tended.delivery rfl s))
  exact carried

/-! ## One event -/

/-- How far the answer to one event has come, and that the delivery has gone on from there. -/
inductive Handover (s : SubscriptionId) (c : ConnectionId) (f : Frame) :
    Steps → List Action → Prop
  | offers : Handover s c f [] [.offer c f (.event s)]
  | waits {e : Engine} {due : Nat} (isOpen : e.isClosed c = false) :
    Handover s c f [(e, .offer c f (.event s))] [.enqueue c f due (.event s)]
  | taken {e e' : Engine} {due : Nat} {steps : Steps} {last : List Action}
    (isOpen : e.isClosed c = false) (takes : e'.takes c = true)
    (goesOn : Carried s [.deliverNext s] steps last) :
    Handover s c f ((e, .offer c f (.event s)) :: (e', .enqueue c f due (.event s)) :: steps) last
  | closed {e : Engine} {steps : Steps} {last : List Action} (closed : e.isClosed c = true)
    (ends : Carried s [.endDelivery s] steps last) :
    Handover s c f ((e, .offer c f (.event s)) :: steps) last
  /-- Nobody reads the queue any more, or it has been full for too long. -/
  | refused {e e' : Engine} {due : Nat} {steps : Steps} {last : List Action}
    (isOpen : e.isClosed c = false) (refuses : e'.takes c = false)
    (ends : Carried s [.endDelivery s] steps last) :
    Handover s c f ((e, .offer c f (.event s)) :: (e', .enqueue c f due (.event s)) :: steps) last

/-- What becomes of an event whose resolution comes to the outcome `o`. -/
inductive Reported (s : SubscriptionId) (x : Subscriber) (r : ResolutionId)
    (o : SubscriptionGateway.Outcome) : Steps → List Action → Prop
  | waits : Reported s x r o [] [.deliverOutcome s r]
  | answered {e : Engine} {steps : Steps} {last : List Action} (active : e.isActive s = true)
    (handed : Handover s x.connection (.ofOutcome x.clientId o) steps last) :
    Reported s x r o ((e, .deliverOutcome s r) :: steps) last
  | dropped {e : Engine} {steps : Steps} {last : List Action} (inactive : e.isActive s = false)
    (goesOn : Carried s [.deliverNext s] steps last) :
    Reported s x r o ((e, .deliverOutcome s r) :: steps) last

theorem brought_receipt (result : Except Fault Unit) (e : Engine) :
    left s (e.receipt result (.event s)).sequel =
      [match result with
        | .ok _ => .deliverNext s
        | .error _ => .endDelivery s] := by
  cases result <;> simp [receipt, Effect.sequel, left, Action.stand?]

/-- An answer is offered once and enters the queue once, or the delivery ends. -/
theorem carried_handover {c : ConnectionId} {f : Frame}
    (carried : Carried s [.offer c f (.event s)] steps last) : Handover s c f steps last := by
  rcases carried.one with ⟨rfl, rfl⟩ | ⟨e, more, rfl, onward⟩
  · exact .offers
  cases closed : e.isClosed c with
  | true =>
    have ends : brought s (e, .offer c f (.event s)) = [.endDelivery s] := by
      simp only [brought, perform, offer, closed, ↓reduceIte]
      exact brought_receipt (.error Trouble.closed) e
    rw [ends] at onward
    exact .closed closed onward
  | false =>
    have waits : brought s (e, .offer c f (.event s)) =
        [.enqueue c f (e.now + e.setup.graceMs) (.event s)] := by
      simp [brought, perform, offer, closed, Effect.sequel, left, Action.stand?]
    rw [waits] at onward
    rcases onward.one with ⟨rfl, rfl⟩ | ⟨e', more, rfl, further⟩
    · exact .waits closed
    have told : brought s (e', .enqueue c f (e.now + e.setup.graceMs) (.event s)) =
        [if e'.takes c then .deliverNext s else .endDelivery s] := by
      simp only [brought, perform]
      cases takes : e'.takes c with
      | true =>
        obtain ⟨e'', same, -⟩ := enqueue_taken (f := f) (r := .event s) takes
        rw [same]
        exact brought_receipt (.ok ()) e''
      | false =>
        obtain ⟨e'', fault, same, -⟩ := enqueue_refused (f := f) (r := .event s) takes
        rw [same]
        exact brought_receipt (.error fault) e''
    rw [told] at further
    cases takes : e'.takes c with
    | true =>
      rw [takes, if_pos rfl] at further
      exact .taken closed takes further
    | false =>
      rw [takes, if_neg Bool.false_ne_true] at further
      exact .refused closed takes further

structure Meant (s : SubscriptionId) (x : Subscriber) (r : ResolutionId) (event : BrokerEvent)
    (setup : Setup) (e : Engine) : Prop where
  present : ∃ x', e.subscribers[s]? = some x' ∧ x.Same x'
  purpose : e.purpose? r = some (s, event)
  setup : e.setup = setup

structure Resolved (s : SubscriptionId) (x : Subscriber) (r : ResolutionId)
    (o : SubscriptionGateway.Outcome) (e : Engine) : Prop where
  present : ∃ x', e.subscribers[s]? = some x' ∧ x.Same x'
  outcome : ∃ y, e.resolutions[r]? = some y ∧ y.outcome? = some o

variable {r : ResolutionId} {event : BrokerEvent} {setup : Setup} {o : SubscriptionGateway.Outcome}

theorem Meant.perform (a : Action) (meant : Meant s x r event setup e) :
    Meant s x r event setup (e.perform a).engine := by
  obtain ⟨x', found, same⟩ := meant.present
  obtain ⟨x'', found', same'⟩ := perform_same e a found
  constructor
  · exact ⟨x'', found', same'.clientId.trans same.clientId, same'.connection.trans same.connection,
      same'.compiled.trans same.compiled⟩
  · exact purpose_lasts a meant.purpose
  · exact (perform_setup e a).1.trans meant.setup

theorem Meant.input (i : Input) (meant : Meant s x r event setup e) :
    Meant s x r event setup (i.apply e) := by
  obtain ⟨subscribers, -, setup⟩ := input_spares e i
  constructor
  · rw [subscribers]
    exact meant.present
  · rw [purpose_input]
    exact meant.purpose
  · exact setup.trans meant.setup

/-- A delivery does not go on before the resolver has come to an end, and finds what it made of the
event. -/
theorem Meant.resolved (meant : Meant s x r event setup e) (faithful : Faithful e pool)
    (ready : e.ready (.deliverOutcome s r) = true) :
    Resolved s x r (answer setup x event) e := by
  obtain ⟨x', found, same⟩ := meant.present
  obtain ⟨y, resolving, whose⟩ := Option.map_eq_some_iff.mp meant.purpose
  obtain ⟨rfl, rfl⟩ : y.subscriber = s ∧ y.event = event := by simpa using whose
  have finished : y.outcome?.isSome = true := by
    simpa [Engine.ready, hasOutcome, resolving] using ready
  obtain ⟨o, outcome⟩ := Option.isSome_iff_exists.mp finished
  obtain ⟨x'', found', is⟩ := faithful.resolved r y o resolving outcome
  obtain rfl : x' = x'' := by simpa [found] using found'
  have known : o = answer setup x y.event := by
    rw [is, answer, answer, meant.setup, same.compiled]
  exact ⟨⟨x', found, same⟩, y, resolving, known ▸ outcome⟩

theorem meant_upheld (s : SubscriptionId) (x : Subscriber) (r : ResolutionId)
    (event : BrokerEvent) (setup : Setup) (past : Steps) :
    Upheld (fun e ts log => Tended e ts (past ++ log)) fun e _ log => Meant s x r event setup e ∧
      ∀ p ∈ log, p.2 = .deliverOutcome s r → Resolved s x r (answer setup x event) p.1 where
  shuffle _ before := before
  idle before := before
  outside i _ before := ⟨before.1.input i, before.2⟩
  inside {e a todo others log} ready tended before := by
    refine ⟨before.1.perform a, ?_⟩
    intro p member goes
    rcases List.mem_append.mp member with old | new
    · exact before.2 p old goes
    · obtain rfl := List.mem_singleton.mp new
      obtain rfl : a = .deliverOutcome s r := goes
      exact before.1.resolved (tended.delivery rfl s).faithful ready

theorem carried_reported (carried : Carried s [.deliverOutcome s r] steps last)
    (resolved : ∀ p ∈ steps, p.2 = .deliverOutcome s r → Resolved s x r o p.1) :
    Reported s x r o steps last := by
  rcases carried.one with ⟨rfl, rfl⟩ | ⟨e, more, rfl, onward⟩
  · exact .waits
  obtain ⟨⟨x', found, same⟩, y, resolving, outcome⟩ := resolved _ List.mem_cons_self rfl
  have active : e.isActive s = x'.life.isActive := by simp [isActive, found]
  cases going : x'.life.isActive with
  | true =>
    have offers : brought s (e, .deliverOutcome s r) =
        [.offer x.connection (.ofOutcome x.clientId o) (.event s)] := by
      simp [brought, perform, deliverOutcome, found, resolving, going, outcome, Effect.sequel, left,
        Action.stand?, same.connection, same.clientId]
    rw [offers] at onward
    exact .answered (active.trans going) (carried_handover onward)
  | false =>
    have drops : brought s (e, .deliverOutcome s r) = [.deliverNext s] := by
      simp [brought, perform, deliverOutcome, found, resolving, going, Effect.sequel, left,
        Action.stand?]
    rw [drops] at onward
    exact .dropped (active.trans going) onward

/-- At every moment the resolver is called for no more resolutions than there are permits, a permit
is either free or held for one resolution, and all are free when nothing is being resolved. When a
resolution breaks down whose subscription is active still, its connection is offered one error for
that event; if it takes that, the delivery goes on with the next event, and if it does not the
delivery ends. -/
theorem breakdowns_contained (setup : Setup) (hub : Hub) (before later : List Move) :
    let w := (World.start setup hub).play before
    (calling w.pending).length ≤ max setup.concurrency 1 ∧
    w.state.permits + (worked w.pending).length = max setup.concurrency 1 ∧
    ((∀ a ∈ w.pending, a.worksAt? = none ∧ a.waitsForPermit = false) →
      w.state.permits = max setup.concurrency 1) ∧
    (∀ r, r ∉ worked w.pending → w.state.hasOutcome r = true) ∧
    ∀ s r event x, .deliverOutcome s r ∈ w.pending → w.state.purpose? r = some (s, event) →
      w.state.subscribers[s]? = some x →
      (setup.resolve x.compiled event.payload).outcome? = none →
      Reported s x r (.errors [.concealed]) (course s (w.steps later))
        (left s (w.play later).pending) := by
  intro w
  obtain ⟨tended, permitted⟩ := (start_permitted setup hub).throughout before
  have kept : w.state.setup = setup := play_setup (World.start setup hub) before
  have balance : w.state.permits + (worked w.pending).length = max setup.concurrency 1 :=
    kept ▸ permitted.balance
  have calls := calling_le w.pending
  refine ⟨by omega, balance, ?_, ?_, ?_⟩
  · intro idle
    have none : worked w.pending = [] :=
      List.filterMap_eq_nil_iff.mpr fun a member => (idle a member).1
    simpa [none] using balance
  · intro r free
    cases found : w.state.resolutions[r]? with
    | none => simp [hasOutcome, found]
    | some y =>
      have settled := permitted.settled r y found free
      simpa [hasOutcome, found] using settled
  · intro s r event x waits purpose present breaks
    have delivery : Delivery s w.state w.pending _ := tended.delivery rfl s
    have inside : Action.deliverOutcome s r ∈ left s w.pending :=
      List.mem_filter.mpr ⟨waits, by simp [Action.stand?]⟩
    have only : left s w.pending = [.deliverOutcome s r] := by
      obtain ⟨a, whole⟩ := List.length_eq_one_iff.mp
        (Nat.le_antisymm (left_few delivery) (List.length_pos_of_mem inside))
      rw [whole] at inside
      rw [whole, List.mem_singleton.mp inside]
    have carried := later_carried setup hub before later s (only ▸ List.cons_ne_nil _ _)
    rw [only] at carried
    have meant : Meant s x r event setup w.state := ⟨⟨x, present, rfl, rfl, rfl⟩, purpose, kept⟩
    have always := (tended_later setup hub before).and
      (meant_upheld s x r event setup ((World.start setup hub).steps before)) ⟨meant, by simp⟩
    have resolved := ((always.throughout later).2).2
    have outcome : answer setup x event = .errors [.concealed] := by simp [answer, breaks]
    rw [outcome] at resolved
    apply carried_reported carried
    intro p member goes
    exact resolved p (List.mem_of_mem_filter member) goes

def frailSetup : Setup := { staffSetup with resolve := fun _ _ => ⟨0, none, none⟩ }

def frailCall : List Move :=
  staffMoves ++ [.input (.call (.dispatch staffEvent)), .step 2, .step 0, .step 1, .step 1]

def frailAnswer : List Move := [.step 2, .step 0, .step 1, .step 0, .step 1]

def frailRefusal : List Move := [.input (.close 0), .step 2, .step 0, .step 1, .step 0]

def Action.awaits (s : SubscriptionId) (r : ResolutionId) : Action → Bool
  | .deliverOutcome s' r' => s' == s && r' == r
  | _ => false

theorem awaits_pending {pool : List Action} {s : SubscriptionId} {r : ResolutionId}
    (waits : pool.any (Action.awaits s r) = true) : .deliverOutcome s r ∈ pool := by
  obtain ⟨a, member, here⟩ := List.any_eq_true.mp waits
  cases a with
  | deliverOutcome s' r' =>
    obtain ⟨rfl, rfl⟩ : s' = s ∧ r' = r := by simpa [Action.awaits] using here
    exact member
  | _ => cases here

theorem frail_resolution : ∃ event x,
    .deliverOutcome 0 0 ∈ ((World.start frailSetup staffHub).play frailCall).pending ∧
    ((World.start frailSetup staffHub).play frailCall).state.purpose? 0 = some (0, event) ∧
    ((World.start frailSetup staffHub).play frailCall).state.subscribers[0]? = some x := by
  have waits : ((World.start frailSetup staffHub).play frailCall).pending.any
      (Action.awaits 0 0) = true := by decide +kernel
  have begun : (((World.start frailSetup staffHub).play frailCall).state.purpose? 0).map (·.1) =
      some 0 := by decide +kernel
  have present : ((World.start frailSetup staffHub).play frailCall).state.subscribers[0]?.isSome =
      true := by decide +kernel
  obtain ⟨⟨s, event⟩, purpose, rfl⟩ := Option.map_eq_some_iff.mp begun
  obtain ⟨x, present⟩ := Option.isSome_iff_exists.mp present
  exact ⟨event, x, awaits_pending waits, purpose, present⟩

theorem frail_breakdown_contained : ∃ x : Subscriber,
    Reported 0 x 0 (.errors [.concealed])
      (course 0 (((World.start frailSetup staffHub).play frailCall).steps frailAnswer))
      (left 0 (((World.start frailSetup staffHub).play frailCall).play frailAnswer).pending) ∧
    (messages 0 (((World.start frailSetup staffHub).play frailCall).record happenings
      frailAnswer)).length = 1 ∧
    (((World.start frailSetup staffHub).play frailCall).play frailAnswer).state.permits = 4 := by
  obtain ⟨event, x, waits, purpose, present⟩ := frail_resolution
  have contained := breakdowns_contained frailSetup staffHub frailCall frailAnswer
  refine ⟨x, contained.2.2.2.2 0 0 event x waits purpose present rfl, ?_, ?_⟩
  · decide +kernel
  · decide +kernel

/-- A connection that is closed takes no error, and the delivery of its subscription ends although
the subscription is active still. -/
theorem closed_breakdown_unanswered : ¬ ∀ (setup : Setup) (hub : Hub) (before later : List Move)
    (s : SubscriptionId) (r : ResolutionId) (event : BrokerEvent) (x : Subscriber),
    .deliverOutcome s r ∈ ((World.start setup hub).play before).pending →
    ((World.start setup hub).play before).state.purpose? r = some (s, event) →
    ((World.start setup hub).play before).state.subscribers[s]? = some x →
    (setup.resolve x.compiled event.payload).outcome? = none →
    (((World.start setup hub).play before).play later).state.isActive s = true →
    messages s (((World.start setup hub).play before).record happenings later) ≠ [] ∨
      ∃ a ∈ (((World.start setup hub).play before).play later).pending,
        a.engages? = some s := by
  intro answered
  obtain ⟨event, x, waits, purpose, present⟩ := frail_resolution
  have active : (((World.start frailSetup staffHub).play frailCall).play
      frailRefusal).state.isActive 0 = true := by decide +kernel
  have silent : (messages 0 (((World.start frailSetup staffHub).play frailCall).record happenings
      frailRefusal)).isEmpty = true := by decide +kernel
  have done : (((World.start frailSetup staffHub).play frailCall).play frailRefusal).pending.any
      (fun a => a.engages? == some 0) = false := by decide +kernel
  rcases answered frailSetup staffHub frailCall frailRefusal 0 0 event x waits purpose present rfl
    active with told | ⟨a, member, engages⟩
  · exact told (List.isEmpty_iff.mp silent)
  · have idle := List.any_eq_false.mp done a member
    simp [engages] at idle

end Engine

end SubscriptionGateway
