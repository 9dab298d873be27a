import SubscriptionGateway.Proofs.Engine.LastWords
import SubscriptionGateway.Proofs.Engine.Permits

/-!
For which events the resolver is called. A delivery takes an event out of its inbox while its
subscription is active, waits for a permit and has a task of its own call the resolver. Whether the
subscription is still active is not asked again before the call, so an event that is in hand when
the subscription ends is resolved for nobody. It is one event at most.
-/
namespace SubscriptionGateway

open Broker

namespace Engine

def firstEvent? (e : Engine) (s : SubscriptionId) : Option BrokerEvent :=
  match e.subscribers[s]? with
  | some x =>
    if x.life.stopped || x.termination?.isSome || !x.life.isActive then none else x.inbox.head?
  | none => none

def takes? (s : SubscriptionId) (p : Engine × Action) : Option BrokerEvent :=
  match p.2 with
  | .deliverNext a => if a = s then p.1.firstEvent? s else none
  | _ => none

def calls? (s : SubscriptionId) (p : Engine × Action) : Option BrokerEvent :=
  match p.2 with
  | .runResolver r => (p.1.purpose? r).bind fun t => if t.1 = s then some t.2 else none
  | _ => none

def takings (s : SubscriptionId) (log : Steps) : List BrokerEvent := log.filterMap (takes? s)

def summons (s : SubscriptionId) (log : Steps) : List BrokerEvent := log.filterMap (calls? s)

/-- An event has been taken and the resolver not yet been called: it waits for a permit, or the
task that has one has not had its turn. -/
def Expects (s : SubscriptionId) (e : Engine) (pool : List Action) (event : BrokerEvent) : Prop :=
  Action.resolve s event ∈ pool ∨
    ∃ r, Action.runResolver r ∈ pool ∧ e.purpose? r = some (s, event)

/-- What has been taken is what the resolver has been called with, and what is to be called for. -/
def Summoned (s : SubscriptionId) (e : Engine) (pool : List Action) (log : Steps) : Prop :=
  ∃ owed : Option BrokerEvent, takings s log = summons s log ++ owed.toList ∧
    ∀ event, Expects s e pool event ↔ owed = some event

variable {s : SubscriptionId} {e e' : Engine} {a b : Action} {x : Subscriber}
  {pool rest : List Action} {ts : List (List Action)} {log : Steps} {event : BrokerEvent}

theorem takings_append (log more : Steps) :
    takings s (log ++ more) = takings s log ++ takings s more :=
  List.filterMap_append

theorem summons_append (log more : Steps) :
    summons s (log ++ more) = summons s log ++ summons s more :=
  List.filterMap_append

theorem takings_more (log : Steps) (p : Engine × Action) :
    takings s (log ++ [p]) = takings s log ++ (takes? s p).toList := by
  rw [takings_append]
  simp only [takings, List.filterMap_cons, List.filterMap_nil]
  cases takes? s p <;> rfl

theorem summons_more (log : Steps) (p : Engine × Action) :
    summons s (log ++ [p]) = summons s log ++ (calls? s p).toList := by
  rw [summons_append]
  simp only [summons, List.filterMap_cons, List.filterMap_nil]
  cases calls? s p <;> rfl

/-! ## What comes of an action -/

theorem resolve_brought (member : Action.resolve s event ∈ (e.perform a).sequel) :
    a = .deliverNext s := by
  have brings := perform_brings e a _ member
  cases a <;> simp_all [Action.Brings]

theorem run_brought {r : ResolutionId} (member : Action.runResolver r ∈ (e.perform a).sequel) :
    ∃ s' event', a = .resolve s' event' ∧ r = e.resolutions.length := by
  have brings := perform_brings e a _ member
  cases a with
  | resolve s' event' =>
    refine ⟨s', event', rfl, ?_⟩
    simpa [perform, beginResolution, Effect.sequel] using member
  | _ => simp_all [Action.Brings]

theorem deliverNext_takes (e : Engine) (s : SubscriptionId) (event : BrokerEvent) :
    Action.resolve s event ∈ (e.perform (.deliverNext s)).sequel ↔
      e.firstEvent? s = some event := by
  simp only [perform, deliverNext, firstEvent?]
  cases e.subscribers[s]? with
  | none => simp [Effect.sequel]
  | some x =>
    dsimp only
    cases x.life.stopped with
    | true => simp [Effect.sequel]
    | false =>
      cases x.termination? with
      | some t => simp [Effect.sequel]
      | none =>
        cases x.inbox with
        | nil =>
          simp only [Effect.sequel]
          cases x.fed <;> simp
        | cons first more =>
          simp only [Effect.sequel]
          cases x.life.isActive <;> simp [eq_comm]

/-! ## One step -/

theorem expects_append (p q : List Action) :
    Expects s e (p ++ q) event ↔ Expects s e p event ∨ Expects s e q event := by
  unfold Expects
  simp only [List.mem_append, or_and_right, exists_or]
  exact or_or_or_comm

theorem expects_lasts (permitted : Permitted e (a :: rest)) :
    Expects s (e.perform a).engine rest event ↔ Expects s e rest event := by
  constructor
  · rintro (waits | ⟨r, runs, known⟩)
    · exact .inl waits
    · have works : r ∈ worked (a :: rest) :=
        List.mem_filterMap.mpr ⟨_, List.mem_cons_of_mem a runs, rfl⟩
      obtain ⟨y, found, -⟩ := permitted.attended r works
      have before : e.purpose? r = some (y.subscriber, y.event) := by simp [purpose?, found]
      have same := purpose_lasts a before
      rw [known] at same
      exact .inr ⟨r, runs, before.trans same.symm⟩
  · rintro (waits | ⟨r, runs, known⟩)
    · exact .inl waits
    · exact .inr ⟨r, runs, purpose_lasts a known⟩

/-- While a call of the resolver is to come, the delivery waits for its outcome. -/
theorem run_attended {r : ResolutionId} (permitted : Permitted e pool)
    (runs : Action.runResolver r ∈ pool) (known : e.purpose? r = some (s, event)) :
    Action.deliverOutcome s r ∈ pool := by
  obtain ⟨y, found, -, waits⟩ := permitted.attended r (List.mem_filterMap.mpr ⟨_, runs, rfl⟩)
  obtain ⟨rfl, rfl⟩ : y.subscriber = s ∧ y.event = event := by simpa [purpose?, found] using known
  exact waits

theorem expects_idle {talk : List Happening} {t : Stand} (permitted : Permitted e (a :: rest))
    (story : Story s e (a :: rest) talk x) (stand : a.stand? s = some t)
    (unsettled : ∀ r, t ≠ .outcome r) : ¬ Expects s e rest event := by
  obtain ⟨nowhere, -, -⟩ := story.alone stand
  have absent (b : Action) (member : b ∈ rest) : b.stand? s = none :=
    List.filterMap_eq_nil_iff.mp nowhere b member
  rintro (waits | ⟨r, runs, known⟩)
  · have none := absent _ waits
    simp [Action.stand?] at none
  · rcases List.mem_cons.mp (run_attended permitted (List.mem_cons_of_mem a runs) known) with
      rfl | waits
    · exact unsettled r (by simpa [Action.stand?] using stand.symm)
    · have none := absent _ waits
      simp [Action.stand?] at none

theorem expects_called {talk : List Happening} {r : ResolutionId} {event' : BrokerEvent}
    (permitted : Permitted e (.runResolver r :: rest))
    (story : Story s e (.runResolver r :: rest) talk x) (known : e.purpose? r = some (s, event)) :
    ¬ Expects s e rest event' := by
  have stand (r : ResolutionId) : (Action.deliverOutcome s r).stand? s = some (.outcome r) := by
    simp [Action.stand?]
  have waits := run_attended permitted List.mem_cons_self known
  rintro (waits' | ⟨r', runs, known'⟩)
  · have same := stand_unique story waits (stand r) (List.mem_cons_of_mem _ waits')
      (u := .resolve event') (by simp [Action.stand?])
    cases same
  · have waits' := run_attended permitted (List.mem_cons_of_mem _ runs) known'
    obtain ⟨rfl⟩ := stand_unique story waits (stand r) waits' (stand r')
    have once : (r :: worked rest).Nodup := permitted.once
    exact (List.nodup_cons.mp once).1 (List.mem_filterMap.mpr ⟨_, runs, rfl⟩)

theorem take_summoned {talk : List Happening} (permitted : Permitted e (.deliverNext s :: rest))
    (story : Story s e (.deliverNext s :: rest) talk x)
    (before : Summoned s e (.deliverNext s :: rest) log) :
    Summoned s (e.perform (.deliverNext s)).engine
      ((e.perform (.deliverNext s)).sequel ++ rest) (log ++ [(e, .deliverNext s)]) := by
  have idle (event : BrokerEvent) : ¬ Expects s e rest event :=
    expects_idle permitted story (t := .next) (by simp [Action.stand?]) nofun
  obtain ⟨owed, split, exact_⟩ := before
  have nothing : owed = none := by
    apply Option.eq_none_iff_forall_ne_some.mpr
    intro event same
    rcases (exact_ event).mpr same with waits | ⟨r, runs, known⟩
    · exact idle event (.inl (by simpa using waits))
    · exact idle event (.inr ⟨r, by simpa using runs, known⟩)
  subst nothing
  refine ⟨e.firstEvent? s, ?_, ?_⟩
  · rw [takings_more, summons_more, split]
    simp [takes?, calls?]
  · intro event
    rw [expects_append, expects_lasts permitted, ← deliverNext_takes]
    constructor
    · rintro ((taken | ⟨r, runs, -⟩) | old)
      · exact taken
      · obtain ⟨s', event', differs, -⟩ := run_brought runs
        cases differs
      · exact absurd old (idle event)
    · intro taken
      exact .inl (.inl taken)

theorem begin_summoned {talk : List Happening} {event : BrokerEvent}
    (permitted : Permitted e (.resolve s event :: rest))
    (story : Story s e (.resolve s event :: rest) talk x)
    (before : Summoned s e (.resolve s event :: rest) log) :
    Summoned s (e.perform (.resolve s event)).engine
      ((e.perform (.resolve s event)).sequel ++ rest) (log ++ [(e, .resolve s event)]) := by
  have idle (event' : BrokerEvent) : ¬ Expects s e rest event' :=
    expects_idle permitted story (t := .resolve event) (by simp [Action.stand?]) nofun
  obtain ⟨owed, split, exact_⟩ := before
  have here : owed = some event := (exact_ event).mp (.inl List.mem_cons_self)
  refine ⟨owed, ?_, ?_⟩
  · rw [takings_more, summons_more, split]
    simp [takes?, calls?]
  · intro event'
    rw [here, expects_append, expects_lasts permitted]
    have new : (e.perform (.resolve s event)).engine.purpose? e.resolutions.length =
        some (s, event) := by simp [perform, beginResolution, purpose?]
    have sequel : (e.perform (.resolve s event)).sequel =
        [.deliverOutcome s e.resolutions.length, .runResolver e.resolutions.length] := rfl
    rw [sequel]
    constructor
    · rintro ((waits | ⟨r, runs, known⟩) | old)
      · simp at waits
      · obtain rfl : r = e.resolutions.length := by simpa using runs
        rw [new] at known
        obtain ⟨rfl⟩ := known
        rfl
      · exact absurd old (idle event')
    · rintro ⟨rfl⟩
      exact .inl (.inr ⟨_, by simp, new⟩)

theorem call_summoned {talk : List Happening} {r : ResolutionId}
    (permitted : Permitted e (.runResolver r :: rest))
    (story : Story s e (.runResolver r :: rest) talk x) (known : e.purpose? r = some (s, event))
    (before : Summoned s e (.runResolver r :: rest) log) :
    Summoned s (e.perform (.runResolver r)).engine
      ((e.perform (.runResolver r)).sequel ++ rest) (log ++ [(e, .runResolver r)]) := by
  obtain ⟨owed, split, exact_⟩ := before
  have here : owed = some event := (exact_ event).mp (.inr ⟨r, List.mem_cons_self, known⟩)
  refine ⟨none, ?_, ?_⟩
  · rw [takings_more, summons_more, split, here]
    simp [takes?, calls?, known]
  · intro event'
    rw [expects_append, expects_lasts permitted]
    constructor
    · rintro ((waits | ⟨r', runs, -⟩) | old)
      · cases resolve_brought waits
      · obtain ⟨s', event', differs, -⟩ := run_brought runs
        cases differs
      · exact absurd old (expects_called permitted story known)
    · nofun

theorem other_summoned (permitted : Permitted e (a :: rest)) (takes : a ≠ .deliverNext s)
    (begins : ∀ event, a ≠ .resolve s event)
    (runs : ∀ r event, a = .runResolver r → e.purpose? r ≠ some (s, event))
    (before : Summoned s e (a :: rest) log) :
    Summoned s (e.perform a).engine ((e.perform a).sequel ++ rest) (log ++ [(e, a)]) := by
  obtain ⟨owed, split, exact_⟩ := before
  have untaken : takes? s (e, a) = none := by
    cases a with
    | deliverNext s' =>
      have other : s' ≠ s := fun same => takes (same ▸ rfl)
      simp [takes?, other]
    | _ => rfl
  have uncalled : calls? s (e, a) = none := by
    cases a with
    | runResolver r =>
      cases known : e.purpose? r with
      | none => simp [calls?, known]
      | some t =>
        have other : t.1 ≠ s := by
          rintro rfl
          exact runs r t.2 rfl known
        simp [calls?, known, other]
    | _ => rfl
  refine ⟨owed, ?_, ?_⟩
  · rw [takings_more, summons_more, untaken, uncalled]
    simpa using split
  · intro event
    rw [← exact_ event, expects_append, expects_lasts permitted]
    constructor
    · rintro ((waits | ⟨r, new, known⟩) | waits | ⟨r, old, known⟩)
      · exact absurd (resolve_brought waits) takes
      · obtain ⟨s', event', rfl, rfl⟩ := run_brought new
        have same : (s', event') = (s, event) := by
          simpa [perform, beginResolution, purpose?] using known
        cases same
        exact absurd rfl (begins event)
      · exact .inl (List.mem_cons_of_mem a waits)
      · exact .inr ⟨r, List.mem_cons_of_mem a old, known⟩
    · rintro (waits | ⟨r, old, known⟩)
      · rcases List.mem_cons.mp waits with rfl | waits
        · exact absurd rfl (begins event)
        · exact .inr (.inl waits)
      · rcases List.mem_cons.mp old with rfl | old
        · exact absurd known (runs r event rfl)
        · exact .inr (.inr ⟨r, old, known⟩)

theorem perform_summoned (pending : ts.flatten = a :: rest) (tended : Tended e ts log)
    (permitted : Permitted e (a :: rest)) (before : Summoned s e (a :: rest) log) :
    Summoned s (e.perform a).engine ((e.perform a).sequel ++ rest) (log ++ [(e, a)]) := by
  have story (b : Action) (member : b ∈ a :: rest) (stand : b.stand? s ≠ none) :
      ∃ x, Story s e (a :: rest) (happened log) x := by
    obtain ⟨x, -, story⟩ := tended_present tended pending member stand
    exact ⟨x, story⟩
  by_cases takes : a = .deliverNext s
  · subst takes
    obtain ⟨x, story⟩ := story _ List.mem_cons_self (by simp [Action.stand?])
    exact take_summoned permitted story before
  by_cases begins : ∃ event, a = .resolve s event
  · obtain ⟨event, rfl⟩ := begins
    obtain ⟨x, story⟩ := story _ List.mem_cons_self (by simp [Action.stand?])
    exact begin_summoned permitted story before
  by_cases runs : ∃ r event, a = .runResolver r ∧ e.purpose? r = some (s, event)
  · obtain ⟨r, event, rfl, known⟩ := runs
    have waits := run_attended permitted List.mem_cons_self known
    obtain ⟨x, story⟩ := story _ waits (by simp [Action.stand?])
    exact call_summoned permitted story known before
  · apply other_summoned permitted takes
    · intro event same
      exact begins ⟨event, same⟩
    · intro r event same known
      exact runs ⟨r, event, same, known⟩
    · exact before

/-! ## Every play -/

theorem Summoned.shuffle {pool' : List Action} (perm : pool.Perm pool')
    (before : Summoned s e pool log) : Summoned s e pool' log := by
  obtain ⟨owed, split, exact_⟩ := before
  refine ⟨owed, split, ?_⟩
  intro event
  rw [← exact_ event]
  simp only [Expects, perm.mem_iff]

theorem input_summoned (i : Input) (before : Summoned s e pool log) :
    Summoned s (i.apply e) (i.task e ++ pool) log := by
  obtain ⟨owed, split, exact_⟩ := before
  refine ⟨owed, split, ?_⟩
  intro event
  have none : ¬ Expects s (i.apply e) (i.task e) event := by
    rintro (waits | ⟨r, runs, -⟩)
    · cases task_begins waits
    · cases task_begins runs
  rw [← exact_ event, expects_append, or_iff_right none]
  simp only [Expects, purpose_input]

theorem summoned_upheld (s : SubscriptionId) :
    Upheld (fun e ts log => Tended e ts log ∧ Permitted e ts.flatten)
      fun e ts log => Summoned s e ts.flatten log := by
  apply upheld_pending (P := fun e pool log => Summoned s e pool log)
  · intro e p q log perm before
    exact before.shuffle perm
  · intro e ts log i _ before
    exact input_summoned i before
  · intro e a rest ts log _ pending known before
    obtain ⟨tended, permitted⟩ := known
    exact perform_summoned pending tended (pending ▸ permitted) before

theorem start_summoned (setup : Setup) (hub : Hub) (s : SubscriptionId) :
    Always (World.start setup hub) fun e ts log =>
      (Tended e ts log ∧ Permitted e ts.flatten) ∧ Summoned s e ts.flatten log := by
  apply (start_permitted setup hub).and (summoned_upheld s)
  refine ⟨none, rfl, ?_⟩
  intro event
  constructor
  · rintro (waits | ⟨r, runs, -⟩)
    · cases waits
    · cases runs
  · nofun

/-! ## Whoever is over -/

structure Over (s : SubscriptionId) (e : Engine) (log : Steps) : Prop where
  now : e.books.phase s = some .cancelled
  before : ∀ p ∈ log, p.1.books.phase s = some .cancelled

theorem cancelled_follows {k k' : Books} (follows : Follows k k')
    (past : k.phase s = some .cancelled) : k'.phase s = some .cancelled := by
  have further := follows.phase s
  rw [past] at further
  cases phase : k'.phase s with
  | none => simp [phase, standing] at further
  | some p => cases p <;> simp_all [standing]

theorem over_upheld (s : SubscriptionId) : Upheld Accounted fun e _ log => Over s e log where
  shuffle _ before := before
  idle before := before
  outside i accounted before := by
    have follows := (input_keeps i accounted).2
    exact ⟨cancelled_follows follows before.now, before.before⟩
  inside {e a todo others log} ready accounted before := by
    have sound : e.books.Sound (duties (a :: (todo ++ others.flatten))) := accounted
    have follows := (perform_keeps ready sound).2
    refine ⟨cancelled_follows follows before.now, ?_⟩
    intro p member
    rcases List.mem_append.mp member with old | new
    · exact before.before p old
    · obtain rfl := List.mem_singleton.mp new
      exact before.now

theorem over_inactive (past : e.books.phase s = some .cancelled) : e.isActive s = false := by
  simp only [books] at past
  cases found : e.subscribers[s]? with
  | none => simp [found] at past
  | some x =>
    have phase : x.life.phase = .cancelled := by simpa [found] using past
    simp [isActive, found, Lifecycle.isActive, phase]

theorem firstEvent_active (taken : e.firstEvent? s = some event) : e.isActive s = true := by
  unfold firstEvent? at taken
  cases found : e.subscribers[s]? with
  | none => simp [found] at taken
  | some x =>
    simp only [found] at taken
    split at taken
    · cases taken
    · rename_i goes
      simp only [Bool.or_eq_true, not_or, Bool.not_eq_true', Bool.not_eq_false] at goes
      simp [isActive, found, goes.2]

theorem takings_over (past : Over s e log) : takings s log = [] := by
  apply List.filterMap_eq_nil_iff.mpr
  intro p member
  have inactive := over_inactive (past.before p member)
  unfold takes?
  split
  · split
    · apply Option.eq_none_iff_forall_ne_some.mpr
      intro event taken
      rw [firstEvent_active taken] at inactive
      cases inactive
    · rfl
  · rfl

theorem outcome_dropped {r : ResolutionId} (inactive : e.isActive s = false) :
    ∀ b ∈ (e.perform (.deliverOutcome s r)).sequel, b = .deliverNext s := by
  intro b member
  unfold isActive at inactive
  simp only [perform, deliverOutcome] at member
  split at member
  · rename_i x y found _
    have idle : x.life.isActive = false := by simpa [found] using inactive
    simpa [idle, Effect.sequel] using member
  · simp [Effect.sequel] at member

/-- The resolver is called for events that deliveries take while their subscriptions are active, in
their order and for each once, save one that may still be in hand. When a subscription is over no
more is taken for it; what was in hand then is resolved all the same, nothing else is, and what
comes of it is dropped. -/
theorem calls_after_end (setup : Setup) (hub : Hub) (before later : List Move)
    (s : SubscriptionId) :
    let w := (World.start setup hub).play before
    let log := (World.start setup hub).steps before
    (∀ p ∈ log, takes? s p ≠ none → p.1.isActive s = true) ∧
    ∃ owed : Option BrokerEvent,
      takings s log = summons s log ++ owed.toList ∧
      (∀ event, owed = some event ↔ Expects s w.state w.pending event) ∧
      ∀ x, w.state.subscribers[s]? = some x → x.life.phase = .cancelled →
        takings s (w.steps later) = [] ∧ summons s (w.steps later) <+: owed.toList ∧
        ∀ p ∈ w.steps later, ∀ r, p.2 = .deliverOutcome s r →
          ∀ b ∈ (p.1.perform p.2).sequel, b = .deliverNext s := by
  intro w log
  constructor
  · intro p member taken
    unfold takes? at taken
    split at taken
    · split at taken
      · obtain ⟨event, here⟩ := Option.ne_none_iff_exists'.mp taken
        exact firstEvent_active here
      · exact absurd rfl taken
    · exact absurd rfl taken
  have summoned := (start_summoned setup hub s).throughout
  obtain ⟨owed, split, awaits⟩ := (summoned before).2
  refine ⟨owed, split, fun event => (awaits event).symm, ?_⟩
  intro x present cancelled
  have past : Over s w.state [] := by
    refine ⟨?_, by simp⟩
    simp [books, present, cancelled]
  have accounted : Always w Accounted :=
    accounted_always ((start_accounted setup hub).throughout before)
  have past : Over s (w.play later).state (w.steps later) :=
    ((accounted.and (over_upheld s) past).throughout later).2
  have untaken := takings_over past
  refine ⟨untaken, ?_, ?_⟩
  · obtain ⟨owed', split', -⟩ := (summoned (before ++ later)).2
    rw [World.steps_append, takings_append, summons_append, untaken, List.append_nil, split,
      List.append_assoc] at split'
    exact ⟨owed'.toList, (List.append_cancel_left split').symm⟩
  · intro p member r outcome
    rw [outcome]
    exact outcome_dropped (over_inactive (past.before p member))

def staffLeft : List Move := staffBusy ++ [.input (.call (.unsubscribe 0)), .step 2]

def staffCalled : List Move := [.step 0, .step 0, .step 0, .step 0, .step 0, .step 1]

theorem staff_calls_after_end :
    ∃ x, ((World.start staffSetup staffHub).play staffLeft).state.subscribers[0]? = some x ∧
      x.life.phase = .cancelled ∧
      takings 0 (((World.start staffSetup staffHub).play staffLeft).steps staffCalled) = [] ∧
      (summons 0 (((World.start staffSetup staffHub).play staffLeft).steps staffCalled)).length =
        1 ∧
      ∃ event, Expects 0 ((World.start staffSetup staffHub).play staffLeft).state
        ((World.start staffSetup staffHub).play staffLeft).pending event := by
  have ended : ((World.start staffSetup staffHub).play staffLeft).state.subscribers[0]?.map
      (·.life.phase) = some .cancelled := by decide +kernel
  have called : (summons 0 (((World.start staffSetup staffHub).play staffLeft).steps
      staffCalled)).length = 1 := by decide +kernel
  obtain ⟨-, owed, -, awaits, past⟩ :=
    calls_after_end staffSetup staffHub staffLeft staffCalled 0
  generalize (World.start staffSetup staffHub).play staffLeft = w at *
  obtain ⟨x, present, cancelled⟩ := Option.map_eq_some_iff.mp ended
  obtain ⟨untaken, first, -⟩ := past x present cancelled
  refine ⟨x, present, cancelled, untaken, called, ?_⟩
  cases owed with
  | none =>
    have none : summons 0 (w.steps staffCalled) = [] := List.prefix_nil.mp first
    simp [none] at called
  | some event => exact ⟨event, (awaits event).mp rfl⟩

end Engine

end SubscriptionGateway
