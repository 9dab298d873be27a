import SubscriptionGateway.Proofs.Broker.Hearing
import SubscriptionGateway.Proofs.Broker.Laps

/-!
The retries of a consumer over a whole play. The laps of all its calls are charged to one budget.
From that follows how often a call can rest, when it fails, and that it ends unless it waits for
news; a consumer that is closed has ended for good, and one that has failed on the message server
fails until it is closed.
-/
namespace SubscriptionGateway.Broker

namespace Hub

variable {h h' h₁ : Hub} {c : ConsumerId} {k : Consumer} {most n : Nat}

/-! ## The laps of a play -/

def Operation.concerns (c : ConsumerId) : Operation → Bool
  | .next c' _ _ | .closeConsumer c' | .dropConsumer c' => c' == c
  | _ => false

theorem Operation.about (op : Operation) (c : ConsumerId) :
    op.concerns c = false ∨ op.closes = some c ∨ ∃ now a, op = .next c now a := by
  cases op with
  | next c' now a =>
    by_cases mine : c' = c
    · exact .inr (.inr ⟨now, a, by rw [mine]⟩)
    · exact .inl (by simp [concerns, mine])
  | closeConsumer c' =>
    by_cases mine : c' = c
    · exact .inr (.inl (by rw [mine, closes]))
    · exact .inl (by simp [concerns, mine])
  | dropConsumer c' =>
    by_cases mine : c' = c
    · exact .inr (.inl (by rw [mine, closes]))
    · exact .inl (by simp [concerns, mine])
  | _ => exact .inl rfl

def lapsOf (h : Hub) (c : ConsumerId) : Operation → List (Hub × Lap)
  | .next c' now a => if c' = c then h.pollLaps now c a else []
  | _ => []

/-- The laps of all calls for one consumer's next event, in their order, each with the brokers as it
finds them. -/
def laps (h : Hub) (c : ConsumerId) : List Operation → List (Hub × Lap)
  | [] => []
  | op :: ops => h.lapsOf c op ++ (h.perform op).1.laps c ops

theorem laps_append (h : Hub) (c : ConsumerId) (ops ops' : List Operation) :
    h.laps c (ops ++ ops') = h.laps c ops ++ (h.after ops).laps c ops' := by
  induction ops generalizing h with
  | nil => rfl
  | cons op ops ih => simp [laps, ih]

theorem lapsOf_apart {op : Operation} (apart : op.concerns c = false) : h.lapsOf c op = [] := by
  cases op with
  | next c' now a =>
    have other : c' ≠ c := by simpa [Operation.concerns] using apart
    simp [lapsOf, other]
  | _ => rfl

theorem lapsOf_closes {op : Operation} {c' : ConsumerId} (closes : op.closes = some c') :
    h.lapsOf c op = [] := by
  cases op <;> first | rfl | cases closes

theorem perform_apart (sound : h.Sound) (known : h.consumers[c]? = some k) {op : Operation}
    (apart : op.concerns c = false) :
    ∃ gone f, Touch gone f ∧ (h.perform op).1.consumers[c]? = some (k.map f) := by
  have step := performed sound op
  have still : ∀ {h' : Hub}, h'.consumers[c]? = h.consumers[c]? →
      ∃ gone f, Touch gone f ∧ h'.consumers[c]? = some (k.map f) := fun same =>
    ⟨_, id, .id, by rw [same, known, Consumer.map_id]⟩
  generalize h.perform op = r at step
  cases step with
  | produced memory deed => exact ⟨_, _, deed.touch, by simp [deed.consumer, known]⟩
  | quiet deed => exact ⟨_, _, deed.touch, by simp [deed.consumer, known]⟩
  | ended one there deletes deed => exact ⟨_, _, deed.touch, by simp [deed.consumer, known]⟩
  | cut deed => exact ⟨_, _, deed.touch, by simp [deed.consumer, known]⟩
  | opened opening =>
    refine still (opening.only.others c ?_)
    rintro rfl
    simp at known
  | closed closes closing =>
    refine still (closing.aside.others c ?_)
    rintro rfl
    cases op <;> simp_all [Operation.closes, Operation.concerns]
  | next =>
    rename_i c' now a
    have other : c' ≠ c := by simpa [Operation.concerns] using apart
    exact still ((poll_sound sound now c' a).2.others c (Ne.symm other))

theorem perform_closes (known : h.consumers[c]? = some k) (op : Operation)
    (closes : op.closes = some c) :
    ∃ line, (h.perform op).1.consumers[c]? = some { k with line := line, closed := true } := by
  have dropped :
    (h.dropConsumer c).consumers[c]? = some { k with line := none, closed := true } := by
    have set := setConsumer_self (h := h.release k) known { k with line := none, closed := true }
    simpa [dropConsumer, known] using set
  cases op with
  | dropConsumer c' =>
    cases closes
    exact ⟨none, dropped⟩
  | closeConsumer c' =>
    cases closes
    rcases closeConsumer_eq h c with ⟨same, closed⟩ | ⟨provider, f, -, same⟩
    · refine ⟨k.line, ?_⟩
      have already := closed k known
      simp only [perform, same, known]
      rw [← already]
    · refine ⟨none, ?_⟩
      simpa only [perform, same, updateMemory_consumers] using dropped
  | _ => cases closes

theorem perform_charged (paced : Paced most n c h) (op : Operation) :
    AllFair most c n (h.lapsOf c op) ∧
      Paced most (spent n (h.lapsOf c op)) c (h.perform op).1 := by
  obtain ⟨k, known, policy, attempts⟩ := paced.counted
  have sound := perform_sound paced.sound op
  rcases op.about c with apart | closes | ⟨now, a, rfl⟩
  · obtain ⟨gone, f, -, known'⟩ := perform_apart paced.sound known apart
    rw [lapsOf_apart apart]
    exact ⟨trivial, sound, paced.within, _, known', policy, attempts⟩
  · obtain ⟨line, known'⟩ := perform_closes known _ closes
    rw [lapsOf_closes closes]
    exact ⟨trivial, sound, paced.within, _, known', policy, attempts⟩
  · simp only [lapsOf, if_true, perform]
    by_cases due : Due a now
    · have charged := poll_charged paced now a due
      exact ⟨charged.fair, charged.paced⟩
    · obtain ⟨settles, none⟩ := poll_early (h := h) (c := c) due
      rw [settles, none]
      exact ⟨trivial, paced⟩

theorem after_charged (paced : Paced most n c h) (ops : List Operation) :
    AllFair most c n (h.laps c ops) ∧ Paced most (spent n (h.laps c ops)) c (h.after ops) := by
  induction ops generalizing h n with
  | nil => exact ⟨trivial, paced⟩
  | cons op ops ih =>
    obtain ⟨first, paced₁⟩ := perform_charged paced op
    obtain ⟨rest, paced'⟩ := ih paced₁
    rw [laps, allFair_append, spent_append]
    exact ⟨⟨first, rest⟩, paced'⟩

/-! ## One call -/

/-- A call that was begun and has not settled: it is gone on with time and again, whatever happens
to the brokers meanwhile, and nothing else is asked of its consumer. -/
inductive Call (c : ConsumerId) (h : Hub) : List Operation → Awaiting → Prop
  | begun : Call c h [] .news
  | meanwhile {ops : List Operation} {a : Awaiting} {op : Operation} (call : Call c h ops a)
      (apart : op.concerns c = false) : Call c h (ops ++ [op]) a
  | goes {ops : List Operation} {a a' : Awaiting} {now : Nat} (call : Call c h ops a)
      (pending : ((h.after ops).poll now c a).1 = .pending a') :
      Call c h (ops ++ [.next c now a]) a'

theorem laps_snoc (h : Hub) (c : ConsumerId) (ops : List Operation) (op : Operation) :
    h.laps c (ops ++ [op]) = h.laps c ops ++ (h.after ops).lapsOf c op := by
  rw [laps_append, laps, laps, List.append_nil]

/-- As long as a call has not settled, all its rests are charged to one budget. -/
theorem Call.spent {ops : List Operation} {a : Awaiting} (call : Call c h ops a)
    (paced : Paced most n c h) : spent n (h.laps c ops) = n + rests (h.laps c ops) := by
  induction call with
  | begun => rfl
  | meanwhile call apart ih =>
    rw [laps_snoc, lapsOf_apart apart, List.append_nil]
    exact ih
  | @goes ops a a' now call pending ih =>
    have before := (after_charged paced ops).2
    have own : (h.after ops).lapsOf c (.next c now a) = (h.after ops).pollLaps now c a := by
      simp [lapsOf]
    rw [laps_snoc, own, spent_append, rests_append]
    by_cases due : Due a now
    · have later := (poll_charged before now a due).pending a' pending
      omega
    · rw [(poll_early due).2]
      exact ih

def Comes (provider : String) (key : SourceKey) (c : ConsumerId) (laps : List (Hub × Lap))
    (r : Polled × Hub) : Prop :=
  (∃ e, r.1 = .event e) ∨ r.1 = .ended ∨ (∃ e, r.1 = .failed e) ∨
  (r.1 = .pending .news ∧ r.2.WaitsForNews c provider key ∧ ∃ t ∈ key.topics, r.2.Covers c t) ∨
  (∃ t, r.1 = .pending (.retry t)) ∧ 0 < rests laps

theorem poll_comes {provider : String} {key : SourceKey} (paced : Paced most n c h)
    (keyed : h.Keyed c provider key) {now : Nat} {a : Awaiting} (due : Due a now) :
    Comes provider key c (h.pollLaps now c a) (h.poll now c a) := by
  have charged := poll_charged paced now a due
  cases settles : h.poll now c a with
  | mk p h' =>
    rw [settles] at charged
    cases p with
    | event e => exact .inl ⟨e, rfl⟩
    | ended => exact .inr (.inl rfl)
    | failed e => exact .inr (.inr (.inl ⟨e, rfl⟩))
    | pending a' =>
      cases a' with
      | news =>
        obtain ⟨sound', waits, -⟩ := poll_waits paced.sound keyed settles
        exact .inr (.inr (.inr (.inl ⟨rfl, waits, waits.covers sound'⟩)))
      | retry t => exact .inr (.inr (.inr (.inr ⟨⟨t, rfl⟩, charged.retry t rfl⟩)))

/-! ## Closed and broken consumers -/

theorem poll_closed (known : h.consumers[c]? = some k) (closed : k.closed = true) {now : Nat}
    {a : Awaiting} (due : Due a now) : h.poll now c a = (.ended, h) := by
  have still : h.renew c = h := by simp [renew, known, closed]
  have same : h.resumed c a = h := by cases a <;> simp [resumed, still]
  rw [(poll_due due).1, same]
  simp [pollBudget, known, pollFuel, closed]

theorem perform_closed (sound : h.Sound) (closed : ∃ k, h.consumers[c]? = some k ∧ k.closed = true)
    (op : Operation) : ∃ k, (h.perform op).1.consumers[c]? = some k ∧ k.closed = true := by
  obtain ⟨k, known, closed⟩ := closed
  rcases op.about c with apart | closes | ⟨now, a, rfl⟩
  · obtain ⟨gone, f, -, known'⟩ := perform_apart sound known apart
    exact ⟨_, known', closed⟩
  · obtain ⟨line, known'⟩ := perform_closes known _ closes
    exact ⟨_, known', rfl⟩
  · refine ⟨k, ?_, closed⟩
    by_cases due : Due a now
    · simpa only [perform, poll_closed known closed due] using known
    · simpa only [perform, (poll_early due).1] using known

theorem Broken.poll {e : BrokerError} (broken : h.Broken c e) (now : Nat) :
    h.poll now c .news = (.failed e, h) := by
  obtain ⟨k, known, opened, server, line, nothing, rfl⟩ := broken
  have lost : h.listen c k = (.lost, h) := by simp [listen, server, line]
  simp [Hub.poll, pollBudget, known, pollFuel, opened, lost, nothing, exhausted, server]

/-- A consumer stays broken whatever happens to the brokers, until it is closed. -/
theorem perform_broken {e : BrokerError} (sound : h.Sound) (broken : h.Broken c e) {op : Operation}
    (opened : op.closes ≠ some c) (new : ∀ now a, op = .next c now a → a = .news) :
    (h.perform op).1.Broken c e := by
  rcases op.about c with apart | closes | ⟨now, a, rfl⟩
  · obtain ⟨k, known, notClosed, server, line, nothing, rfl⟩ := broken
    obtain ⟨gone, f, -, known'⟩ := perform_apart sound known apart
    have home := perform_home sound op k.provider
    refine ⟨_, known', notClosed, ?_, by simp [Consumer.map, line], nothing, rfl⟩
    have away : (h.perform op).1.home k.provider = none := home.trans (home_of_server server)
    simpa [Hub.home, Consumer.map] using away
  · exact absurd closes opened
  · cases new now a rfl
    simpa only [perform, broken.poll] using broken

/-! ## A consumer and its policy -/

theorem retry_of_providers (same : h'.providers = h.providers) (id' : String) :
    (h'.provider? id').map (·.retry) = (h.provider? id').map (·.retry) := by
  unfold provider?
  rw [same]

theorem retry_setMemory (h : Hub) (id : String) (b : MemoryBroker) (id' : String) :
    ((h.setMemory id b).provider? id').map (·.retry) = (h.provider? id').map (·.retry) := by
  rw [provider?_setMemory, Option.map_map]
  congr 1
  funext p
  by_cases mine : p.id = id <;> simp [mine]

theorem retry_updateMemory (h : Hub) (id : String) (f : MemoryBroker → MemoryBroker)
    (id' : String) :
    ((h.updateMemory id f).provider? id').map (·.retry) = (h.provider? id').map (·.retry) := by
  unfold updateMemory
  split
  · exact retry_setMemory h id _ id'
  · rfl

theorem retry_topicChannel (h : Hub) (id : String) (b : MemoryBroker) (topic id' : String) :
    ((h.topicChannel id b topic).2.provider? id').map (·.retry) =
      (h.provider? id').map (·.retry) := by
  unfold topicChannel
  split
  · rfl
  · exact retry_setMemory h id _ id'

theorem retry_topicChannels (id : String) (topics : List String) (h : Hub) (id' : String) :
    ((topicChannels id topics h).2.provider? id').map (·.retry) =
      (h.provider? id').map (·.retry) := by
  induction topics generalizing h with
  | nil => rfl
  | cons t ts ih =>
    unfold topicChannels
    cases h.memory? id with
    | none => rfl
    | some b => exact (ih _).trans (retry_topicChannel h id b t id')

theorem retry_openConsumer (h : Hub) (p : Provider) (key : SourceKey) (id' : String) :
    ((h.openConsumer p key).2.provider? id').map (·.retry) = (h.provider? id').map (·.retry) := by
  unfold openConsumer
  cases p.kind with
  | memory b =>
    dsimp only
    split
    · rfl
    · exact (retry_updateMemory _ _ _ _).trans (retry_topicChannels _ _ _ _)
  | nats =>
    have same : (h.subscribeAll key).2.providers = h.providers := rfl
    dsimp only
    generalize h.subscribeAll key = r at same
    obtain ⟨_ | _, h₁⟩ := r <;> exact retry_of_providers same id'

theorem poll_providers (h : Hub) (now : Nat) (c : ConsumerId) (a : Awaiting) :
    (h.poll now c a).2.providers = h.providers :=
  poll_view Hub.providers (fun _ _ => rfl) (fun _ _ => rfl) h now a

theorem retry_closeConsumer (h : Hub) (c : ConsumerId) (id' : String) :
    ((h.closeConsumer c).provider? id').map (·.retry) = (h.provider? id').map (·.retry) := by
  unfold closeConsumer
  split
  · rfl
  split
  · rfl
  · exact retry_updateMemory _ _ _ _

theorem retry_produce (h : Hub) (p : Provider) (topic : String) (payload : List UInt8)
    (id' : String) :
    ((h.produce p topic payload).2.provider? id').map (·.retry) = (h.provider? id').map
      (·.retry) := by
  unfold produce
  cases p.kind with
  | memory b =>
    dsimp only
    split
    · rfl
    · exact (retry_updateMemory _ _ _ _).trans (retry_topicChannel h p.id b topic id')
  | nats =>
    dsimp only
    split
    · rfl
    · rename_i s _
      have sent := foldl_view Hub.providers (fun h c => h.send none c ⟨topic, payload⟩)
        (fun _ _ => rfl) (s.audience topic) { h with server := s }
      split <;> exact retry_of_providers sent id'

theorem retry_perform (h : Hub) (op : Operation) (id' : String) :
    ((h.perform op).1.provider? id').map (·.retry) = (h.provider? id').map (·.retry) := by
  cases op with
  | produce id topic payload =>
    simp only [perform]
    split
    · exact retry_produce h _ topic payload id'
    · rfl
  | createTopic id topic replication =>
    simp only [perform, createTopic]
    split
    · split
      · split
        · rfl
        · exact retry_topicChannel h _ _ topic id'
      · rfl
    · rfl
  | deleteTopic id topic =>
    simp only [perform, deleteTopic]
    split
    · split
      · split
        · rfl
        split
        · rfl
        · exact retry_setMemory h _ _ id'
      · rfl
    · rfl
  | setAvailable id up => exact retry_updateMemory h id _ id'
  | openConsumer id key proper =>
    simp only [perform]
    split
    · exact retry_openConsumer h _ key id'
    · rfl
  | closeConsumer c => exact retry_closeConsumer h c id'
  | dropConsumer c =>
    simp only [perform, dropConsumer]
    split <;> rfl
  | next c now a => exact retry_of_providers (poll_providers h now c a) id'
  | publish topic payload =>
    refine retry_of_providers ?_ id'
    simp only [perform, publish]
    exact foldl_view Hub.providers (fun h c => h.send none c ⟨topic, payload⟩) (fun _ _ => rfl) _ h
  | endSubscription s =>
    simp only [perform, endSubscription]
    split <;> rfl
  | cut =>
    refine retry_of_providers ?_ id'
    simp only [perform, cut]
    exact foldl_view Hub.providers endChannel (fun _ _ => rfl) _ _
  | limit call n => rfl

theorem openConsumer_backoff {p : Provider} {key : SourceKey}
    (done : h.openConsumer p key = (.ok c, h')) :
    ∃ k, h'.consumers[c]? = some k ∧ k.backoff = ⟨p.retry, 0⟩ := by
  unfold openConsumer at done
  cases kind : p.kind with
  | memory b =>
    simp only [kind] at done
    split at done
    · cases done
    · cases done
      simp [addConsumer]
  | nats =>
    simp only [kind] at done
    cases subscribed : h.subscribeAll key with
    | mk r h₁ =>
      rw [subscribed] at done
      cases r with
      | error e => cases done
      | ok channels =>
        cases done
        simp [addConsumer]

theorem Opened.backoff {provider : String} {key : SourceKey} (opened : h.Opened c provider key)
    {p : Provider} (known : h.provider? provider = some p) :
    ∃ k, h.consumers[c]? = some k ∧ k.backoff = ⟨p.retry, 0⟩ := by
  obtain ⟨server, settings, h₀, before, proper, -, -, done⟩ := opened
  cases there : (h₀.after before).provider? provider with
  | none => simp [perform, there] at done
  | some q =>
    cases provider?_id there
    simp only [perform, there, Prod.mk.injEq, List.cons.injEq, Happening.opened.injEq, true_and,
      and_true] at done
    have made := openConsumer_backoff (Prod.ext done.2 done.1)
    have retry := retry_openConsumer (h₀.after before) q key q.id
    rw [done.1, known, there, Option.map_some, Option.map_some, Option.some.injEq] at retry
    rwa [retry]

/-! ## The budget -/

structure Budgeted (most : Nat) (provider : String) (key : SourceKey) (c : ConsumerId) (h : Hub)
    (ops : List Operation) : Prop where
  /-- The counter tells the retries since the last message, never more than the budget. -/
  counter : ∃ k, (h.after ops).consumers[c]? = some k ∧
    k.backoff.attempts = spent 0 (h.laps c ops) ∧
    k.backoff.attempts ≤ most
  /-- A call that is gone on with at its time makes rests that take no time, and comes to what its
  last lap comes to. -/
  answers : ∀ now a, Due a now → ∃ rested g t,
    (h.after ops).pollLaps now c a = rested ++ [(g, t)] ∧ (∀ x ∈ rested, x.2 = .rests 0) ∧
    ((h.after ops).poll now c a).1 = t.answer now
  /-- A lap rests, or fails, just when it has to. -/
  fair : ∀ before g t after, h.laps c ops = before ++ (g, t) :: after →
    Fair most (spent 0 before) c g t
  /-- Between two messages there are no more rests than the budget has. -/
  between : ∀ before run after, h.laps c ops = before ++ run ++ after →
    (∀ x ∈ run, ∀ e, x.2 ≠ .settled (.event e)) → rests run ≤ most
  /-- A call rests no more often, and whenever its time has come it answers, or listens to
  something, or has one retry more. -/
  calls : ∀ call a, Call c (h.after ops) call a → ∀ now,
    rests ((h.after ops).laps c (call ++ [.next c now a])) ≤ most ∧
    (Due a now → Comes provider key c ((h.after (ops ++ call)).pollLaps now c a)
      ((h.after (ops ++ call)).poll now c a))
  closed : ∀ op, op.closes = some c → ∀ more now a, Due a now →
    (((h.after (ops ++ [op])).after more).poll now c a).1 = .ended
  /-- Once failed on the message server, it fails again for every new call until it is closed. -/
  failed : h.memory? provider = none → ∀ now a e, ((h.after ops).poll now c a).1 = .failed e →
    ∀ more, (∀ op ∈ more, op.closes ≠ some c ∧ ∀ now a, op = .next c now a → a = .news) →
      ∀ later, (((h.after (ops ++ [.next c now a])).after more).poll later c .news).1 = .failed e

theorem Call.within {ops : List Operation} {a : Awaiting} (call : Call c h ops a)
    (paced : Paced most n c h) (now : Nat) :
    n + rests (h.laps c (ops ++ [.next c now a])) ≤ most := by
  have so_far := call.spent paced
  have before := (after_charged paced ops).2
  have own : (h.after ops).lapsOf c (.next c now a) = (h.after ops).pollLaps now c a := by
    simp [lapsOf]
  rw [laps_snoc, rests_append, own]
  by_cases due : Due a now
  · have last := (poll_charged before now a due).within
    omega
  · have nothing : rests ((h.after ops).pollLaps now c a) = 0 := by
      rw [(poll_early due).2]
      rfl
    have within := before.within
    omega

theorem rests_between {laps before run after : List (Hub × Lap)} (fair : AllFair most c n laps)
    (within : n ≤ most) (split : laps = before ++ run ++ after)
    (silent : ∀ x ∈ run, ∀ e, x.2 ≠ .settled (.event e)) : rests run ≤ most := by
  rw [split, allFair_append, allFair_append] at fair
  obtain ⟨⟨first, second⟩, -⟩ := fair
  have charged := spent_of_silent (n := spent n before) silent
  have bound := second.within (first.within within)
  omega

theorem after_home (sound : h.Sound) (ops : List Operation) (provider : String) :
    (h.after ops).home provider = h.home provider :=
  (after_induction (P := fun h' => h'.Sound ∧ h'.home provider = h.home provider) ⟨sound, rfl⟩
    fun _ op _ before => ⟨perform_sound before.1 op,
      (perform_home before.1 op provider).trans before.2⟩).2

theorem after_closed (sound : h.Sound)
    (closed : ∃ k, h.consumers[c]? = some k ∧ k.closed = true) (more : List Operation) :
    ∃ k, (h.after more).consumers[c]? = some k ∧ k.closed = true :=
  (after_induction (P := fun h => h.Sound ∧ ∃ k, h.consumers[c]? = some k ∧ k.closed = true)
    ⟨sound, closed⟩ fun _ op _ before =>
      ⟨perform_sound before.1 op, perform_closed before.1 before.2 op⟩).2

theorem after_broken {e : BrokerError} {more : List Operation} (sound : h.Sound)
    (broken : h.Broken c e) (calm : ∀ op ∈ more, op.closes ≠ some c ∧
      ∀ now a, op = .next c now a → a = .news) : (h.after more).Broken c e :=
  (after_induction (P := fun h => h.Sound ∧ h.Broken c e) ⟨sound, broken⟩
    fun _ op member before => ⟨perform_sound before.1 op,
      perform_broken before.1 before.2 (calm op member).1 (calm op member).2⟩).2

/-- A consumer that was opened keeps to the retries of its provider's policy, whatever its broker
does: it retries when it has to, fails when it would have to once more, has its whole budget again
with every message, and leaves no call without an end that does not listen to anything. -/
theorem consumer_keeps_budget {provider : String} {key : SourceKey} {p : Provider}
    (opened : h.Opened c provider key) (known : h.provider? provider = some p)
    (ops : List Operation) : Budgeted p.retry.maxRetries provider key c h ops := by
  obtain ⟨k, there, backoff⟩ := opened.backoff known
  obtain ⟨sound, k', there', named, same, -⟩ := opened.consumer
  cases there.symm.trans there'
  have start : Paced p.retry.maxRetries 0 c h :=
    ⟨sound, Nat.zero_le _, k, there, by rw [backoff], by rw [backoff]⟩
  obtain ⟨fair, paced⟩ := after_charged start ops
  obtain ⟨sound', keyed⟩ := after_keyed sound ⟨k, there, named, same⟩ ops
  refine ⟨?_, ?_, ?_, ?_, ?_, ?_, ?_⟩
  · obtain ⟨k₁, known₁, -, attempts⟩ := paced.counted
    exact ⟨k₁, known₁, attempts, attempts ▸ paced.within⟩
  · intro now a due
    exact (poll_charged paced now a due).answers
  · intro before g t after split
    rw [split, allFair_append] at fair
    exact fair.2.1
  · intro before run after split silent
    exact rests_between fair (Nat.zero_le _) split silent
  · intro call a going now
    constructor
    · have within := going.within paced now
      omega
    · intro due
      rw [after_append]
      have later := (after_charged paced call).2
      exact poll_comes later (after_keyed sound' keyed call).2 due
  · intro op closes more now a due
    obtain ⟨k₁, known₁, -⟩ := paced.counted
    obtain ⟨line, closed⟩ := perform_closes known₁ op closes
    have sound₁ := perform_sound sound' op
    rw [after_append, after_cons, after_nil]
    obtain ⟨k₂, known₂, closed₂⟩ := after_closed sound₁ ⟨_, closed, rfl⟩ more
    rw [poll_closed known₂ closed₂ due]
  · intro server now a e fails more calm later
    have due : Due a now := by
      by_contra early
      rw [(poll_early early).1] at fails
      cases fails
    have charged := poll_charged paced now a due
    have sound₁ := perform_sound sound' (.next c now a)
    have keyed₁ := (perform_covers sound' keyed (.next c now a)).1
    have away : ∀ k, ((h.after ops).poll now c a).2.consumers[c]? = some k →
        ((h.after ops).poll now c a).2.memory? k.provider = none := by
      intro k₁ known₁
      obtain ⟨k₂, known₂, named₂, -⟩ := keyed₁
      cases known₁.symm.trans known₂
      have homes := (perform_home sound' (.next c now a) provider).trans
        (after_home sound ops provider)
      rw [home_of_server server] at homes
      simpa [Hub.home, named₂, perform] using homes
    have broken := charged.failed e fails away
    rw [after_append, after_cons, after_nil]
    rw [(after_broken sound₁ broken calm).poll]

/-- A consumer with one retry, whose server ends its subscription and takes no new one, makes that
retry and fails. -/
theorem consumer_keeps_budget_one : ∃ h p, h.Opened 0 "n" ⟨"n", ["a"]⟩ ∧
    h.provider? "n" = some p ∧ p.retry.maxRetries = 1 ∧
    ((h.after [.limit .subscribe (some 0), .cut]).poll 0 0 .news).1 =
      .failed (.subscriptionLost ⟨"n", ["a"]⟩ 1) ∧
    Budgeted p.retry.maxRetries "n" ⟨"n", ["a"]⟩ 0 h
      [.limit .subscribe (some 0), .cut, .next 0 0 .news] := by
  have opened : Hub.Opened _ 0 "n" ⟨"n", ["a"]⟩ :=
    ⟨{}, [{ id := "n", backend := .nats, retry := { maxRetries := 1, initialMs := 0 } }], _, [],
      by decide, rfl, rfl, rfl⟩
  exact ⟨_, _, opened, rfl, rfl, by decide +kernel, consumer_keeps_budget opened rfl _⟩

end Hub

end SubscriptionGateway.Broker
