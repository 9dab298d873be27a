import SubscriptionGateway.Proofs.Broker.Consumers

/-!
A call for the next event, step by step: the consumer listens, and when it has lost what it listened
to it counts a retry, waits, and on a message server subscribes again. What each of these steps
keeps holds when the call settles.
-/
namespace SubscriptionGateway.Broker

namespace Hub

variable {h h' h₁ : Hub} {c : ConsumerId} {k : Consumer}

def Reachable (h : Hub) (provider : String) : Prop :=
  ∀ b, h.memory? provider = some b → b.available = true

inductive Listened (h : Hub) (c : ConsumerId) (k : Consumer) : Heard × Hub → Prop
  | message {l l' : Line} {m : Message} (line : k.line = some l) (taken : l.take = .message m l')
      (up : h.Reachable k.provider) :
      Listened h c k (.settled (eventOf k.key m (h.partition? k.provider)),
        h.setConsumer c { k with line := some l', backoff := k.backoff.reset })
  | waiting {l l' : Line} (line : k.line = some l) (taken : l.take = .waiting l')
      (up : h.Reachable k.provider) :
      Listened h c k (.settled (.pending .news), h.setConsumer c { k with line := some l' })
  | ended {l : Line} (line : k.line = some l) (taken : l.take = .ended)
      (memory : (h.memory? k.provider).isSome) :
      Listened h c k (.settled .ended, h.setConsumer c { k with line := some ⟨[], []⟩ })
  | none (line : k.line = none) (memory : (h.memory? k.provider).isSome) :
      Listened h c k (.settled .ended, h)
  | down (memory : (h.memory? k.provider).isSome) (down : ¬ h.Reachable k.provider) :
      Listened h c k (.lost, h)
  | lost {l : Line} (line : k.line = some l) (taken : l.take = .ended)
      (server : h.memory? k.provider = .none) :
      Listened h c k (.lost, h.setConsumer c { k with line := .none })
  | unsubscribed (line : k.line = none) (server : h.memory? k.provider = .none) :
      Listened h c k (.lost, h)

theorem listened (h : Hub) (c : ConsumerId) (k : Consumer) : Listened h c k (h.listen c k) := by
  unfold listen
  cases memory : h.memory? k.provider with
  | some b =>
    have isMemory : (h.memory? k.provider).isSome := by simp [memory]
    have partition := (partition_of_memory isMemory).symm
    by_cases up : b.available = true
    · have reachable : h.Reachable k.provider := fun b' known => by
        cases memory.symm.trans known
        exact up
      cases line : k.line with
      | none => simpa [up] using .none line isMemory
      | some l =>
        cases taken : l.take with
        | message m l' =>
          simpa [up, taken, partition] using .message line taken reachable
        | waiting l' => simpa [up, taken] using .waiting line taken reachable
        | ended => simpa [up, taken] using .ended line taken isMemory
    · have down : ¬ h.Reachable k.provider := fun reachable => up (reachable b memory)
      cases line : k.line with
      | none => simpa [up] using .down isMemory down
      | some l => simpa [up] using .down isMemory down
  | none =>
    have partition : .none = h.partition? k.provider := by simp [partition?, memory]
    have reachable : h.Reachable k.provider := fun b known => by simp [memory] at known
    cases line : k.line with
    | none => simpa using .unsubscribed line memory
    | some l =>
      cases taken : l.take with
      | message m l' =>
        simpa [taken, ← partition] using Listened.message (c := c) line taken reachable
      | waiting l' => simpa [taken] using .waiting line taken reachable
      | ended => simpa [taken] using .lost line taken memory

/-- What a call comes to without listening: the consumer is not open, or it waits before a retry, or
it has none left. -/
inductive Unheard (h : Hub) (c : ConsumerId) : Polled → Prop
  | closed (closed : ∀ k, h.consumers[c]? = some k → k.closed = true) : Unheard h c .ended
  | failed (e : BrokerError) : Unheard h c (.failed e)
  | retry (t : Nat) : Unheard h c (.pending (.retry t))

/-- What a call comes to, given what holds at each of its steps. -/
def PollSettles (P : Hub → Prop) (c : ConsumerId) (r : Polled × Hub) : Prop :=
  P r.2 ∧ Unheard r.2 c r.1 ∨
  ∃ h k, P h ∧ h.consumers[c]? = some k ∧ k.closed = false ∧ h.listen c k = (.settled r.1, r.2)

/-- The loop has enough fuel for the retries that are left. -/
def Enough (fuel : Nat) (h : Hub) (c : ConsumerId) : Prop :=
  0 < fuel ∧ ∀ k, h.consumers[c]? = some k →
    k.backoff.policy.maxRetries - k.backoff.attempts < fuel

theorem pollBudget_enough (h : Hub) (c : ConsumerId) : Enough (h.pollBudget c) h c := by
  unfold pollBudget Enough
  cases h.consumers[c]? with
  | none => exact ⟨Nat.one_pos, fun _ known => absurd known (by simp)⟩
  | some k =>
    refine ⟨Nat.succ_pos _, fun k' known => ?_⟩
    cases known
    exact Nat.lt_succ_self _

theorem renew_backoff (h : Hub) (c : ConsumerId) {k' : Consumer}
    (known : (h.renew c).consumers[c]? = some k') :
    ∃ k, h.consumers[c]? = some k ∧ k'.backoff = k.backoff := by
  have same : ∀ key, (h.subscribeAll key).2.consumers = h.consumers := fun _ => rfl
  unfold renew at known
  split at known
  · exact ⟨k', known, rfl⟩
  · rename_i k there
    split at known
    · exact ⟨k', known, rfl⟩
    · split at known
      · rename_i chs h₁ subscribed
        have consumers : h₁.consumers = h.consumers := by
          rw [← same k.key, subscribed]
        rw [setConsumer_self (consumers ▸ there)] at known
        exact ⟨k, there, by cases known; rfl⟩
      · rename_i e h₁ subscribed
        have consumers : h₁.consumers = h.consumers := by
          rw [← same k.key, subscribed]
        exact ⟨k', consumers ▸ known, rfl⟩

theorem next?_some {b b' : Backoff} {delay : Nat} (next : b.next? = some (delay, b')) :
    b.attempts < b.policy.maxRetries ∧ b' = { b with attempts := b.attempts + 1 } := by
  unfold Backoff.next? at next
  split at next
  · rename_i left_over
    cases next
    exact ⟨left_over, rfl⟩
  · cases next

theorem enough_next {fuel delay : Nat} {b : Backoff} (known : h.consumers[c]? = some k)
    (budget : k.backoff.policy.maxRetries - k.backoff.attempts < fuel + 1)
    (next : k.backoff.next? = some (delay, b)) :
    Enough fuel ((h.setConsumer c { k with backoff := b }).renew c) c := by
  obtain ⟨left_over, counted⟩ := next?_some next
  refine ⟨by omega, fun k' known' => ?_⟩
  obtain ⟨k₂, known₂, same⟩ := renew_backoff _ c known'
  rw [setConsumer_self known, Option.some.injEq] at known₂
  subst known₂
  rw [same, counted]
  dsimp only
  omega

section Induction

variable {P : Hub → Prop}
  (lost : ∀ h k, P h → h.consumers[c]? = some k → k.closed = false → ∀ h₁,
    h.listen c k = (.lost, h₁) → P h₁)
  (wait : ∀ h k b, P h → h.consumers[c]? = some k → P (h.setConsumer c { k with backoff := b }))
  (renews : ∀ h, P h → P (h.renew c))

include lost wait renews

theorem pollFuel_settled {fuel now : Nat} (start : P h) (enough : Enough fuel h c) :
    PollSettles P c (pollFuel fuel now c h) := by
  induction fuel generalizing h with
  | zero => exact absurd enough.1 (Nat.lt_irrefl 0)
  | succ fuel ih =>
    unfold pollFuel
    cases known : h.consumers[c]? with
    | none => exact .inl ⟨start, .closed fun k same => by simp [known] at same⟩
    | some k =>
      by_cases closed : k.closed = true
      · simp only [closed, if_true]
        exact .inl ⟨start, .closed fun k' same => by
          cases known.symm.trans same
          exact closed⟩
      · have opened : k.closed = false := by simpa using closed
        simp only [opened, Bool.false_eq_true, if_false]
        have cases := listened h c k
        generalize heard : h.listen c k = r at cases
        obtain ⟨heard', h₁⟩ := r
        cases heard' with
        | settled p => exact .inr ⟨h, k, start, known, opened, heard⟩
        | lost =>
          have left := lost h k start known opened h₁ heard
          have kept : ∃ k₁, h₁.consumers[c]? = some k₁ ∧ k₁.backoff = k.backoff := by
            cases cases with
            | down => exact ⟨k, known, rfl⟩
            | lost => exact ⟨_, setConsumer_self known _, rfl⟩
            | unsubscribed => exact ⟨k, known, rfl⟩
          obtain ⟨k₁, known₁, same⟩ := kept
          -- Only a retry without a delay goes around again, and it leaves one less.
          simp only [known₁]
          cases next : k₁.backoff.next? with
          | none => exact .inl ⟨left, .failed _⟩
          | some r =>
            obtain ⟨delay, backoff⟩ := r
            have waits := wait h₁ k₁ backoff left known₁
            by_cases now' : delay = 0
            · simp only [now', if_true]
              exact ih (renews _ waits) (enough_next known₁ (same ▸ enough.2 k known) next)
            · simp only [now', if_false]
              exact .inl ⟨waits, .retry _⟩

theorem poll_settled {now : Nat} {a : Awaiting} (start : P h) :
    PollSettles P c (h.poll now c a) := by
  unfold poll
  cases a with
  | news => exact pollFuel_settled lost wait renews start (pollBudget_enough h c)
  | retry t =>
    by_cases early : now < t
    · simp only [early, if_true]
      exact .inl ⟨start, .retry t⟩
    · simp only [early, if_false]
      exact pollFuel_settled lost wait renews (renews h start) (pollBudget_enough _ c)

end Induction

theorem poll_view {β : Type} (view : Hub → β)
    (writes : ∀ (h : Hub) (k : Consumer), view (h.setConsumer c k) = view h)
    (subscribes : ∀ (h : Hub) (key : SourceKey), view (h.subscribeAll key).2 = view h)
    (h : Hub) (now : Nat) (a : Awaiting) : view (h.poll now c a).2 = view h := by
  have listens (h₁ : Hub) (k : Consumer) : view (h₁.listen c k).2 = view h₁ := by
    have heard := listened h₁ c k
    generalize h₁.listen c k = r at heard
    cases heard <;> first | rfl | exact writes ..
  have renews (h₁ : Hub) : view (h₁.renew c) = view h₁ := by
    unfold renew
    split
    · rfl
    split
    · rfl
    rename_i k _ _
    have same := subscribes h₁ k.key
    generalize h₁.subscribeAll k.key = r at same
    obtain ⟨_ | _, h₂⟩ := r
    · exact same
    · exact (writes ..).trans same
  have settled : PollSettles (fun h₁ => view h₁ = view h) c (h.poll now c a) :=
    poll_settled (fun h₁ k same _ _ h₂ heard => by rw [← same, ← listens h₁ k, heard])
      (fun h₁ k b same _ => (writes ..).trans same) (fun h₁ same => (renews h₁).trans same) rfl
  rcases settled with ⟨same, -⟩ | ⟨h₁, k, same, -, -, heard⟩
  · exact same
  · rw [← same, ← listens h₁ k, heard]

/-! ## A call that is settled at once -/

theorem poll_of_listen (known : h.consumers[c]? = some k) (opened : k.closed = false) {p : Polled}
    (heard : h.listen c k = (.settled p, h')) (now : Nat) : h.poll now c .news = (p, h') := by
  have budget : h.pollBudget c =
      k.backoff.policy.maxRetries - k.backoff.attempts + 1 := by simp [pollBudget, known]
  simp [poll, budget, pollFuel, known, opened, heard]

theorem poll_message {l l' : Line} {m : Message} (known : h.consumers[c]? = some k)
    (opened : k.closed = false) (line : k.line = some l) (up : h.Reachable k.provider)
    (taken : l.take = .message m l') (now : Nat) : h.poll now c .news =
      (eventOf k.key m (h.partition? k.provider),
        h.setConsumer c { k with line := some l', backoff := k.backoff.reset }) := by
  refine poll_of_listen known opened ?_ now
  have cases := listened h c k
  generalize heard : h.listen c k = r at cases
  cases cases with
  | message line' taken' =>
    cases line.symm.trans line'
    cases taken.symm.trans taken'
    rfl
  | waiting line' taken' =>
    cases line.symm.trans line'
    cases taken.symm.trans taken'
  | ended line' taken' =>
    cases line.symm.trans line'
    cases taken.symm.trans taken'
  | none line' => cases line.symm.trans line'
  | down memory down => exact absurd up down
  | lost line' taken' =>
    cases line.symm.trans line'
    cases taken.symm.trans taken'
  | unsubscribed line' => cases line.symm.trans line'

theorem renew_memory (known : h.consumers[c]? = some k) (memory : (h.memory? k.provider).isSome) :
    h.renew c = h := by
  simp [renew, known, memory]

/-- On a memory broker a call whose wait is over is as good as a new one. -/
theorem poll_ripe (known : h.consumers[c]? = some k) (memory : (h.memory? k.provider).isSome)
    {now : Nat} {a : Awaiting} (ripe : ∀ t, a = .retry t → t ≤ now) :
    h.poll now c a = h.poll now c .news := by
  cases a with
  | news => rfl
  | retry t => simp [poll, renew_memory known memory, Nat.not_lt.mpr (ripe t rfl)]

/-! ## Each step keeps the brokers sound -/

theorem remains_sound (sound : h.Sound) {l l' : Line} (known : h.consumers[c]? = some k)
    (line : k.line = some l) (remains : Line.Remains l l') (b : Backoff) :
    (h.setConsumer c { k with line := some l', backoff := b }).Sound := by
  refine sound.setConsumer known fun l₁ same => ?_
  cases same
  refine ⟨(sound.lines known line).remains remains.fit rfl rfl rfl remains.came,
    fun r' member => ?_⟩
  obtain ⟨s, there, channel, -⟩ := remains.came r' member
  exact ⟨s, ⟨k, l, known, line, there⟩, channel⟩

theorem listen_sound (sound : h.Sound) (known : h.consumers[c]? = some k) {r : Heard × Hub}
    (heard : Listened h c k r) : r.2.Sound ∧ Only c h r.2 := by
  cases heard with
  | message line taken =>
    have remains := Line.take_message_remains (sound.lines known line).fit taken
    exact ⟨remains_sound sound known line remains _, setConsumer_only c _ h⟩
  | waiting line taken =>
    have remains := Line.take_waiting_remains (sound.lines known line).fit taken
    exact ⟨remains_sound sound known line remains k.backoff, setConsumer_only c _ h⟩
  | ended line taken memory =>
    have held := sound.lines known line
    have nobody : (⟨[], []⟩ : Line).receivers = [] := rfl
    refine ⟨sound.setConsumer known fun l₁ same => ?_, setConsumer_only c _ h⟩
    cases same
    refine ⟨held.remains ⟨by simp [Line.channels, nobody], fun r member => by cases member⟩ rfl rfl
      rfl (by simp [nobody]), by simp [nobody]⟩
  | none => exact ⟨sound, .refl c h⟩
  | down => exact ⟨sound, .refl c h⟩
  | lost line taken server =>
    exact ⟨sound.setConsumer known fun l₁ same => (by cases same), setConsumer_only c _ h⟩
  | unsubscribed => exact ⟨sound, .refl c h⟩

theorem count_sound (sound : h.Sound) (known : h.consumers[c]? = some k) (b : Backoff) :
    (h.setConsumer c { k with backoff := b }).Sound := by
  refine sound.setConsumer known fun l line => ?_
  have held := sound.lines known line
  exact ⟨held.remains held.fit rfl rfl rfl fun r member => ⟨r, member, rfl, rfl⟩,
    fun r member => ⟨r, ⟨k, l, known, line, member⟩, rfl⟩⟩

inductive Renewed (h : Hub) (c : ConsumerId) (h' : Hub) : Prop
  | same (consumers : h'.consumers = h.consumers)
  | attuned {k k' : Consumer} (known : h.consumers[c]? = some k)
      (server : h.memory? k.provider = none) (opened : k.closed = false)
      (known' : h'.consumers[c]? = some k') (line : k' = { k with line := k'.line })
      (attuned : Attuned h' k')

/-- A consumer with the subscriptions of a new attempt. Nobody else has a receiver on their
channels, since these were not there before. -/
theorem renewed_sound (sound : h.Sound) (only : Only c h h₁) (orderly : h₁.Orderly)
    (steady : OutletsSteady h h₁) (consumers : h₁.consumers = h.consumers)
    (known : h.consumers[c]? = some k) (server : h.memory? k.provider = none)
    (opened : k.closed = false) {chs : List ChannelId}
    (subscription : Subscription h k.key.topics chs h₁) :
    Attuned (h₁.setConsumer c { k with line := some ⟨chs.map fresh, []⟩ })
      { k with line := some ⟨chs.map fresh, []⟩ } ∧
    (h₁.setConsumer c { k with line := some ⟨chs.map fresh, []⟩ }).Sound := by
  have known₁ : h₁.consumers[c]? = some k := consumers ▸ known
  have same := sameOutlets_setConsumer c { k with line := some ⟨chs.map fresh, []⟩ } h₁
  have attuned : Attuned (h₁.setConsumer c { k with line := some ⟨chs.map fresh, []⟩ })
      { k with line := some ⟨chs.map fresh, []⟩ } := by
    refine ⟨chs, rfl, subscription.nodup, ?_⟩
    rw [same.steady.home, steady.home, home_of_server server]
    exact subscription.outlets.imp fun t ch => same.outlet.mpr
  have all := only.trans (setConsumer_only c { k with line := some ⟨chs.map fresh, []⟩ } h₁)
  have known' := setConsumer_self known₁ { k with line := some ⟨chs.map fresh, []⟩ }
  refine ⟨attuned, all.sound sound (fun k' l there line => ?_) (fun r t holds there => ?_)⟩
  · cases known'.symm.trans there
    exact attuned.held (same.orderly orderly) opened line
  · obtain ⟨k', l, mine, line, member⟩ := holds
    cases known'.symm.trans mine
    cases line
    rintro c' r' other ⟨k₂, l₂, known₂, line₂, member₂⟩ clash
    have old := (sound.lines known₂ line₂).made r' member₂
    exact absurd old (Nat.not_lt.mpr (clash ▸ subscription.new _ (mem_fresh member).1))

theorem renew_spec (sound : h.Sound) (c : ConsumerId) :
    (h.renew c).Sound ∧ Only c h (h.renew c) ∧ Renewed h c (h.renew c) := by
  unfold renew
  split
  · exact ⟨sound, .refl c h, .same rfl⟩
  · rename_i k known
    split
    · exact ⟨sound, .refl c h, .same rfl⟩
    · rename_i lost
      obtain ⟨server, opened⟩ : h.memory? k.provider = none ∧ k.closed = false := by
        simpa using lost
      obtain ⟨orderly, steady, consumers, -, subscribed⟩ := subscribeAll_spec sound.toOrderly k.key
      generalize h.subscribeAll k.key = r at orderly steady consumers subscribed
      obtain ⟨result, h₁⟩ := r
      have quiet : Deed (fun _ => False) id h h₁ := .of_steady steady (fun _ => orderly) consumers
      have only := quiet.only c
      cases result with
      | error e => exact ⟨quiet.sound sound, only, .same consumers⟩
      | ok chs =>
        obtain ⟨attuned, sound'⟩ := renewed_sound sound only orderly steady consumers known server
          opened (subscribed chs rfl)
        have known₁ : h₁.consumers[c]? = some k := consumers ▸ known
        have only' := setConsumer_only c { k with line := some ⟨chs.map fresh, []⟩ } h₁
        exact ⟨sound', only.trans only',
          .attuned known server opened (setConsumer_self known₁ _) rfl
          attuned⟩

/-- A call for the next event keeps the brokers sound and is nobody else's business. -/
theorem poll_sound (sound : h.Sound) (now : Nat) (c : ConsumerId) (a : Awaiting) :
    (h.poll now c a).2.Sound ∧ Only c h (h.poll now c a).2 := by
  have settled : PollSettles (fun h' => h'.Sound ∧ Only c h h') c (h.poll now c a) := by
    refine poll_settled ?_ ?_ ?_ ⟨sound, .refl c h⟩
    · rintro h₁ k ⟨sound₁, only⟩ known - h₂ heard
      obtain ⟨sound₂, next⟩ := listen_sound sound₁ known (heard ▸ listened h₁ c k)
      exact ⟨sound₂, only.trans next⟩
    · rintro h₁ k b ⟨sound₁, only⟩ known
      exact ⟨count_sound sound₁ known b, only.trans (setConsumer_only c _ h₁)⟩
    · rintro h₁ ⟨sound₁, only⟩
      obtain ⟨sound₂, next, -⟩ := renew_spec sound₁ c
      exact ⟨sound₂, only.trans next⟩
  rcases settled with ⟨kept, -⟩ | ⟨h₁, k, ⟨sound₁, only⟩, known, -, heard⟩
  · exact kept
  · obtain ⟨sound₂, next⟩ := listen_sound sound₁ known (heard ▸ listened h₁ c k)
    exact ⟨sound₂, only.trans next⟩

end Hub

end SubscriptionGateway.Broker
