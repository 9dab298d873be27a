import SubscriptionGateway.Proofs.Broker.Coverage

/-!
The loop of a call for the next event. Each lap listens, and one that finds the consumer cut off
from what it listens to counts a retry and rests before the next lap. A lap is told here by what it
costs: the laps of a call are charged to the consumer's budget, and only a message fills it again.
-/
namespace SubscriptionGateway.Broker

namespace Line

theorem take_ended_iff {l : Line} (fit : l.Fit) : l.take = .ended ↔ ∀ r ∈ l.receivers, r.Spent := by
  constructor
  · exact take_ended fit
  · intro spent
    cases taken : l.take with
    | message m l' =>
      obtain ⟨r, q, others, leaves, head, -⟩ := take_message fit taken
      obtain ⟨b, there, same⟩ := leaves.mem_before (List.mem_cons_self ..)
      have empty := (spent b there).2
      rw [Receiver.queue_of_bare same, head] at empty
      cases empty
    | waiting l' =>
      obtain ⟨leaves, idle, listens, -⟩ := take_waiting fit taken
      obtain ⟨r, member⟩ := List.exists_mem_of_ne_nil _ listens
      obtain ⟨b, there, same⟩ := leaves.mem_before member
      have ended := (spent b there).1
      rw [Receiver.ended_of_bare same, (idle r member).2] at ended
      cases ended
    | ended => rfl

end Line

namespace Hub

variable {h h' h₁ : Hub} {c : ConsumerId} {k : Consumer} {most n : Nat}

/-! ## One lap -/

inductive Lap where
  | settled (p : Polled)
  | rests (delay : Nat)

def lap (h : Hub) (c : ConsumerId) : Lap × Hub :=
  match h.consumers[c]? with
  | none => (.settled .ended, h)
  | some k =>
    if k.closed then (.settled .ended, h)
    else match h.listen c k with
      | (.settled p, h) => (.settled p, h)
      | (.lost, h) =>
        match h.consumers[c]? with
        | none => (.settled .ended, h)
        | some k =>
          match k.backoff.next? with
          | none => (.settled (.failed (h.exhausted k)), h)
          | some (delay, backoff) => (.rests delay, h.setConsumer c { k with backoff := backoff })

theorem pollFuel_succ (fuel now : Nat) (c : ConsumerId) (h : Hub) :
    pollFuel (fuel + 1) now c h = match h.lap c with
      | (.settled p, h) => (p, h)
      | (.rests delay, h) =>
        if delay = 0 then pollFuel fuel now c (h.renew c)
        else (.pending (.retry (now + delay)), h) := by
  conv_lhs => unfold pollFuel
  unfold lap
  cases h.consumers[c]? with
  | none => rfl
  | some k =>
    by_cases closed : k.closed = true
    · simp [closed]
    · simp only [closed, Bool.false_eq_true, if_false]
      cases heard : h.listen c k with
      | mk r h₁ =>
        cases r with
        | settled p => rfl
        | lost =>
          dsimp only
          cases h₁.consumers[c]? with
          | none => rfl
          | some k₁ =>
            dsimp only
            cases k₁.backoff.next? <;> rfl

/-- Nothing more can come before the consumer is given something new to listen to: its memory broker
is down, or every subscription it had on the server has ended and is used up. -/
def CutOff (h : Hub) (k : Consumer) : Prop :=
  match h.memory? k.provider with
  | some b => b.available = false
  | none => ∀ l, k.line = some l → ∀ r ∈ l.receivers, r.Spent

/-- The consumer cannot go on without a retry. -/
def Wants (h : Hub) (c : ConsumerId) : Prop :=
  ∃ k, h.consumers[c]? = some k ∧ k.closed = false ∧ h.CutOff k

theorem listen_lost_iff (fit : ∀ l, k.line = some l → l.Fit) :
    (h.listen c k).1 = .lost ↔ h.CutOff k := by
  unfold listen CutOff
  cases memory : h.memory? k.provider with
  | some b =>
    cases up : b.available with
    | true =>
      cases line : k.line with
      | none => simp [up]
      | some l => cases taken : l.take <;> simp [up, taken]
    | false => cases line : k.line <;> simp [up]
  | none =>
    cases line : k.line with
    | none => simp
    | some l =>
      have ended := Line.take_ended_iff (fit l line)
      cases taken : l.take with
      | message m l' => simpa [taken] using ended
      | waiting l' => simpa [taken] using ended
      | ended => simpa [taken] using ended

theorem lost_consumer (known : h.consumers[c]? = some k) (lost : h.listen c k = (.lost, h₁)) :
    ∃ line, h₁.consumers[c]? = some { k with line := line } ∧
      (h.memory? k.provider = none → line = none) := by
  have heard := listened h c k
  rw [lost] at heard
  cases heard with
  | down memory =>
    refine ⟨k.line, known, fun server => ?_⟩
    simp [server] at memory
  | lost line taken server => exact ⟨none, setConsumer_self known _, fun _ => rfl⟩
  | unsubscribed line server => exact ⟨k.line, known, fun _ => line⟩

inductive Lapped (h : Hub) (c : ConsumerId) (k : Consumer) : Lap × Hub → Prop
  | closed (closed : k.closed = true) : Lapped h c k (.settled .ended, h)
  | heard {p : Polled} {h₁ : Hub} (opened : k.closed = false)
      (heard : h.listen c k = (.settled p, h₁)) : Lapped h c k (.settled p, h₁)
  | failed {h₁ : Hub} {line : Option Line} (opened : k.closed = false)
      (lost : h.listen c k = (.lost, h₁)) (known : h₁.consumers[c]? = some { k with line := line })
      (server : h.memory? k.provider = none → line = none)
      (nothing : k.backoff.policy.maxRetries ≤ k.backoff.attempts) :
      Lapped h c k (.settled (.failed (h₁.exhausted { k with line := line })), h₁)
  | rests {h₁ : Hub} {line : Option Line} (delay : Nat) (opened : k.closed = false)
      (lost : h.listen c k = (.lost, h₁)) (known : h₁.consumers[c]? = some { k with line := line })
      (some_left : k.backoff.attempts < k.backoff.policy.maxRetries) :
      Lapped h c k (.rests delay, h₁.setConsumer c { k with
        line := line, backoff := { k.backoff with attempts := k.backoff.attempts + 1 } })

theorem lapped (known : h.consumers[c]? = some k) : Lapped h c k (h.lap c) := by
  unfold lap
  simp only [known]
  cases closed : k.closed with
  | true => exact .closed closed
  | false =>
    simp only [Bool.false_eq_true, if_false]
    cases heard : h.listen c k with
    | mk r h₁ =>
      cases r with
      | settled p => exact .heard closed heard
      | lost =>
        obtain ⟨line, known₁, server⟩ := lost_consumer known heard
        dsimp only
        rw [known₁]
        unfold Backoff.next?
        by_cases some_left : k.backoff.attempts < k.backoff.policy.maxRetries
        · simp only [some_left, if_true]
          exact .rests _ closed heard known₁ some_left
        · simp only [some_left, if_false]
          exact .failed closed heard known₁ server (Nat.not_lt.mp some_left)

/-- A lap never settles with the wait for a retry; that is a rest. -/
theorem lap_not_retry (known : h.consumers[c]? = some k) (t : Nat) :
    (h.lap c).1 ≠ .settled (.pending (.retry t)) := by
  intro settled
  have lap := lapped known
  generalize h.lap c = r at lap settled
  cases lap with
  | closed closed => cases settled
  | failed opened lost => cases settled
  | rests delay opened lost => cases settled
  | @heard p h₁ opened heard =>
    cases settled
    have listened := listened h c k
    rw [heard] at listened
    cases listened

theorem wants_of_rest (sound : h.Sound) (known : h.consumers[c]? = some k) {delay : Nat}
    (rests : (h.lap c).1 = .rests delay) : h.Wants c := by
  have lap := lapped known
  generalize h.lap c = r at lap rests
  cases lap with
  | closed closed => cases rests
  | failed opened lost => cases rests
  | heard opened heard => cases rests
  | rests delay opened lost =>
    refine ⟨k, known, opened, (listen_lost_iff fun l line => ?_).mp (by rw [lost])⟩
    exact (sound.lines known line).fit

/-! ## What laps cost -/

def Lap.answer (now : Nat) : Lap → Polled
  | .settled p => p
  | .rests delay => .pending (.retry (now + delay))

/-- The retries since the last message, after one more lap. -/
def Lap.tally (n : Nat) : Lap → Nat
  | .rests _ => n + 1
  | .settled (.event _) => 0
  | .settled _ => n

def Lap.isRest : Lap → Bool
  | .rests _ => true
  | .settled _ => false

def spent (n : Nat) (laps : List (Hub × Lap)) : Nat := laps.foldl (fun n x => x.2.tally n) n

def rests (laps : List (Hub × Lap)) : Nat := laps.countP (·.2.isRest)

/-- A lap rests just when it is needed and the budget has something left, and fails just when it is
needed and the budget is used up. -/
structure Fair (most n : Nat) (c : ConsumerId) (h : Hub) (t : Lap) : Prop where
  rests : (∃ delay, t = .rests delay) ↔ h.Wants c ∧ n < most
  fails : (∃ e, t = .settled (.failed e)) ↔ h.Wants c ∧ n = most

def AllFair (most : Nat) (c : ConsumerId) : Nat → List (Hub × Lap) → Prop
  | _, [] => True
  | n, (h, t) :: laps => Fair most n c h t ∧ AllFair most c (t.tally n) laps

theorem spent_append (n : Nat) (laps laps' : List (Hub × Lap)) :
    spent n (laps ++ laps') = spent (spent n laps) laps' :=
  List.foldl_append

theorem rests_append (laps laps' : List (Hub × Lap)) :
    rests (laps ++ laps') = rests laps + rests laps' :=
  List.countP_append

theorem allFair_append {laps laps' : List (Hub × Lap)} :
    AllFair most c n (laps ++ laps') ↔
      AllFair most c n laps ∧ AllFair most c (spent n laps) laps' := by
  induction laps generalizing n with
  | nil => simp [AllFair, spent]
  | cons x laps ih =>
    obtain ⟨g, t⟩ := x
    simp only [List.cons_append, AllFair, ih, and_assoc]
    rfl

theorem Fair.within {t : Lap} (fair : Fair most n c h t) (within : n ≤ most) :
    t.tally n ≤ most := by
  cases t with
  | rests delay => exact (fair.rests.mp ⟨delay, rfl⟩).2
  | settled p =>
    cases p with
    | event e => exact Nat.zero_le most
    | ended => exact within
    | failed e => exact within
    | pending a => exact within

theorem AllFair.within {laps : List (Hub × Lap)} (fair : AllFair most c n laps)
    (within : n ≤ most) :
    spent n laps ≤ most := by
  induction laps generalizing n with
  | nil => exact within
  | cons x laps ih => exact ih fair.2 (fair.1.within within)

/-- Without a message every rest is charged. -/
theorem spent_of_silent {laps : List (Hub × Lap)}
    (silent : ∀ x ∈ laps, ∀ e, x.2 ≠ .settled (.event e)) : spent n laps = n + rests laps := by
  induction laps generalizing n with
  | nil => rfl
  | cons x laps ih =>
    obtain ⟨g, t⟩ := x
    have tail := ih (n := t.tally n) fun y member => silent y (List.mem_cons_of_mem _ member)
    have head : t.tally n = n + if t.isRest then 1 else 0 := by
      cases t with
      | rests delay => rfl
      | settled p =>
        cases p with
        | event e => exact absurd rfl (silent _ (List.mem_cons_self ..) e)
        | ended => rfl
        | failed e => rfl
        | pending a => rfl
    change spent (t.tally n) laps = _
    rw [tail, head, rests, rests, List.countP_cons]
    dsimp only
    omega

/-! ## A consumer with its budget -/

/-- The consumer is there and has made `n` retries of `most` since its last message. -/
structure Paced (most n : Nat) (c : ConsumerId) (h : Hub) : Prop where
  sound : h.Sound
  within : n ≤ most
  counted : ∃ k, h.consumers[c]? = some k ∧ k.backoff.policy.maxRetries = most ∧
    k.backoff.attempts = n

theorem lap_fair (paced : Paced most n c h) :
    Fair most n c h (h.lap c).1 ∧ Paced most ((h.lap c).1.tally n) c (h.lap c).2 := by
  obtain ⟨sound, within, k, known, rfl, rfl⟩ := paced
  have wants : h.Wants c ↔ k.closed = false ∧ (h.listen c k).1 = .lost := by
    rw [listen_lost_iff fun l line => (sound.lines known line).fit]
    constructor
    · rintro ⟨k', known', rest⟩
      cases known.symm.trans known'
      exact rest
    · rintro ⟨opened, cut⟩
      exact ⟨k, known, opened, cut⟩
  have lap := lapped known
  generalize h.lap c = r at lap
  cases lap with
  | closed closed =>
    refine ⟨⟨?_, ?_⟩, sound, within, k, known, rfl, rfl⟩ <;> simp [wants, closed]
  | heard opened heard =>
    have listened := listened h c k
    rw [heard] at listened
    have sound₁ := (listen_sound sound known listened).1
    cases listened with
    | message line taken =>
      refine ⟨⟨?_, ?_⟩, sound₁, Nat.zero_le _, _, setConsumer_self known _, rfl, rfl⟩ <;>
        simp [wants, heard, eventOf]
    | waiting line taken =>
      refine ⟨⟨?_, ?_⟩, sound₁, within, _, setConsumer_self known _, rfl, rfl⟩ <;>
        simp [wants, heard]
    | ended line taken =>
      refine ⟨⟨?_, ?_⟩, sound₁, within, _, setConsumer_self known _, rfl, rfl⟩ <;>
        simp [wants, heard]
    | none line =>
      refine ⟨⟨?_, ?_⟩, sound₁, within, k, known, rfl, rfl⟩ <;> simp [wants, heard]
  | @failed h₁ line opened lost known₁ server nothing =>
    have sound₁ : h₁.Sound := (listen_sound sound known (lost ▸ listened h c k)).1
    refine ⟨⟨?_, ?_⟩, sound₁, within, _, known₁, rfl, rfl⟩
    · simp [wants, opened, lost, nothing]
    · simpa [wants, opened, lost] using Nat.le_antisymm within nothing
  | @rests h₁ line delay opened lost known₁ some_left =>
    have sound₁ : h₁.Sound := (listen_sound sound known (lost ▸ listened h c k)).1
    refine ⟨⟨?_, ?_⟩, count_sound sound₁ known₁ _, some_left, _,
      setConsumer_self known₁ _, rfl, rfl⟩
    · simpa [wants, opened, lost] using some_left
    · simpa [wants, opened, lost] using Nat.ne_of_lt some_left

theorem renew_paced (paced : Paced most n c h) : Paced most n c (h.renew c) := by
  obtain ⟨sound, within, k, known, policy, attempts⟩ := paced
  obtain ⟨sound', -, renewed⟩ := renew_spec sound c
  refine ⟨sound', within, ?_⟩
  cases renewed with
  | same consumers => exact ⟨k, consumers ▸ known, policy, attempts⟩
  | attuned known₁ _ _ known' line =>
    cases known.symm.trans known₁
    have same := congrArg Consumer.backoff line
    exact ⟨_, known', same ▸ policy, same ▸ attempts⟩

/-! ## The laps of a call -/

def lapsFuel : Nat → ConsumerId → Hub → List (Hub × Lap)
  | 0, _, _ => []
  | fuel + 1, c, h =>
    (h, (h.lap c).1) :: match h.lap c with
      | (.settled _, _) => []
      | (.rests delay, h) => if delay = 0 then lapsFuel fuel c (h.renew c) else []

/-- What a wait is for has come: a new call has nothing to wait for, and a retry has its time. -/
def Due (a : Awaiting) (now : Nat) : Prop := ∀ t, a = .retry t → t ≤ now

def resumed (h : Hub) (c : ConsumerId) : Awaiting → Hub
  | .news => h
  | .retry _ => h.renew c

def pollLaps (h : Hub) (now : Nat) (c : ConsumerId) : Awaiting → List (Hub × Lap)
  | .news => lapsFuel (h.pollBudget c) c h
  | .retry t => if now < t then [] else lapsFuel ((h.renew c).pollBudget c) c (h.renew c)

theorem poll_due {now : Nat} {a : Awaiting} (due : Due a now) :
    h.poll now c a = pollFuel ((h.resumed c a).pollBudget c) now c (h.resumed c a) ∧
      h.pollLaps now c a = lapsFuel ((h.resumed c a).pollBudget c) c (h.resumed c a) := by
  cases a with
  | news => exact ⟨rfl, rfl⟩
  | retry t =>
    have ripe := Nat.not_lt.mpr (due t rfl)
    simp [poll, pollLaps, resumed, ripe]

theorem poll_early {now : Nat} {a : Awaiting} (early : ¬ Due a now) :
    h.poll now c a = (.pending a, h) ∧ h.pollLaps now c a = [] := by
  cases a with
  | news => exact absurd (fun t same => by cases same) early
  | retry t =>
    have before : now < t := by
      refine Nat.not_le.mp fun ripe => early fun t' same => ?_
      cases same
      exact ripe
    simp [poll, pollLaps, before]

/-- A consumer on the message server that has used up its budget and has nothing to listen to. -/
def Broken (h : Hub) (c : ConsumerId) (e : BrokerError) : Prop :=
  ∃ k, h.consumers[c]? = some k ∧ k.closed = false ∧ h.memory? k.provider = none ∧ k.line = none ∧
    k.backoff.next? = none ∧ e = .subscriptionLost k.key k.backoff.attempts

structure Charged (most n : Nat) (c : ConsumerId) (laps : List (Hub × Lap)) (now : Nat)
    (r : Polled × Hub) : Prop where
  fair : AllFair most c n laps
  /-- All laps but the last are rests that take no time. -/
  answers : ∃ rested g t, laps = rested ++ [(g, t)] ∧ (∀ x ∈ rested, x.2 = .rests 0) ∧
    r.1 = t.answer now
  paced : Paced most (spent n laps) c r.2
  within : n + rests laps ≤ most
  pending : ∀ a, r.1 = .pending a → spent n laps = n + rests laps
  retry : ∀ t, r.1 = .pending (.retry t) → 0 < rests laps
  failed : ∀ e, r.1 = .failed e →
    (∀ k, r.2.consumers[c]? = some k → r.2.memory? k.provider = none) →
    r.2.Broken c e

theorem charged_settled {now : Nat} {p : Polled} (paced : Paced most n c h)
    (lap : h.lap c = (.settled p, h')) : Charged most n c [(h, .settled p)] now (p, h') := by
  have fair := lap_fair paced
  rw [lap] at fair
  obtain ⟨k, known, -⟩ := paced.counted
  have cases := lapped known
  rw [lap] at cases
  refine ⟨⟨fair.1, trivial⟩, ⟨[], h, .settled p, rfl, by simp, rfl⟩, fair.2,
    paced.within, ?_, ?_, ?_⟩
  · rintro a rfl
    rfl
  · rintro t rfl
    exact absurd (by rw [lap]) (lap_not_retry known t)
  · rintro e rfl server
    cases cases with
    | heard opened heard =>
      have listened := listened h c k
      rw [heard] at listened
      cases listened
    | failed opened lost known' gone nothing =>
      have listened := lost ▸ listened h c k
      have homes := (listen_sound paced.sound known listened).2.rewired.homes k.provider
      have away := server _ known'
      dsimp only at homes away
      rw [away] at homes
      have away' : h.memory? k.provider = none := by simpa using homes.symm
      refine ⟨_, known', opened, away, gone away', ?_, ?_⟩
      · simp [Backoff.next?, Nat.not_lt.mpr nothing]
      · simp [exhausted, away]

theorem charged_fuel {fuel now : Nat} (paced : Paced most n c h) (enough : Enough fuel h c) :
    Charged most n c (lapsFuel fuel c h) now (pollFuel fuel now c h) := by
  induction fuel generalizing h n with
  | zero => exact absurd enough.1 (Nat.lt_irrefl 0)
  | succ fuel ih =>
    have fair := lap_fair paced
    rw [pollFuel_succ, lapsFuel]
    cases turn : h.lap c with
    | mk t h₁ =>
      rw [turn] at fair
      dsimp only at fair
      cases t with
      | settled p => exact charged_settled paced turn
      | rests delay =>
        obtain ⟨first, paced₁⟩ := fair
        by_cases soon : delay = 0
        · -- The loop goes on with one retry less.
          subst soon
          have enough' : Enough fuel (h₁.renew c) c := by
            obtain ⟨k₂, known₂, policy, attempts⟩ := (renew_paced paced₁).counted
            obtain ⟨k, known, policy', attempts'⟩ := paced.counted
            have some_left := (first.rests.mp ⟨0, rfl⟩).2
            have budget := enough.2 k known
            have counted : k₂.backoff.attempts = n + 1 := attempts
            refine ⟨by omega, fun k' known' => ?_⟩
            cases known₂.symm.trans known'
            omega
          obtain ⟨fair, ⟨rested, g, t, parts, soon, answer⟩, paced', within, pending,
            retry, failed⟩ :=
            ih (renew_paced paced₁) enough'
          have one : rests ((h, Lap.rests 0) :: lapsFuel fuel c (h₁.renew c)) =
              rests (lapsFuel fuel c (h₁.renew c)) + 1 := List.countP_cons_of_pos rfl
          have counted : (Lap.rests 0).tally n = n + 1 := rfl
          simp only [if_true]
          refine ⟨⟨first, fair⟩, ⟨(h, .rests 0) :: rested, g, t, ?_, ?_, answer⟩, paced', ?_,
            fun a same => ?_, fun t same => ?_, failed⟩
          · rw [parts, List.cons_append]
          · intro x member
            rcases List.mem_cons.mp member with rfl | later
            · rfl
            · exact soon x later
          · omega
          · have later := pending a same
            have all : spent n ((h, Lap.rests 0) :: lapsFuel fuel c (h₁.renew c)) =
                spent ((Lap.rests 0).tally n) (lapsFuel fuel c (h₁.renew c)) := rfl
            omega
          · omega
        · simp only [soon, if_false]
          refine ⟨⟨first, trivial⟩, ⟨[], h, .rests delay, rfl, by simp, rfl⟩, paced₁,
            (first.rests.mp ⟨delay, rfl⟩).2, fun a _ => rfl,
            fun t _ => Nat.one_pos, fun e same => by cases same⟩

theorem poll_charged (paced : Paced most n c h) (now : Nat) (a : Awaiting) (due : Due a now) :
    Charged most n c (h.pollLaps now c a) now (h.poll now c a) := by
  obtain ⟨settles, laps⟩ := poll_due (h := h) (c := c) due
  rw [settles, laps]
  refine charged_fuel ?_ (pollBudget_enough _ c)
  cases a with
  | news => exact paced
  | retry t => exact renew_paced paced

end Hub

end SubscriptionGateway.Broker
