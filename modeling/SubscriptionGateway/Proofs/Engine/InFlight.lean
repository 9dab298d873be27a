import SubscriptionGateway.Proofs.Engine.Balances
import SubscriptionGateway.Proofs.Engine.Parting

/-!
What the engine has in flight. The ledger counts the events in all inboxes and the events that
deliveries have in hand, at most one each. A delivery that has ended leaves nothing behind.
-/
namespace SubscriptionGateway

open Broker

namespace Engine

variable {e e' e'' : Engine} {a : Action} {s : SubscriptionId} {x : Subscriber}
  {pool rest : List Action}

/-! ## Inboxes and deliveries -/

theorem inboxAt_frame (same : e'.subscribers[s]? = e.subscribers[s]?) :
    e'.inboxAt s = e.inboxAt s := by
  simp only [inboxAt, same]

/-- Only a dispatch puts anything into an inbox; else its oldest events go, if any. -/
theorem perform_inbox (e : Engine) (a : Action) (s : SubscriptionId)
    (other : ∀ call? b event, a ≠ .fanOut call? b event) :
    (e.perform a).engine.inboxAt s <:+ e.inboxAt s := by
  have kept {e' : Engine} (same : e'.inboxAt s = e.inboxAt s) : e'.inboxAt s <:+ e.inboxAt s :=
    same ▸ List.suffix_refl _
  by_cases handled : a.handles e s
  · cases a with
    | fanOut call? b event => exact absurd rfl (other call? b event)
    | deliverNext s' =>
      obtain rfl : s = s' := handled
      simp only [perform, deliverNext]
      split
      · exact List.suffix_refl _
      rename_i x found
      split
      · exact List.suffix_refl _
      split
      · exact List.suffix_refl _
      split
      · rename_i event later inbox
        have popped : (e.updateSubscriber s fun x => { x with inbox := later }).inboxAt s =
            later := by simp [inboxAt, updateSubscriber, found]
        have before : e.inboxAt s = event :: later := (inboxAt_found found).trans inbox
        have shorter : (e.updateSubscriber s fun x => { x with inbox := later }).inboxAt s <:+
            e.inboxAt s := by
          rw [popped, before]
          exact List.suffix_cons event later
        split <;> exact shorter
      · split <;> exact List.suffix_refl _
    | endDelivery s' =>
      obtain rfl : s = s' := handled
      cases found : e.subscribers[s]? with
      | none => exact kept (by simp only [perform, endDelivery, found])
      | some x =>
        have emptied := inboxAt_found (endDelivery_record found)
        rw [emptied]
        exact List.nil_suffix
    | deliverOutcome | offer | enqueue => exact False.elim handled
    | _ => exact kept ((perform_still e _ rfl).inbox s)
  · exact kept (inboxAt_frame (perform_frame a handled))

theorem stands_on (supplied : Supplied e a) (found : e.subscribers[s]? = some x)
    (stand : a.stand? s ≠ none) :
    stands s (e.perform a).sequel ≠ [] ∨ (e.perform a).engine.inboxAt s = [] := by
  have goes {f : Effect} {b : Action} (member : b ∈ f.next) (here : b.stand? s ≠ none) :
      stands s f.sequel ≠ [] ∨ f.engine.inboxAt s = [] := by
    obtain ⟨t, stand⟩ := Option.ne_none_iff_exists'.mp here
    exact .inl (List.ne_nil_of_mem
      (List.mem_filterMap.mpr ⟨b, List.mem_append_left _ member, stand⟩))
  have replied (e' : Engine) (result : Except Fault Unit) :
      stands s (e'.receipt result (.event s)).sequel ≠ [] ∨
        (e'.receipt result (.event s)).engine.inboxAt s = [] := by
    cases result <;> exact goes List.mem_cons_self (by simp [Action.stand?])
  cases a with
  | deliverNext s' =>
    obtain rfl : s' = s := by simpa [Action.stand?] using stand
    simp only [perform, deliverNext, found]
    split
    · exact goes List.mem_cons_self (by simp [Action.stand?])
    split
    · exact goes (List.mem_append_right _ List.mem_cons_self) (by simp [Action.stand?])
    split
    · split <;> exact goes List.mem_cons_self (by simp [Action.stand?])
    · split <;> exact goes List.mem_cons_self (by simp [Action.stand?])
  | resolve s' event =>
    obtain rfl : s' = s := by simpa [Action.stand?] using stand
    exact goes List.mem_cons_self (by simp [Action.stand?])
  | deliverOutcome s' r =>
    obtain rfl : s' = s := by simpa [Action.stand?] using stand
    obtain ⟨-, y, resolving⟩ := supplied
    simp only [perform, deliverOutcome, found, resolving]
    split <;> exact goes List.mem_cons_self (by simp [Action.stand?])
  | offer c f r =>
    cases r with
    | event s' =>
      obtain rfl : s' = s := by simpa [Action.stand?] using stand
      simp only [perform, offer]
      split
      · exact replied e _
      · exact goes List.mem_cons_self (by simp [Action.stand?])
    | ending | call => simp [Action.stand?] at stand
  | enqueue c f due r =>
    cases r with
    | event s' =>
      obtain rfl : s' = s := by simpa [Action.stand?] using stand
      simp only [perform, enqueue]
      split
      · exact replied _ _
      split
      · exact replied _ _
      split <;> exact replied _ _
    | ending | call => simp [Action.stand?] at stand
  | endDelivery s' =>
    obtain rfl : s' = s := by simpa [Action.stand?] using stand
    exact .inr (inboxAt_found (endDelivery_record found))
  | _ => simp [Action.stand?] at stand

/-- Whose events may be put into its inbox has its delivery under way. -/
theorem Stage.stands {ts : List (List Action)} {isOpen : Prop} {ends : List Ending}
    {said : List (ConnectionId × Frame)} (stage : Stage s x isOpen said ends (chains s ts))
    (active : x.life.phase = .active) (delivering : x.delivering = true) :
    stands s ts.flatten ≠ [] := by
  have standing {chain : List Action} {b : Action} (linked : chain ∈ chains s ts)
      (inside : b ∈ chain) (here : b.stand? s ≠ none) : Engine.stands s ts.flatten ≠ [] := by
    obtain ⟨t, stand⟩ := Option.ne_none_iff_exists'.mp here
    exact List.ne_nil_of_mem (List.mem_filterMap.mpr ⟨b, mem_chains linked inside, stand⟩)
  generalize whole : chains s ts = l at stage standing
  cases stage with
  | before idle => exact absurd active idle
  | works a ongoing =>
    refine standing List.mem_cons_self List.mem_cons_self ?_
    cases a with
    | offer c f r | enqueue c f due r => cases r <;> simp_all [Action.works, Action.stand?]
    | _ => simp_all [Action.works, Action.stand?]
  | closes last | hands f due last =>
    refine standing (b := .endDelivery s) List.mem_cons_self ?_ (by simp [Action.stand?])
    simp [goodbye]
  | finished stopped => simp [delivering] at stopped

/-! ## Throughout -/

def Tended : Fact := fun e ts log => ∀ s, Attended s e ts log ∧ Parting s e ts log

theorem start_tended (setup : Setup) (hub : Hub) : Always (World.start setup hub) Tended where
  loose perm tended s := (start_parting setup hub s).loose perm (tended s)
  throughout moves s := (start_parting setup hub s).throughout moves

structure Ledger (e : Engine) (pool : List Action) : Prop where
  even : e.inFlight = e.stored + (engaged pool).length
  tended : ∀ s, e.inboxAt s ≠ [] → stands s pool ≠ []
  short : ∀ s, (e.inboxAt s).length ≤ max e.setup.inboxCapacity 1

/-- An action writes into the ledger what it stands for, and takes no more away than it holds. -/
def Exact (e : Engine) (a : Action) : Prop :=
  ∃ up down, (∀ n, (({ e with inFlight := n } : Engine).perform a).engine.inFlight =
    n + up - down) ∧ down ≤ e.inFlight

variable {ts : List (List Action)} {log : Steps}

theorem Tended.delivery (tended : Tended e ts log) (pending : ts.flatten = pool)
    (s : SubscriptionId) : Delivery s e pool (happened log) := pending ▸ (tended s).1.2

theorem tended_present (tended : Tended e ts log) (pending : ts.flatten = pool)
    (member : a ∈ pool) (stand : a.stand? s ≠ none) :
    ∃ x, e.subscribers[s]? = some x ∧ Story s e pool (happened log) x := by
  have delivery := tended.delivery pending s
  cases found : e.subscribers[s]? with
  | some x => exact ⟨x, rfl, delivery.present x found⟩
  | none =>
    exact absurd (List.filterMap_eq_nil_iff.mp (delivery.absent found).1.1 a member) stand

theorem tended_supplied (tended : Tended e ts log) (pending : ts.flatten = a :: rest) :
    Supplied e a := by
  cases a with
  | deliverOutcome s r =>
    have stand : (Action.deliverOutcome s r).stand? s = some (.outcome r) := by
      simp [Action.stand?]
    obtain ⟨x, found, story⟩ := tended_present tended pending List.mem_cons_self
      (by rw [stand]; exact Option.some_ne_none _)
    obtain ⟨-, ahead, -, y, resolving, -, -⟩ := story.unfinished stand (by simp)
    exact ⟨⟨x, found⟩, y, resolving⟩
  | _ => trivial

theorem fanOut_inbox (call? : Option CallId) (b : BindingId) (event : BrokerEvent) {d : Duties}
    (sound : e.books.Sound d) (s : SubscriptionId) :
    (e.perform (.fanOut call? b event)).engine.inboxAt s = e.inboxAt s ∨
      ∃ x, e.subscribers[s]? = some x ∧ x.life.phase = .active ∧ x.delivering = true ∧
        ((e.perform (.fanOut call? b event)).engine.inboxAt s).length ≤
          max e.setup.inboxCapacity 1 := by
  have given := (scheduleAll_given event (targets_nodup sound b) e).subscribers s
  have same : (e.perform (.fanOut call? b event)).engine.subscribers[s]? =
      (scheduleAll event (e.targets b) e).2.subscribers[s]? := by
    simp only [perform, fanOut_targets]
    cases call? <;> rfl
  by_cases taken : s ∈ e.targets b ∧ e.admits s = true
  · obtain ⟨target, admits⟩ := taken
    have active := targets_active target
    cases found : e.subscribers[s]? with
    | none => simp [Engine.admits, found] at admits
    | some x =>
      rw [found, Option.map_some, if_pos ⟨target, admits⟩, ← same] at given
      obtain ⟨delivering, room⟩ : x.delivering = true ∧ e.isFull x = false := by
        simpa [Engine.admits, found] using admits
      have room : x.inbox.length < max e.setup.inboxCapacity 1 :=
        Nat.lt_of_not_le (of_decide_eq_false room)
      refine .inr ⟨x, rfl, ?_, delivering, ?_⟩
      · simpa [isActive, found, Lifecycle.isActive] using active
      · rw [inboxAt_found given, Subscriber.take, List.length_append]
        exact room
  · refine .inl (inboxAt_frame (same.trans (given.trans ?_)))
    simp only [taken, ↓reduceIte, Option.map_id']

theorem filled_stands (pending : ts.flatten = a :: rest) (tended : Tended e ts log)
    (before : Ledger e (a :: rest)) (filled : (e.perform a).engine.inboxAt s ≠ []) :
    stands s (a :: rest) ≠ [] := by
  have kept (same : e.inboxAt s ≠ []) : stands s (a :: rest) ≠ [] := before.tended s same
  by_cases dispatches : ∃ call? b event, a = .fanOut call? b event
  · obtain ⟨call?, b, event, rfl⟩ := dispatches
    have sound := (tended s).1.1.1.1.sound pending
    rcases fanOut_inbox call? b event sound s with same |
      ⟨x, found, active, delivering, -⟩
    · exact kept (same ▸ filled)
    · exact pending ▸ ((tended s).2.present x found).stage.stands active delivering
  · refine kept fun empty => filled ?_
    have shorter := perform_inbox e a s fun call? b event same => dispatches ⟨call?, b, event, same⟩
    exact List.suffix_nil.mp (empty ▸ shorter)

theorem perform_ledger (pending : ts.flatten = a :: rest) (tended : Tended e ts log)
    (before : Ledger e (a :: rest)) :
    Ledger (e.perform a).engine ((e.perform a).next ++ (e.perform a).started.flatten ++ rest) ∧
      Exact e a := by
  have supplied := tended_supplied tended pending
  obtain ⟨up, down, balances⟩ := perform_balances e a supplied
  have split : engaged (a :: rest) = engaged [a] ++ engaged rest := engaged_append [a] rest
  have even := before.even
  rw [split, List.length_append] at even
  have covered := balances.covered
  refine ⟨⟨?_, fun s filled => ?_, fun s => ?_⟩, up, down, balances.exact, by omega⟩
  · have after : (e.perform a).engine.inFlight = e.inFlight + up - down :=
      balances.exact e.inFlight
    have moved := balances.even
    rw [engaged_append, List.length_append, after]
    simp only [Effect.sequel] at moved
    omega
  · have standing := filled_stands pending tended before filled
    rw [stands_append]
    cases stand : a.stand? s with
    | none =>
      have same : stands s (a :: rest) = stands s rest := List.filterMap_cons_none stand
      exact List.append_ne_nil_of_right_ne_nil _ (same ▸ standing)
    | some t =>
      have stand : a.stand? s ≠ none := by simp [stand]
      obtain ⟨x, found, -⟩ := tended_present tended pending List.mem_cons_self stand
      rcases stands_on supplied found stand with goes | empty
      · exact List.append_ne_nil_of_left_ne_nil goes _
      · exact absurd empty filled
  · rw [(perform_setup e a).1]
    by_cases dispatches : ∃ call? b event, a = .fanOut call? b event
    · obtain ⟨call?, b, event, rfl⟩ := dispatches
      have sound := (tended s).1.1.1.1.sound pending
      rcases fanOut_inbox call? b event sound s with same | ⟨_, -, -, -, short⟩
      · exact same ▸ before.short s
      · exact short
    · have shorter := perform_inbox e a s fun call? b event same =>
        dispatches ⟨call?, b, event, same⟩
      exact Nat.le_trans shorter.length_le (before.short s)

theorem input_ledger (i : Input) (before : Ledger e pool) :
    Ledger (i.apply e) (i.task e ++ pool) := by
  obtain ⟨subscribers, -, setup⟩ := input_spares e i
  have flight : (i.apply e).inFlight = e.inFlight := by
    cases i with
    | take c most =>
      simp only [Input.apply, takeFrames]
      split <;> rfl
    | _ => rfl
  have still : Still e (i.apply e) := still_same subscribers flight
  have none : engaged (i.task e) = [] :=
    List.filterMap_eq_nil_iff.mpr fun a member => by cases task_begins member <;> rfl
  refine ⟨?_, fun s filled => ?_, fun s => ?_⟩
  · rw [flight, still.stored, engaged_append, none, List.nil_append, before.even]
  · rw [stands_append]
    exact List.append_ne_nil_of_right_ne_nil _ (before.tended s (still.inbox s ▸ filled))
  · rw [still.inbox s, setup]
    exact before.short s

theorem ledger_shuffle {pool' : List Action} (perm : pool.Perm pool') (before : Ledger e pool) :
    Ledger e pool' := by
  refine ⟨?_, fun s filled none => before.tended s filled ?_, before.short⟩
  · rw [before.even, engaged, engaged, (perm.filterMap _).length_eq]
  · have same : (stands s pool).Perm (stands s pool') := perm.filterMap _
    rw [none] at same
    exact same.eq_nil

theorem ledger_upheld :
    Upheld Tended fun e ts log => Ledger e ts.flatten ∧ ∀ p ∈ log, Exact p.1 p.2 := by
  refine upheld_pending (P := fun e pool log => Ledger e pool ∧ ∀ p ∈ log, Exact p.1 p.2) ?_ ?_ ?_
  · intro e p q log perm before
    exact ⟨ledger_shuffle perm before.1, before.2⟩
  · intro e ts log i _ before
    exact ⟨input_ledger i before.1, before.2⟩
  · intro e a rest ts log _ pending tended before
    obtain ⟨ledger, exact_⟩ := perform_ledger pending tended before.1
    refine ⟨ledger, fun p member => ?_⟩
    rcases List.mem_append.mp member with old | new
    · exact before.2 p old
    · obtain rfl := List.mem_singleton.mp new
      exact exact_

/-! ## Every play -/

namespace World

def runs (w : World) (s : SubscriptionId) : Bool := w.pending.any fun a => a.delivers? == some s

def isBusy (w : World) (s : SubscriptionId) : Bool := w.pending.any fun a => a.engages? == some s

/-- The events of a subscription: those in its inbox and the one in hand. -/
def load (w : World) (s : SubscriptionId) : Nat :=
  (w.state.inboxAt s).length + if w.isBusy s then 1 else 0

def running (w : World) : Finset SubscriptionId :=
  (Finset.range w.state.subscribers.length).filter fun s => w.runs s

end World

theorem engages_stands (engages : a.engages? = some s) : a.stand? s ≠ none := by
  cases a with
  | offer c f r | enqueue c f due r => cases r <;> simp_all [Action.engages?, Action.stand?]
  | _ => simp_all [Action.engages?, Action.stand?]

theorem stands_delivers (stand : a.stand? s ≠ none) : a.delivers? = some s := by
  cases a with
  | offer c f r | enqueue c f due r => cases r <;> simp_all [Action.delivers?, Action.stand?]
  | _ => simp_all [Action.delivers?, Action.stand?]

theorem count_engaged_le (s : SubscriptionId) (pool : List Action) :
    (engaged pool).count s ≤ (stands s pool).length := by
  induction pool with
  | nil => exact Nat.zero_le _
  | cons a pool ih =>
    have first : (engaged [a]).count s ≤ (stands s [a]).length := by
      by_cases here : a.engages? = some s
      · obtain ⟨t, stand⟩ := Option.ne_none_iff_exists'.mp (engages_stands here)
        simp [engaged, stands, here, stand]
      · have none : (engaged [a]).count s = 0 := by
          refine List.count_eq_zero.mpr fun member => ?_
          obtain ⟨b, inside, engages⟩ := List.mem_filterMap.mp member
          exact here (List.mem_singleton.mp inside ▸ engages)
        rw [none]
        exact Nat.zero_le _
    have split : a :: pool = [a] ++ pool := rfl
    rw [split, engaged_append, stands_append, List.count_append, List.length_append]
    exact Nat.add_le_add first ih

theorem count_engaged {talk : List Happening} (story : Story s e pool talk x) :
    (engaged pool).count s = if pool.any (fun a => a.engages? == some s) then 1 else 0 := by
  have few : (engaged pool).count s ≤ 1 := Nat.le_trans (count_engaged_le s pool) story.single
  have present : s ∈ engaged pool ↔ pool.any (fun a => a.engages? == some s) = true := by
    simp [engaged]
  by_cases busy : pool.any (fun a => a.engages? == some s) = true
  · rw [if_pos busy]
    exact Nat.le_antisymm few (List.count_pos_iff.mpr (present.mpr busy))
  · rw [if_neg busy]
    exact List.count_eq_zero.mpr (mt present.mp busy)

theorem start_ledger (setup : Setup) (hub : Hub) :
    Always (World.start setup hub) fun e ts log =>
      Tended e ts log ∧ Ledger e ts.flatten ∧ ∀ p ∈ log, Exact p.1 p.2 := by
  refine (start_tended setup hub).and ledger_upheld
    ⟨⟨rfl, fun s filled => ?_, fun s => ?_⟩, by simp⟩
  · simp [World.start, Engine.start, inboxAt] at filled
  · exact Nat.zero_le _

section Worlds

variable {w : World} {log : Steps}

/-- What is in flight, by subscriptions: only those count whose deliveries go on. -/
theorem ledger_load (tended : Tended w.state w.tasks log) (ledger : Ledger w.state w.pending) :
    w.state.inFlight = ∑ s ∈ w.running, w.load s := by
  have engaged_present : ∀ s ∈ engaged w.pending, s ∈ Finset.range w.state.subscribers.length := by
    intro s member
    obtain ⟨a, pending, engages⟩ := List.mem_filterMap.mp member
    obtain ⟨x, found, -⟩ := tended_present tended rfl pending (engages_stands engages)
    exact Finset.mem_range.mpr (List.getElem?_eq_some_iff.mp found).1
  have each : ∀ s ∈ Finset.range w.state.subscribers.length,
      (w.state.inboxAt s).length + (engaged w.pending).count s = w.load s := by
    intro s member
    have found := List.getElem?_eq_getElem (Finset.mem_range.mp member)
    have delivery : Delivery s w.state w.pending (happened log) := tended.delivery rfl s
    rw [count_engaged (delivery.present _ found)]
    rfl
  have idle : ∀ s ∈ Finset.range w.state.subscribers.length, s ∉ w.running → w.load s = 0 := by
    intro s member stopped
    have silent : ∀ a ∈ w.pending, a.stand? s = none := by
      intro a pending
      by_contra stand
      refine stopped (Finset.mem_filter.mpr ⟨member, List.any_eq_true.mpr ⟨a, pending, ?_⟩⟩)
      simp [stands_delivers stand]
    have empty : w.state.inboxAt s = [] := by
      by_contra filled
      exact ledger.tended s filled (List.filterMap_eq_nil_iff.mpr silent)
    have free : w.isBusy s = false := by
      refine List.any_eq_false.mpr fun a pending engages => ?_
      exact engages_stands (by simpa using engages) (silent a pending)
    simp [World.load, empty, free]
  have hand : (engaged w.pending).length =
      ∑ s ∈ Finset.range w.state.subscribers.length, (engaged w.pending).count s := by
    have all := Multiset.sum_count_eq_card (m := (engaged w.pending : Multiset SubscriptionId))
      engaged_present
    simpa only [Multiset.coe_count, Multiset.coe_card] using all.symm
  calc w.state.inFlight
      = w.state.stored + (engaged w.pending).length := ledger.even
    _ = (∑ s ∈ Finset.range w.state.subscribers.length, (w.state.inboxAt s).length) +
          ∑ s ∈ Finset.range w.state.subscribers.length, (engaged w.pending).count s := by
        rw [stored_sum, hand]
    _ = ∑ s ∈ Finset.range w.state.subscribers.length, w.load s := by
        rw [← Finset.sum_add_distrib]
        exact Finset.sum_congr rfl each
    _ = ∑ s ∈ w.running, w.load s :=
        (Finset.sum_subset (Finset.filter_subset _ _) idle).symm

theorem ledger_short (ledger : Ledger w.state w.pending) (s : SubscriptionId) :
    w.load s ≤ max w.state.setup.inboxCapacity 1 + 1 := by
  refine Nat.add_le_add (ledger.short s) ?_
  split
  · exact Nat.le_refl 1
  · exact Nat.zero_le 1

end Worlds

/-- The ledger is the number of events in the inboxes of the deliveries that go on and of those
they have in hand, at most one each. Nothing stands in it for a delivery that has ended, even when
its inbox was not empty, and no action takes off more than there is. -/
theorem in_flight_exact (setup : Setup) (hub : Hub) (moves : List Move) :
    let w := (World.start setup hub).play moves
    w.state.inFlight = ∑ s ∈ w.running, w.load s ∧
    (∀ s ∈ w.running, w.load s ≤ max setup.inboxCapacity 1 + 1) ∧
    w.state.inFlight ≤ w.running.card * (max setup.inboxCapacity 1 + 1) ∧
    (w.running = ∅ → w.state.inFlight = 0) ∧
    ∀ p ∈ (World.start setup hub).steps moves, Exact p.1 p.2 := by
  intro w
  obtain ⟨tended, ledger, exact_⟩ := (start_ledger setup hub).throughout moves
  have sum : w.state.inFlight = ∑ s ∈ w.running, w.load s := ledger_load tended ledger
  have kept : w.state.setup = setup := play_setup (World.start setup hub) moves
  have short (s : SubscriptionId) : w.load s ≤ max setup.inboxCapacity 1 + 1 :=
    kept ▸ ledger_short ledger s
  refine ⟨sum, fun s _ => short s, ?_, fun none => ?_, exact_⟩
  · rw [sum, ← smul_eq_mul]
    exact Finset.sum_le_card_nsmul _ _ _ fun s _ => short s
  · rw [sum, none, Finset.sum_empty]

def staffBusy : List Move :=
  staffMoves ++ [.input (.call (.dispatch staffEvent)), .step 2, .step 0, .step 1,
    .input (.call (.dispatch staffEvent)), .step 2, .step 0]

def staffLate : List Move :=
  staffBusy ++ [.input (.call (.unsubscribe 0)), .step 2, .step 0, .step 0, .step 0, .step 0,
    .step 0, .step 1, .step 0, .step 0, .step 0]

def staffGone : List Move := staffLate ++ [.step 0]

theorem staff_in_flight :
    ((World.start staffSetup staffHub).play staffBusy).state.inFlight = 2 ∧
    (∑ s ∈ ((World.start staffSetup staffHub).play staffBusy).running,
      ((World.start staffSetup staffHub).play staffBusy).load s) = 2 ∧
    ((World.start staffSetup staffHub).play staffLate).pending.map Action.delivers? = [some 0] ∧
    (((World.start staffSetup staffHub).play staffLate).state.inboxAt 0).length = 1 ∧
    ((World.start staffSetup staffHub).play staffGone).running = ∅ ∧
    ((World.start staffSetup staffHub).play staffGone).state.inFlight = 0 := by
  have two : ((World.start staffSetup staffHub).play staffBusy).state.inFlight = 2 := by
    decide +kernel
  have none : ((World.start staffSetup staffHub).play staffGone).running = ∅ := by decide +kernel
  have sum := (in_flight_exact staffSetup staffHub staffBusy).1
  have zero := (in_flight_exact staffSetup staffHub staffGone).2.2.2.1 none
  exact ⟨two, sum.symm.trans two, by decide +kernel, by decide +kernel, none, zero⟩

end Engine

end SubscriptionGateway
