import SubscriptionGateway.Proofs.Engine.Routing
import Mathlib.Algebra.BigOperators.Intervals
import Mathlib.Algebra.Order.BigOperators.Group.Finset
import Mathlib.Algebra.Group.Action.Defs

/-!
What actions write into the ledger of events in flight. It is written at several places; each raises
and lowers it as the inboxes and the events in hand change, and takes away no more than these amount
to.
-/
namespace SubscriptionGateway

open Broker

/-- For whose event an action is, of those that deliveries have taken out of their inboxes. -/
def Engine.Action.engages? : Engine.Action → Option SubscriptionId
  | .resolve s _ | .deliverOutcome s _ => some s
  | .offer _ _ (.event s) | .enqueue _ _ _ (.event s) => some s
  | _ => none

namespace Engine

def engaged (pool : List Action) : List SubscriptionId := pool.filterMap Action.engages?

def inboxAt (e : Engine) (s : SubscriptionId) : List BrokerEvent :=
  match e.subscribers[s]? with
  | some x => x.inbox
  | none => []

def stored (e : Engine) : Nat := (e.subscribers.map fun x => x.inbox.length).sum

variable {e e' e'' : Engine} {a : Action} {s : SubscriptionId} {x : Subscriber}
  {pool rest : List Action}

theorem inboxAt_found (found : e.subscribers[s]? = some x) : e.inboxAt s = x.inbox := by
  simp only [inboxAt, found]

theorem engaged_append (p q : List Action) : engaged (p ++ q) = engaged p ++ engaged q :=
  List.filterMap_append

/-! ## Sums over all inboxes -/

theorem sum_modify {α : Type} (g : α → Nat) (f : α → α) {l : List α} {i : Nat} {y : α}
    (here : l[i]? = some y) : ((l.modify i f).map g).sum + g y = (l.map g).sum + g (f y) := by
  induction l generalizing i with
  | nil => simp at here
  | cons z l ih =>
    cases i with
    | zero =>
      obtain rfl : z = y := by simpa using here
      simp only [List.modify_zero_cons, List.map_cons, List.sum_cons]
      omega
    | succ i =>
      have rest := ih (by simpa using here)
      simp only [List.modify_succ_cons, List.map_cons, List.sum_cons]
      omega

theorem stored_update (f : Subscriber → Subscriber) (found : e.subscribers[s]? = some x) :
    (e.updateSubscriber s f).stored + x.inbox.length = e.stored + (f x).inbox.length :=
  sum_modify (fun x => x.inbox.length) f found

theorem sum_range_getElem {α : Type} (g : α → Nat) (l : List α) :
    ∑ i ∈ Finset.range l.length, (l[i]?.map g).getD 0 = (l.map g).sum := by
  induction l with
  | nil => rfl
  | cons y l ih =>
    rw [List.length_cons, Finset.sum_range_succ', List.map_cons, List.sum_cons, ← ih, Nat.add_comm]
    simp

theorem inboxAt_length (e : Engine) (s : SubscriptionId) :
    (e.inboxAt s).length = (e.subscribers[s]?.map fun x => x.inbox.length).getD 0 := by
  simp only [inboxAt]
  cases e.subscribers[s]? <;> rfl

theorem stored_sum (e : Engine) :
    e.stored = ∑ s ∈ Finset.range e.subscribers.length, (e.inboxAt s).length := by
  simp only [inboxAt_length, sum_range_getElem, stored]

theorem stored_same (more : e.subscribers.length ≤ e'.subscribers.length)
    (same : ∀ s, e'.inboxAt s = e.inboxAt s) : e'.stored = e.stored := by
  rw [stored_sum, stored_sum]
  simp only [same]
  refine (Finset.sum_subset (Finset.range_subset_range.mpr more) fun s _ outside => ?_).symm
  have beyond : e.subscribers.length ≤ s := by simpa using outside
  simp [inboxAt, List.getElem?_eq_none beyond]

/-! ## What leaves the ledger alone -/

structure Still (e e' : Engine) : Prop where
  inbox : ∀ s, e'.inboxAt s = e.inboxAt s
  more : e.subscribers.length ≤ e'.subscribers.length
  inFlight : e'.inFlight = e.inFlight

theorem Still.stored (still : Still e e') : e'.stored = e.stored :=
  stored_same still.more still.inbox

theorem still_same (subscribers : e'.subscribers = e.subscribers)
    (inFlight : e'.inFlight = e.inFlight) : Still e e' :=
  ⟨fun s => by simp only [inboxAt, subscribers], Nat.le_of_eq (congrArg _ subscribers).symm,
    inFlight⟩

theorem still_refl (e : Engine) : Still e e := still_same rfl rfl

theorem still_trans (first : Still e e') (second : Still e' e'') : Still e e'' :=
  ⟨fun s => (second.inbox s).trans (first.inbox s), Nat.le_trans first.more second.more,
    second.inFlight.trans first.inFlight⟩

theorem still_after (first : Still e e') (subscribers : e''.subscribers = e'.subscribers)
    (inFlight : e''.inFlight = e'.inFlight) : Still e e'' :=
  still_trans first (still_same subscribers inFlight)

theorem still_before (second : Still e' e'') (subscribers : e'.subscribers = e.subscribers)
    (inFlight : e'.inFlight = e.inFlight) : Still e e'' :=
  still_trans (still_same subscribers inFlight) second

theorem still_update (e : Engine) (a : SubscriptionId) {f : Subscriber → Subscriber}
    (kept : ∀ x, (f x).inbox = x.inbox) : Still e (e.updateSubscriber a f) := by
  refine ⟨fun s => ?_, by simp [updateSubscriber], rfl⟩
  simp only [inboxAt, updateSubscriber, List.getElem?_modify]
  cases e.subscribers[s]? with
  | none => rfl
  | some x =>
    by_cases same : a = s
    · simp [same, kept]
    · simp [same]

theorem still_leave (e : Engine) (b : BindingId) (a : SubscriptionId) : Still e (e.leave b a) := by
  have dropped : Still e (e.dropMember b a) := by
    simp only [dropMember]
    split
    · exact still_before (still_update _ a fun _ => rfl) rfl rfl
    · exact still_same rfl rfl
  refine still_after dropped (closeIfIdle_subscribers ..) ?_
  simp only [leave, closeIfIdle]
  split
  · split <;> rfl
  · rfl

theorem still_endLife (e : Engine) (a : SubscriptionId) (f : Lifecycle → Bool × Lifecycle) :
    Still e (e.endLife a f) := by
  simp only [endLife]
  split
  · exact still_refl e
  · rename_i x _
    have past := still_update e a (f := fun y => { y with life := (f x.life).2 }) fun _ => rfl
    split
    · exact still_after past rfl rfl
    · exact past

theorem still_register (e : Engine) (b : BindingId) (a : SubscriptionId) :
    Still e (e.register b a).2 := by
  simp only [register]
  split
  · exact still_refl e
  rename_i x _
  have enrolled : Still e (e.enroll b a x) := by
    simp only [enroll]
    have placed :=
      still_update (e.updateBinding b fun y => { y with members := y.members ++ [a] }) a
      (f := fun y => { y with life := x.life.activate.2, binding? := some b }) fun _ => rfl
    have joined : Still e _ := still_before placed rfl rfl
    split <;> exact still_after joined rfl rfl
  simp only [attach]
  cases (e.enroll b a x).isClosed x.connection with
  | true =>
    have left := still_trans enrolled (still_leave (e.enroll b a x) b a)
    exact still_trans left (still_before (still_endLife _ a Lifecycle.cancel) rfl rfl)
  | false => exact still_after enrolled rfl rfl

theorem still_enter (e : Engine) (call : CallId) (b : BindingId) (a : SubscriptionId)
    (started : List (List Action)) : Still e (e.enter call b a started).engine := by
  obtain ⟨replies, deliveries, more, eq, -⟩ := enter_branches e call b a started
  rw [eq]
  exact still_after (still_register e b a) rfl rfl

theorem still_seek (e : Engine) (call : CallId) (a : SubscriptionId) (key : SourceKey) :
    Still e (e.seek call a key).engine := by
  simp only [seek, bindingFor]
  split <;> exact still_same rfl rfl

theorem still_stopFeeding (ss : List SubscriptionId) (e : Engine) : Still e (e.stopFeeding ss) :=
  stopFeeding_along still_refl (fun _ _ _ => still_trans) ss
    (fun a _ e => still_update e a fun _ => rfl) e

theorem still_empty (e : Engine) (b : BindingId) : Still e (e.empty b).2 := by
  simp only [empty]
  split <;> exact still_same rfl rfl

theorem still_depart (e : Engine) (a : SubscriptionId) (c : ConnectionId)
    (f : Lifecycle → Bool × Lifecycle) : Still e (((e.deregister a).endLife a f).detach c a) :=
  still_after (still_before (still_endLife (e.deregister a) a f) rfl rfl) rfl rfl

def Action.posts : Action → Bool
  | .fanOut .. | .deliverNext _ | .deliverOutcome .. | .endDelivery _ => true
  | .offer _ _ r | .enqueue _ _ _ r => match r with
    | .event _ => true
    | _ => false
  | _ => false

theorem still_enqueue (e : Engine) (c : ConnectionId) (f : Frame) (r : Receipt)
    (due : Nat) (other : (Action.enqueue c f due r).posts = false) :
    Still e (e.enqueue c f r).engine := by
  have replied (e' : Engine) (same : e'.subscribers = e.subscribers)
      (flight : e'.inFlight = e.inFlight) (result : Except Fault Unit) :
      Still e (e'.receipt result r).engine := by
    refine still_same ((receipt_subscribers ..).trans same) (Eq.trans ?_ flight)
    cases r with
    | event => simp [Action.posts] at other
    | ending => rfl
    | call => cases result <;> rfl
  rcases enqueue_cases e c f r with ⟨-, eq⟩ | ⟨-, e', fault, eq, rfl | rfl⟩ <;> rw [eq]
  · refine replied _ ?_ ?_ _ <;> rfl
  · exact replied e' rfl rfl _
  · exact replied (e.closeConnection c).2 rfl rfl _

theorem still_add (e : Engine) (x : Subscriber) (empty : x.inbox = []) :
    Still e { e with subscribers := e.subscribers ++ [x] } := by
  refine ⟨fun s => ?_, by simp, rfl⟩
  simp only [inboxAt]
  rcases Nat.lt_or_ge s e.subscribers.length with bound | beyond
  · rw [List.getElem?_append_left bound]
  · rw [List.getElem?_append_right beyond, List.getElem?_eq_none beyond]
    cases s - e.subscribers.length with
    | zero => simpa using empty
    | succ n => rfl

theorem perform_still (e : Engine) (a : Action) (other : a.posts = false) :
    Still e (e.perform a).engine := by
  cases a with
  | fanOut | deliverNext | deliverOutcome | endDelivery => simp [Action.posts] at other
  | subscribe call c clientId r =>
    rcases subscribe_cases e call c clientId r with ⟨fault, eq⟩ | ⟨compiled, -, -, eq⟩ <;> rw [eq]
    · exact still_same rfl rfl
    · exact still_trans (still_add e _ rfl) (still_seek _ call _ _)
  | join call b a =>
    rcases joinBinding_branches e call b a with eq | ⟨key, eq⟩ | eq | eq | ⟨due, eq⟩ <;>
    rw [perform, eq]
    · exact still_refl e
    · exact still_before (still_seek (e.unlist b) call a _) rfl rfl
    · exact still_enter e call b a []
    · exact still_same rfl rfl
    · exact still_same rfl rfl
  | openSource call b a due =>
    rcases openBinding_branches e call b a with eq | ⟨hub, fault, eq⟩ | ⟨hub, c, eq⟩ <;>
    rw [perform, eq]
    · exact still_refl e
    · exact still_same rfl rfl
    · exact still_before (still_enter _ call b a _) rfl rfl
  | unsubscribe a =>
    rcases unsubscribe_cases e a with eq | ⟨x, -, -, eq⟩ <;> rw [perform, eq]
    · exact still_refl e
    · exact still_depart e a _ _
  | terminate a t =>
    rcases terminate_cases e a t with eq | ⟨x, -, -, eq⟩ <;> rw [perform, eq]
    · exact still_refl e
    · exact still_trans (still_depart e a _ _) (still_update _ a fun _ => rfl)
  | leave b a => exact still_leave e b a
  | releaseInbox a => exact still_stopFeeding [a] e
  | failBinding b => exact still_after (still_empty e b) rfl rfl
  | sweep b =>
    exact still_after (still_trans (still_empty e b) (still_stopFeeding (e.empty b).1 _)) rfl rfl
  | enqueue c f due r => exact still_enqueue e c f r due other
  | offer c f r =>
    rcases offer_cases e c f r with ⟨-, eq⟩ | ⟨-, eq⟩ <;> rw [perform, eq]
    · cases r with
      | event => simp [Action.posts] at other
      | ending | call => exact still_same rfl rfl
    · exact still_refl e
  | dispatch call event =>
    simp only [perform]
    split <;> exact still_same rfl rfl
  | consume b c a =>
    obtain ⟨hub, next, eq, -⟩ := consumeNext_cases e b c a
    rw [perform, eq]
    exact still_same rfl rfl
  | runResolver r =>
    rcases runResolver_cases e r with eq | ⟨_, _, _, -, -, -, eq⟩ <;> rw [perform, eq] <;>
    exact still_same rfl rfl
  | release c =>
    rcases release_cases e c with ⟨-, eq⟩ | ⟨e', -, rfl, eq⟩ <;> rw [perform, eq] <;>
    exact still_same rfl rfl
  | awaitDrain | pollDeliveries =>
    simp only [perform]
    split <;> exact still_same rfl rfl
  | _ => exact still_same rfl rfl

/-! ## What an action writes into the ledger -/

/-- An action raises the ledger and lowers it by as much whatever stands in it, as the inboxes and
the events in hand change, and takes away no more than these amount to. -/
structure Balances (e : Engine) (a : Action) (up down : Nat) : Prop where
  exact : ∀ n, (({ e with inFlight := n } : Engine).perform a).engine.inFlight = n + up - down
  even : e.stored + (engaged [a]).length + up =
    (e.perform a).engine.stored + (engaged (e.perform a).sequel).length + down
  covered : down ≤ e.stored + (engaged [a]).length

theorem still_balances (other : a.posts = false)
    (same : (engaged (e.perform a).sequel).length = (engaged [a]).length) : Balances e a 0 0 where
  exact n := (perform_still { e with inFlight := n } a other).inFlight
  even := by rw [(perform_still e a other).stored, same]
  covered := Nat.zero_le _

theorem schedule_at (event : BrokerEvent) (s : SubscriptionId) (e : Engine) (n : Nat) :
    ({ e with inFlight := n } : Engine).schedule event s =
      ((e.schedule event s).1, { (e.schedule event s).2 with
        inFlight := n + if (e.schedule event s).1 then 1 else 0 }) := by
  simp only [schedule]
  cases e.subscribers[s]? with
  | none => rfl
  | some x =>
    simp only
    split
    · rfl
    split <;> rfl

theorem scheduleAll_at (event : BrokerEvent) (ss : List SubscriptionId) (e : Engine) (n : Nat) :
    scheduleAll event ss { e with inFlight := n } =
      ((scheduleAll event ss e).1, { (scheduleAll event ss e).2 with
        inFlight := n + (scheduleAll event ss e).1 }) := by
  induction ss generalizing e n with
  | nil => rfl
  | cons s ss ih =>
    have sum (given : Bool) (m : Nat) :
        n + (if given then 1 else 0) + m = n + if given then m + 1 else m := by
      split <;> omega
    rw [scheduleAll, scheduleAll, schedule_at]
    dsimp only
    rw [ih, sum]

theorem schedule_stored (event : BrokerEvent) (s : SubscriptionId) (e : Engine) :
    (e.schedule event s).2.stored = e.stored + if (e.schedule event s).1 then 1 else 0 := by
  cases found : e.subscribers[s]? with
  | none => simp only [schedule, found, Bool.false_eq_true, ↓reduceIte, Nat.add_zero]
  | some x =>
    have taken := stored_update (fun x => { x with inbox := x.inbox ++ [event] }) found
    simp only [List.length_append, List.length_singleton] at taken
    simp only [schedule, found]
    split
    · rfl
    split
    · rfl
    · have same : ({ e.updateSubscriber s (fun x => { x with inbox := x.inbox ++ [event] }) with
          inFlight := e.inFlight + 1 } : Engine).stored =
          (e.updateSubscriber s fun x => { x with inbox := x.inbox ++ [event] }).stored := rfl
      simp only [↓reduceIte, same]
      omega

theorem scheduleAll_stored (event : BrokerEvent) (ss : List SubscriptionId) (e : Engine) :
    (scheduleAll event ss e).2.stored = e.stored + (scheduleAll event ss e).1 := by
  induction ss generalizing e with
  | nil => rfl
  | cons s ss ih =>
    simp only [scheduleAll, ih, schedule_stored]
    split <;> omega

theorem fanOut_balances (call? : Option CallId) (b : BindingId) (event : BrokerEvent) :
    Balances e (.fanOut call? b event) (scheduleAll event (e.targets b) e).1 0 := by
  have targets (n : Nat) : ({ e with inFlight := n } : Engine).targets b = e.targets b := rfl
  refine ⟨fun n => ?_, ?_, Nat.zero_le _⟩
  · simp only [perform, fanOut_targets, targets, scheduleAll_at]
    cases call? <;> rfl
  · have engages : engaged [Action.fanOut call? b event] = [] := rfl
    have sum := scheduleAll_stored event (e.targets b) e
    simp only [perform, fanOut_targets, engages, List.length_nil, Nat.add_zero]
    cases call? <;> exact sum.symm

theorem engaged_last (clientId : String) (c : ConnectionId) (s : SubscriptionId) (t : Termination) :
    engaged ((lastFrames clientId t).map (fun f => .offer c f (.ending s)) ++ [.endDelivery s]) =
      [] := by
  cases t <;> rfl

theorem idle_balances
    (keeps : ∀ n, (({ e with inFlight := n } : Engine).perform a).engine.inFlight = n)
    (same : (e.perform a).engine.subscribers = e.subscribers)
    (engages : (engaged (e.perform a).sequel).length = (engaged [a]).length) :
    Balances e a 0 0 where
  exact := keeps
  even := by rw [engages, stored, stored, same]
  covered := Nat.zero_le _

theorem done_balances
    (lowers : ∀ n, (({ e with inFlight := n } : Engine).perform a).engine.inFlight = n - 1)
    (same : (e.perform a).engine.subscribers = e.subscribers)
    (held : (engaged [a]).length = 1) (free : engaged (e.perform a).sequel = []) :
    Balances e a 0 1 where
  exact := lowers
  even := by rw [free, held, stored, stored, same]; rfl
  covered := by omega

theorem deliverNext_balances (e : Engine) (s : SubscriptionId) :
    ∃ up down, Balances e (.deliverNext s) up down := by
  have idle (next : List Action) (here : ∀ n, ({ e with inFlight := n } : Engine).perform
        (.deliverNext s) = ⟨{ e with inFlight := n }, next, []⟩) (none : engaged next = []) :
      ∃ up down, Balances e (.deliverNext s) up down := by
    have now : e.perform (.deliverNext s) = _ := here e.inFlight
    refine ⟨0, 0, idle_balances (fun n => by rw [here]) (by rw [now]) ?_⟩
    rw [now, Effect.sequel, List.flatten_nil, List.append_nil, none]
    rfl
  cases found : e.subscribers[s]? with
  | none => exact idle [] (fun n => by simp only [perform, deliverNext, found]) rfl
  | some x =>
    have here (n : Nat) : ({ e with inFlight := n } : Engine).perform (.deliverNext s) =
        ({ e with inFlight := n } : Engine).deliverNext s := rfl
    simp only [deliverNext, found] at here
    split at here
    · exact idle _ here rfl
    split at here
    · exact idle _ here (engaged_last ..)
    split at here
    · rename_i event later inbox
      have taken : (e.updateSubscriber s fun x => { x with inbox := later }).stored +
          (later.length + 1) = e.stored + later.length := by
        have sum := stored_update (fun x => { x with inbox := later }) found
        rwa [inbox, List.length_cons] at sum
      split at here
      · refine ⟨0, 0, ⟨fun n => by rw [here]; rfl, ?_, Nat.zero_le _⟩⟩
        have now : e.perform (.deliverNext s) = _ := here e.inFlight
        rw [now]
        show e.stored + 0 + 0 = (e.updateSubscriber s _).stored + 1 + 0
        omega
      · refine ⟨0, 1, ⟨fun n => by rw [here]; rfl, ?_, by omega⟩⟩
        have now : e.perform (.deliverNext s) = _ := here e.inFlight
        rw [now]
        show e.stored + 0 + 0 = (e.updateSubscriber s _).stored + 0 + 1
        omega
    · split at here <;> exact idle _ here rfl

theorem deliverOutcome_balances {r : ResolutionId} {y : Resolving}
    (found : e.subscribers[s]? = some x) (resolving : e.resolutions[r]? = some y) :
    ∃ up down, Balances e (.deliverOutcome s r) up down := by
  have here (n : Nat) : ({ e with inFlight := n } : Engine).perform (.deliverOutcome s r) =
      ({ e with inFlight := n } : Engine).deliverOutcome s r := rfl
  simp only [deliverOutcome, found, resolving] at here
  split at here
  · have now : e.perform (.deliverOutcome s r) = _ := here e.inFlight
    exact ⟨0, 0, idle_balances (fun n => by rw [here]) (by rw [now]) (by rw [now]; rfl)⟩
  · have now : e.perform (.deliverOutcome s r) = _ := here e.inFlight
    exact ⟨0, 1,
      done_balances (fun n => by rw [here]; rfl) (by rw [now]; rfl) rfl (by rw [now]; rfl)⟩

theorem receipt_inFlight (e : Engine) (result : Except Fault Unit) (s : SubscriptionId) :
    (e.receipt result (.event s)).engine.inFlight = e.inFlight - 1 := by
  cases result <;> rfl

theorem offer_balances (e : Engine) (c : ConnectionId) (f : Frame) (s : SubscriptionId) :
    ∃ up down, Balances e (.offer c f (.event s)) up down := by
  cases closed : e.isClosed c with
  | true =>
    have here (n : Nat) : ({ e with inFlight := n } : Engine).perform (.offer c f (.event s)) =
        ({ e with inFlight := n } : Engine).receipt (.error Trouble.closed) (.event s) :=
      if_pos closed
    have now : e.perform (.offer c f (.event s)) = _ := here e.inFlight
    exact ⟨0, 1, done_balances (fun n => by rw [here, receipt_inFlight])
      (by rw [now, receipt_subscribers]) rfl (by rw [now]; rfl)⟩
  | false =>
    have here (n : Nat) : ({ e with inFlight := n } : Engine).perform (.offer c f (.event s)) =
        ⟨{ e with inFlight := n }, [.enqueue c f (e.now + e.setup.graceMs) (.event s)], []⟩ :=
      if_neg (by simpa [isClosed] using closed)
    have now : e.perform (.offer c f (.event s)) = _ := here e.inFlight
    exact ⟨0, 0, idle_balances (fun n => by rw [here]) (by rw [now]) (by rw [now]; rfl)⟩

theorem enqueue_inFlight (e : Engine) (c : ConnectionId) (f : Frame) (s : SubscriptionId) :
    (e.enqueue c f (.event s)).engine.inFlight = e.inFlight - 1 := by
  simp only [enqueue]
  split
  · exact receipt_inFlight ..
  split
  · exact receipt_inFlight ..
  split
  · refine (receipt_inFlight ..).trans ?_
    split <;> rfl
  · exact receipt_inFlight ..

theorem enqueue_balances (e : Engine) (c : ConnectionId) (f : Frame) (due : Nat)
    (s : SubscriptionId) : Balances e (.enqueue c f due (.event s)) 0 1 := by
  refine done_balances (fun n => enqueue_inFlight _ c f s) (enqueue_subscribers e c f _) rfl ?_
  refine sequel_silent fun b brings => ?_
  obtain ⟨_, -, rfl | rfl⟩ := brings <;> rfl

theorem endDelivery_balances (e : Engine) (s : SubscriptionId) :
    ∃ up down, Balances e (.endDelivery s) up down := by
  cases found : e.subscribers[s]? with
  | none =>
    have here (n : Nat) : ({ e with inFlight := n } : Engine).perform (.endDelivery s) =
        ⟨{ e with inFlight := n }, [], []⟩ := by simp only [perform, endDelivery, found]
    have now : e.perform (.endDelivery s) = _ := here e.inFlight
    exact ⟨0, 0, idle_balances (fun n => by rw [here]) (by rw [now]) (by rw [now]; rfl)⟩
  | some x =>
    have emptied :
      (e.updateSubscriber s fun x => { x with delivering := false, inbox := [] }).stored +
        x.inbox.length = e.stored :=
      stored_update (fun x => { x with delivering := false, inbox := [] }) found
    refine ⟨0, x.inbox.length, ⟨fun n => ?_, ?_, by omega⟩⟩
    · simp only [perform, endDelivery, found]
      rfl
    · simp only [perform, endDelivery, found]
      exact emptied.symm

def Supplied (e : Engine) : Action → Prop
  | .deliverOutcome s r => (∃ x, e.subscribers[s]? = some x) ∧ ∃ y, e.resolutions[r]? = some y
  | _ => True

theorem perform_balances (e : Engine) (a : Action) (supplied : Supplied e a) :
    ∃ up down, Balances e a up down := by
  cases a with
  | fanOut call? b event => exact ⟨_, 0, fanOut_balances call? b event⟩
  | deliverNext s => exact deliverNext_balances e s
  | deliverOutcome s r =>
    obtain ⟨⟨x, found⟩, y, resolving⟩ := supplied
    exact deliverOutcome_balances found resolving
  | endDelivery s => exact endDelivery_balances e s
  | resolve s event => exact ⟨0, 0, still_balances rfl rfl⟩
  | offer c f r =>
    cases r with
    | event s => exact offer_balances e c f s
    | ending s | call call =>
      refine ⟨0, 0, still_balances rfl (congrArg List.length (sequel_silent fun b brings => ?_))⟩
      obtain ⟨_, rfl⟩ | ⟨_, none, -⟩ := brings
      · rfl
      · cases none
  | enqueue c f due r =>
    cases r with
    | event s => exact ⟨0, 1, enqueue_balances e c f due s⟩
    | ending s | call call =>
      refine ⟨0, 0, still_balances rfl (congrArg List.length (sequel_silent fun b brings => ?_))⟩
      obtain ⟨_, none, -⟩ := brings
      cases none
  | _ =>
    refine ⟨0, 0, still_balances rfl (congrArg List.length (sequel_silent fun b brings => ?_))⟩
    cases b with
    | resolve | deliverOutcome => simp [Action.Brings] at brings
    | offer c f r | enqueue c f due r => cases r <;> simp_all [Action.Brings]
    | _ => rfl

end Engine

end SubscriptionGateway
