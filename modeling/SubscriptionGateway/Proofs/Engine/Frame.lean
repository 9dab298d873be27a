import SubscriptionGateway.Proofs.Engine.Sparing

/-!
What an action leaves exactly as it is. Every action handles few records: the subscriptions and the
binding that it is about. Of all others not a field changes, and only the actions that administer
change what is registered, listed and counted.
-/
namespace SubscriptionGateway

open Broker

namespace Engine

variable {s : SubscriptionId} {e : Engine}

/-! ## Subscriptions -/

theorem updateSubscriber_other {a : SubscriptionId} (f : Subscriber → Subscriber) (other : a ≠ s) :
    (e.updateSubscriber a f).subscribers[s]? = e.subscribers[s]? := by
  simp [updateSubscriber, other]

theorem dropMember_other {b : BindingId} {a : SubscriptionId} (other : a ≠ s) :
    (e.dropMember b a).subscribers[s]? = e.subscribers[s]? := by
  simp only [dropMember]
  split
  · exact updateSubscriber_other _ other
  · rfl

theorem closeIfIdle_subscribers (e : Engine) (b : BindingId) :
    (e.closeIfIdle b).subscribers = e.subscribers := by
  simp only [closeIfIdle]
  split
  · split <;> rfl
  · rfl

theorem leave_other {b : BindingId} {a : SubscriptionId} (other : a ≠ s) :
    (e.leave b a).subscribers[s]? = e.subscribers[s]? := by
  rw [leave, closeIfIdle_subscribers, dropMember_other other]

theorem endLife_other {a : SubscriptionId} (f : Lifecycle → Bool × Lifecycle) (other : a ≠ s) :
    (e.endLife a f).subscribers[s]? = e.subscribers[s]? := by
  simp only [endLife]
  split
  · rfl
  · split <;> exact updateSubscriber_other _ other

theorem enroll_other {b : BindingId} {a : SubscriptionId} (x : Subscriber) (other : a ≠ s) :
    (e.enroll b a x).subscribers[s]? = e.subscribers[s]? := by
  simp only [enroll]
  split <;> exact updateSubscriber_other _ other

theorem register_other {b : BindingId} {a : SubscriptionId} (other : a ≠ s) :
    (e.register b a).2.subscribers[s]? = e.subscribers[s]? := by
  simp only [register]
  split
  · rfl
  rename_i x _
  simp only [attach]
  cases (e.enroll b a x).isClosed x.connection with
  | true =>
    simp only [↓reduceIte]
    rw [endLife_other _ other]
    exact (leave_other other).trans (enroll_other x other)
  | false => exact enroll_other x other

theorem stopFeeding_other {ss : List SubscriptionId} (others : s ∉ ss) :
    (e.stopFeeding ss).subscribers[s]? = e.subscribers[s]? :=
  stopFeeding_along (R := fun e e' => e'.subscribers[s]? = e.subscribers[s]?) (fun _ => rfl)
    (fun _ _ _ first second => second.trans first) ss
    (fun _ member _ => updateSubscriber_other _ fun same => others (same ▸ member)) e

theorem empty_subscribers (e : Engine) (b : BindingId) :
    (e.empty b).2.subscribers = e.subscribers := by
  simp only [empty]
  split <;> rfl

theorem seek_subscribers (e : Engine) (call : CallId) (a : SubscriptionId) (key : SourceKey) :
    (e.seek call a key).engine.subscribers = e.subscribers := by
  simp only [seek, bindingFor]
  split <;> rfl

theorem enter_other {call : CallId} {b : BindingId} {a : SubscriptionId} (other : a ≠ s)
    (started : List (List Action)) :
    (e.enter call b a started).engine.subscribers[s]? = e.subscribers[s]? := by
  obtain ⟨replies, deliveries, more, eq, -⟩ := enter_branches e call b a started
  rw [eq]
  exact register_other other

theorem schedule_other (event : BrokerEvent) {a : SubscriptionId} (other : a ≠ s) :
    (e.schedule event a).2.subscribers[s]? = e.subscribers[s]? := by
  rcases schedule_branches e event a with eq | ⟨c, eq⟩ | eq <;> rw [eq]
  · rfl
  · exact updateSubscriber_other _ other

theorem scheduleAll_other (event : BrokerEvent) {ss : List SubscriptionId} (others : s ∉ ss) :
    (scheduleAll event ss e).2.subscribers[s]? = e.subscribers[s]? :=
  scheduleAll_along (R := fun e e' => e'.subscribers[s]? = e.subscribers[s]?) (fun _ => rfl)
    (fun _ _ _ first second => second.trans first) event ss
    (fun _ member _ => schedule_other event fun same => others (same ▸ member)) e

theorem receipt_subscribers (e : Engine) (result : Except Fault Unit) (r : Receipt) :
    (e.receipt result r).engine.subscribers = e.subscribers := by
  cases r <;> cases result <;> rfl

theorem enqueue_subscribers (e : Engine) (c : ConnectionId) (f : Frame) (r : Receipt) :
    (e.enqueue c f r).engine.subscribers = e.subscribers := by
  rcases enqueue_cases e c f r with ⟨-, eq⟩ | ⟨-, e', fault, eq, rfl | rfl⟩ <;>
  exact congrArg (·.engine.subscribers) eq |>.trans (receipt_subscribers ..)

theorem clerical_subscribers (e : Engine) {a : Action} (clerical : a.clerical = true) :
    (e.perform a).engine.subscribers = e.subscribers := by
  obtain ⟨_, _, _, _, _, eq⟩ := clerical_engine e clerical
  rw [eq]

def Action.handles (e : Engine) (s : SubscriptionId) : Action → Prop
  | .subscribe .. => s = e.subscribers.length
  | .join _ _ a => s = a
  | .openSource _ _ a _ => s = a
  | .unsubscribe a => s = a
  | .terminate a _ => s = a
  | .leave _ a => s = a
  | .releaseInbox a => s = a
  | .fanOut _ b _ => s ∈ e.targets b
  | .sweep b => s ∈ (e.empty b).1
  | .deliverNext a => s = a
  | .endDelivery a => s = a
  | _ => False

theorem perform_frame (a : Action) (apart : ¬ a.handles e s) :
    (e.perform a).engine.subscribers[s]? = e.subscribers[s]? := by
  cases a with
  | subscribe call c clientId r =>
    have other : s ≠ e.subscribers.length := apart
    rcases subscribe_cases e call c clientId r with ⟨fault, eq⟩ | ⟨compiled, -, -, eq⟩ <;> rw [eq]
    · rfl
    rw [seek_subscribers]
    by_cases bound : s < e.subscribers.length
    · exact List.getElem?_append_left bound
    · have bound := Nat.le_of_not_lt bound
      have beyond : e.subscribers.length + 1 ≤ s := Nat.lt_of_le_of_ne bound (Ne.symm other)
      rw [List.getElem?_eq_none (by simpa using beyond), List.getElem?_eq_none bound]
  | join call b a =>
    rcases joinBinding_branches e call b a with eq | ⟨key, eq⟩ | eq | eq | ⟨due, eq⟩ <;>
    rw [perform, eq]
    · rw [seek_subscribers]
      rfl
    · exact enter_other (Ne.symm apart) []
    · rfl
    · rfl
  | openSource call b a due =>
    rcases openBinding_branches e call b a with eq | ⟨hub, fault, eq⟩ | ⟨hub, c, eq⟩ <;>
    rw [perform, eq]
    · rfl
    · exact enter_other (Ne.symm apart) _
  | unsubscribe a =>
    rcases unsubscribe_cases e a with eq | ⟨x, -, -, eq⟩ <;> rw [perform, eq]
    exact endLife_other (e := e.deregister a) Lifecycle.cancel (Ne.symm apart)
  | terminate a t =>
    rcases terminate_cases e a t with eq | ⟨x, -, -, eq⟩ <;> rw [perform, eq]
    rw [updateSubscriber_other _ (Ne.symm apart)]
    exact endLife_other (e := e.deregister a) Lifecycle.retire (Ne.symm apart)
  | leave b a => exact leave_other (Ne.symm apart)
  | releaseInbox a => exact stopFeeding_other (mt List.mem_singleton.mp apart)
  | fanOut call? b event =>
    obtain ⟨replies, eq⟩ := fanOut_engine e call? b event
    rw [eq]
    exact scheduleAll_other event apart
  | failBinding b => exact congrArg (·[s]?) (empty_subscribers e b)
  | deliverNext a =>
    obtain ⟨next, -, eq | ⟨rest, n, eq⟩⟩ := deliverNext_cases e a <;> rw [perform, eq]
    exact updateSubscriber_other _ (Ne.symm apart)
  | enqueue c f due r => exact congrArg (·[s]?) (enqueue_subscribers e c f r)
  | endDelivery a =>
    rcases endDelivery_cases e a with eq | ⟨n, deliveries, eq⟩ <;> rw [perform, eq]
    exact updateSubscriber_other _ (Ne.symm apart)
  | release c =>
    rcases release_cases e c with ⟨-, eq⟩ | ⟨e', -, rfl, eq⟩ <;> rw [perform, eq]
    rfl
  | sweep b =>
    have kept : (((e.empty b).2.stopFeeding (e.empty b).1)).subscribers[s]? =
          e.subscribers[s]? := by
      rw [stopFeeding_other apart, empty_subscribers]
    exact kept
  | resolve | endResolver | connectionReleased => rfl
  | _ => exact congrArg (·[s]?) (clerical_subscribers e rfl)

/-! ## Bindings and what is registered -/

/-- Bindings, the list of those in use, what is registered and counted as active, and who owns
it. -/
structure Apart (e e' : Engine) : Prop where
  bindings : e'.bindings = e.bindings
  listed : e'.listed = e.listed
  registered : e'.registered = e.registered
  subscriptions : e'.counters.subscriptions = e.counters.subscriptions
  owned : ∀ c, e'.owned c = e.owned c

theorem apart_refl (e : Engine) : Apart e e := ⟨rfl, rfl, rfl, rfl, fun _ => rfl⟩

theorem apart_trans {e e' e'' : Engine} (first : Apart e e') (second : Apart e' e'') :
    Apart e e'' :=
  ⟨second.bindings.trans first.bindings, second.listed.trans first.listed,
    second.registered.trans first.registered, second.subscriptions.trans first.subscriptions,
    fun c => (second.owned c).trans (first.owned c)⟩

theorem apart_connection {c : ConnectionId} {f : Connection → Connection}
    (kept : ∀ z, (f z).owned = z.owned) : Apart e (e.updateConnection c f) := by
  refine ⟨rfl, rfl, rfl, rfl, fun c' => ?_⟩
  simp only [owned, updateConnection, List.getElem?_modify]
  cases e.connections[c']? with
  | none => rfl
  | some z =>
    by_cases same : c = c'
    · simp [same, kept]
    · simp [same]

theorem apart_close (e : Engine) (c : ConnectionId) : Apart e (e.closeConnection c).2 :=
  apart_connection fun _ => rfl

def Action.administers : Action → Bool
  | .subscribe .. | .join .. | .openSource .. | .unsubscribe _ | .terminate .. => true
  | .leave .. | .failBinding _ | .sweep _ => true
  | _ => false

theorem apart_stopFeeding (ss : List SubscriptionId) (e : Engine) : Apart e (e.stopFeeding ss) :=
  stopFeeding_along apart_refl (fun _ _ _ => apart_trans) ss
    (fun _ _ _ => ⟨rfl, rfl, rfl, rfl, fun _ => rfl⟩) e

theorem apart_schedule (event : BrokerEvent) (a : SubscriptionId) (e : Engine) :
    Apart e (e.schedule event a).2 := by
  rcases schedule_branches e event a with eq | ⟨c, eq⟩ | eq <;> rw [eq]
  · exact apart_refl e
  · exact apart_close e c
  · exact ⟨rfl, rfl, rfl, rfl, fun _ => rfl⟩

theorem apart_scheduleAll (event : BrokerEvent) (ss : List SubscriptionId) (e : Engine) :
    Apart e (scheduleAll event ss e).2 :=
  scheduleAll_along apart_refl (fun _ _ _ => apart_trans) event ss
    (fun a _ e => apart_schedule event a e) e

theorem apart_receipt (e : Engine) (result : Except Fault Unit) (r : Receipt) :
    Apart e (e.receipt result r).engine := by
  cases r <;> cases result <;> exact ⟨rfl, rfl, rfl, rfl, fun _ => rfl⟩

theorem apart_enqueue (e : Engine) (c : ConnectionId) (f : Frame) (r : Receipt) :
    Apart e (e.enqueue c f r).engine := by
  rcases enqueue_cases e c f r with ⟨-, eq⟩ | ⟨-, e', fault, eq, rfl | rfl⟩ <;> rw [eq]
  · have queued : Apart e (e.updateConnection c fun x => { x with queue := x.queue ++ [f] }) :=
      apart_connection fun _ => rfl
    refine apart_trans ?_ (apart_receipt _ _ r)
    refine apart_trans queued ⟨rfl, rfl, rfl, ?_, fun _ => rfl⟩
    cases f.isMessage <;> rfl
  · exact apart_receipt e' _ r
  · exact apart_trans (apart_close e c) (apart_receipt _ _ r)

theorem apart_clerical (e : Engine) {a : Action} (clerical : a.clerical = true) :
    Apart e (e.perform a).engine := by
  obtain ⟨_, _, _, _, _, eq⟩ := clerical_engine e clerical
  rw [eq]
  exact ⟨rfl, rfl, rfl, rfl, fun _ => rfl⟩

theorem perform_apart (e : Engine) (a : Action) (other : a.administers = false) :
    Apart e (e.perform a).engine := by
  cases a with
  | subscribe | join | openSource | unsubscribe | terminate | leave | failBinding | sweep =>
    simp [Action.administers] at other
  | releaseInbox a => exact apart_stopFeeding [a] e
  | fanOut call? b event =>
    obtain ⟨replies, eq⟩ := fanOut_engine e call? b event
    rw [eq]
    exact apart_trans (apart_scheduleAll event (e.targets b) e) ⟨rfl, rfl, rfl, rfl, fun _ => rfl⟩
  | deliverNext a =>
    obtain ⟨next, -, eq | ⟨rest, n, eq⟩⟩ := deliverNext_cases e a <;> rw [perform, eq] <;>
    exact ⟨rfl, rfl, rfl, rfl, fun _ => rfl⟩
  | enqueue c f due r => exact apart_enqueue e c f r
  | endDelivery a =>
    rcases endDelivery_cases e a with eq | ⟨n, deliveries, eq⟩ <;> rw [perform, eq] <;>
    exact ⟨rfl, rfl, rfl, rfl, fun _ => rfl⟩
  | release c =>
    rcases release_cases e c with ⟨-, eq⟩ | ⟨e', -, rfl, eq⟩ <;> rw [perform, eq]
    · exact apart_refl e
    · have unmanaged : Apart e { e with managed := e.managed.filter (· != c) } :=
        ⟨rfl, rfl, rfl, rfl, fun _ => rfl⟩
      exact apart_trans unmanaged (apart_close _ c)
  | resolve | endResolver | connectionReleased => exact ⟨rfl, rfl, rfl, rfl, fun _ => rfl⟩
  | _ => exact apart_clerical e rfl

theorem input_apart (e : Engine) (i : Input) : Apart e (i.apply e) := by
  cases i with
  | connect t =>
    refine ⟨rfl, rfl, rfl, rfl, fun c => ?_⟩
    simp only [Input.apply, openConnection, owned, count]
    rcases Nat.lt_or_ge c e.connections.length with bound | beyond
    · rw [List.getElem?_append_left bound]
    · rw [List.getElem?_append_right beyond, List.getElem?_eq_none beyond]
      cases c - e.connections.length <;> rfl
  | close c => exact apart_close e c
  | cancel c | stopReading c => exact apart_connection fun _ => rfl
  | take c most =>
    simp only [Input.apply, takeFrames]
    split
    · exact apart_connection fun _ => rfl
    · exact apart_refl e
  | _ => exact ⟨rfl, rfl, rfl, rfl, fun _ => rfl⟩

end Engine

end SubscriptionGateway
