import SubscriptionGateway.Proofs.Engine.Operations
import Mathlib.Data.Fintype.EquivFin

/-!
What an action leaves alone. An action touches few subscriptions; every other one keeps its inbox
and its delivery, and at most ends. Who a subscription is for never changes, and a connection that
is closed stays closed.
-/
namespace SubscriptionGateway

open Broker

structure Subscriber.Same (x x' : Subscriber) : Prop where
  clientId : x'.clientId = x.clientId
  connection : x'.connection = x.connection
  compiled : x'.compiled = x.compiled

/-- Nothing but that it may have ended. -/
structure Subscriber.SameButEnded (x x' : Subscriber) : Prop where
  inbox : x'.inbox = x.inbox
  delivering : x'.delivering = x.delivering
  termination : x'.termination? = x.termination?
  phase : x'.life.phase = x.life.phase ∨ x'.life.phase = .cancelled

namespace Engine

variable {s : SubscriptionId} {e e' e'' : Engine}

structure Spares (s : SubscriptionId) (e e' : Engine) : Prop where
  subscriber : ∀ a x, e.subscribers[a]? = some x →
    ∃ x', e'.subscribers[a]? = some x' ∧ x.Same x' ∧ (a = s → x.SameButEnded x')
  absent : e.subscribers[s]? = none → e'.subscribers[s]? = none
  closed : ∀ c, e'.isClosed c = false → e.isClosed c = false
  made : e'.connections.length = e.connections.length
  resolutions : e'.resolutions = e.resolutions
  setup : e'.setup = e.setup

theorem spares_same (subscribers : e'.subscribers = e.subscribers)
    (connections : e'.connections = e.connections) (resolutions : e'.resolutions = e.resolutions)
    (setup : e'.setup = e.setup) : Spares s e e' where
  subscriber _ x found := ⟨x, by rw [subscribers, found], ⟨rfl, rfl, rfl⟩,
    fun _ => ⟨rfl, rfl, rfl, .inl rfl⟩⟩
  absent none := by rw [subscribers, none]
  closed c isOpen := by simpa only [isClosed, connections] using isOpen
  made := by rw [connections]
  resolutions := resolutions
  setup := setup

theorem spares_refl (e : Engine) : Spares s e e := spares_same rfl rfl rfl rfl

theorem spares_trans (first : Spares s e e') (second : Spares s e' e'') : Spares s e e'' where
  subscriber a x found := by
    obtain ⟨x', found', same, steady⟩ := first.subscriber a x found
    obtain ⟨x'', found'', same', steady'⟩ := second.subscriber a x' found'
    refine ⟨x'', found'', ⟨same'.clientId.trans same.clientId,
      same'.connection.trans same.connection, same'.compiled.trans same.compiled⟩, fun here => ?_⟩
    have one := steady here
    have two := steady' here
    refine ⟨two.inbox.trans one.inbox, two.delivering.trans one.delivering,
      two.termination.trans one.termination, ?_⟩
    rcases two.phase with still | past
    · rw [still]
      exact one.phase
    · exact .inr past
  absent none := second.absent (first.absent none)
  closed c isOpen := first.closed c (second.closed c isOpen)
  made := second.made.trans first.made
  resolutions := second.resolutions.trans first.resolutions
  setup := second.setup.trans first.setup

theorem spares_before (second : Spares s e' e'') (subscribers : e'.subscribers = e.subscribers)
    (connections : e'.connections = e.connections) (resolutions : e'.resolutions = e.resolutions)
    (setup : e'.setup = e.setup) : Spares s e e'' :=
  spares_trans (spares_same subscribers connections resolutions setup) second

theorem spares_after (first : Spares s e e') (subscribers : e''.subscribers = e'.subscribers)
    (connections : e''.connections = e'.connections)
    (resolutions : e''.resolutions = e'.resolutions) (setup : e''.setup = e'.setup) :
    Spares s e e'' := spares_trans first (spares_same subscribers connections resolutions setup)

theorem spares_update {a : SubscriptionId} {f : Subscriber → Subscriber}
    (same : ∀ x : Subscriber, x.Same (f x))
    (steady : a ≠ s ∨ ∀ x : Subscriber, x.SameButEnded (f x)) :
    Spares s e (e.updateSubscriber a f) where
  subscriber i x found := by
    by_cases here : a = i
    · subst here
      refine ⟨f x, by simp [updateSubscriber, found], same x, fun is => ?_⟩
      rcases steady with other | steady
      · exact absurd is other
      · exact steady x
    · exact ⟨x, by simp [updateSubscriber, here, found], ⟨rfl, rfl, rfl⟩,
        fun _ => ⟨rfl, rfl, rfl, .inl rfl⟩⟩
  absent none := by simpa [updateSubscriber] using none
  closed _ isOpen := isOpen
  made := rfl
  resolutions := rfl
  setup := rfl

theorem spares_connection {c : ConnectionId} {f : Connection → Connection}
    (closes : ∀ z, z.closed = true → (f z).closed = true) :
    Spares s e (e.updateConnection c f) where
  subscriber _ x found := ⟨x, found, ⟨rfl, rfl, rfl⟩, fun _ => ⟨rfl, rfl, rfl, .inl rfl⟩⟩
  absent none := none
  closed a isOpen := by
    by_cases here : c = a
    · subst here
      simp only [isClosed, updateConnection, List.getElem?_modify_eq] at isOpen ⊢
      cases read : e.connections[c]? with
      | none => simp [read] at isOpen
      | some z =>
        simp only [read] at isOpen ⊢
        exact Bool.eq_false_iff.mpr fun closed => by simp [closes z closed] at isOpen
    · simpa [isClosed, updateConnection, here] using isOpen
  made := List.length_modify ..
  resolutions := rfl
  setup := rfl

theorem spares_close (e : Engine) (c : ConnectionId) : Spares s e (e.closeConnection c).2 :=
  spares_connection fun _ _ => rfl

/-! ## Operations -/

theorem spares_leave (e : Engine) (b : BindingId) (a : SubscriptionId) :
    Spares s e (e.leave b a) := by
  have fed (e : Engine) : Spares s e (e.updateSubscriber a fun x => { x with fed := false }) :=
    spares_update (fun _ => ⟨rfl, rfl, rfl⟩) (.inr fun _ => ⟨rfl, rfl, rfl, .inl rfl⟩)
  have dropped : Spares s e (e.dropMember b a) := by
    simp only [dropMember]
    split
    · exact spares_before (fed _) rfl rfl rfl rfl
    · exact spares_same rfl rfl rfl rfl
  refine spares_trans dropped ?_
  simp only [leave, closeIfIdle]
  split
  · split <;> exact spares_same rfl rfl rfl rfl
  · exact spares_refl _

theorem spares_endLife (e : Engine) (a : SubscriptionId) {f : Lifecycle → Bool × Lifecycle}
    (ends : ∀ l, (f l).2.phase = .cancelled) : Spares s e (e.endLife a f) := by
  simp only [endLife]
  split
  · exact spares_refl _
  · rename_i x _
    have past : Spares s e (e.updateSubscriber a fun y => { y with life := (f x.life).2 }) :=
      spares_update (fun _ => ⟨rfl, rfl, rfl⟩)
        (.inr fun _ => ⟨rfl, rfl, rfl, .inr (ends x.life)⟩)
    split
    · exact spares_after past rfl rfl rfl rfl
    · exact past

theorem spares_detach (e : Engine) (c : ConnectionId) (a : SubscriptionId) :
    Spares s e (e.detach c a) := spares_connection fun _ closed => closed

theorem spares_depart (e : Engine) (a : SubscriptionId) (c : ConnectionId)
    {f : Lifecycle → Bool × Lifecycle} (ends : ∀ l, (f l).2.phase = .cancelled) :
    Spares s e (((e.deregister a).endLife a f).detach c a) :=
  spares_trans (spares_before (spares_endLife (e.deregister a) a ends) rfl rfl rfl rfl)
    (spares_detach _ c a)

theorem spares_register (e : Engine) (b : BindingId) {a : SubscriptionId} (other : a ≠ s) :
    Spares s e (e.register b a).2 := by
  simp only [register]
  split
  · exact spares_refl _
  rename_i x _
  have enrolled : Spares s e (e.enroll b a x) := by
    simp only [enroll]
    have placed := spares_update (e := e.updateBinding b fun y =>
        { y with members := y.members ++ [a] }) (s := s)
      (f := fun y => { y with life := x.life.activate.2, binding? := some b })
      (fun _ => ⟨rfl, rfl, rfl⟩) (.inl other)
    have entered : Spares s e _ := spares_before placed rfl rfl rfl rfl
    split <;> exact spares_after entered rfl rfl rfl rfl
  simp only [attach]
  split
  · rename_i tried
    split at tried
    · simp at tried
    · injection tried with _ made
      subst made
      exact spares_trans enrolled (spares_connection fun _ closed => closed)
  · rename_i tried
    split at tried
    · injection tried with _ made
      subst made
      have left := spares_trans enrolled (spares_leave (s := s) (e.enroll b a x) b a)
      have ended := spares_endLife (s := s) (((e.enroll b a x).leave b a).deregister a) a
        (f := Lifecycle.cancel) fun _ => rfl
      exact spares_trans left (spares_before ended rfl rfl rfl rfl)
    · simp at tried

theorem spares_stopFeeding (ss : List SubscriptionId) (e : Engine) :
    Spares s e (e.stopFeeding ss) :=
  stopFeeding_along spares_refl (fun _ _ _ => spares_trans) ss
    (fun _ _ _ =>
      spares_update (fun _ => ⟨rfl, rfl, rfl⟩) (.inr fun _ => ⟨rfl, rfl, rfl, .inl rfl⟩)) e

theorem spares_empty (e : Engine) (b : BindingId) : Spares s e (e.empty b).2 := by
  simp only [empty]
  split <;> exact spares_same rfl rfl rfl rfl

theorem spares_seek (e : Engine) (call : CallId) (a : SubscriptionId) (key : SourceKey) :
    Spares s e (e.seek call a key).engine := by
  simp only [seek, bindingFor]
  split <;> exact spares_same rfl rfl rfl rfl

theorem spares_enter (e : Engine) (call : CallId) (b : BindingId) {a : SubscriptionId}
    (other : a ≠ s) (started : List (List Action)) :
    Spares s e (e.enter call b a started).engine := by
  obtain ⟨replies, deliveries, more, eq, -⟩ := enter_branches e call b a started
  rw [eq]
  exact spares_after (spares_register e b other) rfl rfl rfl rfl

theorem spares_schedule (e : Engine) (event : BrokerEvent) {a : SubscriptionId} (other : a ≠ s) :
    Spares s e (e.schedule event a).2 := by
  rcases schedule_branches e event a with eq | ⟨c, eq⟩ | eq <;> rw [eq]
  · exact spares_refl e
  · exact spares_close e c
  · exact spares_after (spares_update (f := fun x => { x with inbox := x.inbox ++ [event] })
      (fun _ => ⟨rfl, rfl, rfl⟩) (.inl other)) rfl rfl rfl rfl

theorem spares_scheduleAll (event : BrokerEvent) (ss : List SubscriptionId) (e : Engine)
    (others : s ∉ ss) : Spares s e (scheduleAll event ss e).2 :=
  scheduleAll_along spares_refl (fun _ _ _ => spares_trans) event ss
    (fun a member e => spares_schedule e event fun same : a = s => others (same ▸ member)) e

theorem spares_receipt (e : Engine) (result : Except Fault Unit) (r : Receipt) :
    Spares s e (e.receipt result r).engine := by
  obtain ⟨n, replies, next, eq, -⟩ := receipt_cases e result r
  rw [eq]
  exact spares_same rfl rfl rfl rfl

theorem spares_enqueue (e : Engine) (c : ConnectionId) (f : Frame) (r : Receipt) :
    Spares s e (e.enqueue c f r).engine := by
  rcases enqueue_cases e c f r with ⟨-, eq⟩ | ⟨-, e', fault, eq, rfl | rfl⟩ <;> rw [eq]
  · have queued := spares_connection (s := s) (e := e) (c := c)
      (f := fun x => { x with queue := x.queue ++ [f] }) fun _ closed => closed
    refine spares_trans ?_ (spares_receipt _ _ r)
    exact spares_after queued rfl rfl rfl rfl
  · exact spares_receipt e' _ r
  · exact spares_trans (spares_close e c) (spares_receipt _ _ r)

theorem spares_add (x : Subscriber) (other : s ≠ e.subscribers.length) :
    Spares s e { e with subscribers := e.subscribers ++ [x] } where
  subscriber a y found := by
    obtain ⟨bound, -⟩ := List.getElem?_eq_some_iff.mp found
    exact ⟨y, by simpa [List.getElem?_append_left bound] using found, ⟨rfl, rfl, rfl⟩,
      fun _ => ⟨rfl, rfl, rfl, .inl rfl⟩⟩
  absent none := by
    have bound := List.getElem?_eq_none_iff.mp none
    have beyond : e.subscribers.length < s := Nat.lt_of_le_of_ne bound (Ne.symm other)
    exact List.getElem?_eq_none (by simpa using Nat.succ_le_of_lt beyond)
  closed _ isOpen := isOpen
  made := rfl
  resolutions := rfl
  setup := rfl

/-! ## Actions -/

def Action.touches (e : Engine) (s : SubscriptionId) : Action → Prop
  | .subscribe .. => s = e.subscribers.length
  | .join _ _ a => s = a
  | .openSource _ _ a _ => s = a
  | .terminate a _ => s = a
  | .fanOut _ b _ => s ∈ e.targets b
  | .deliverNext a => s = a
  | .endDelivery a => s = a
  | _ => False

def Action.resolves : Action → Bool
  | .resolve .. => true
  | .endResolver .. => true
  | _ => false

theorem somebody_untouched (e : Engine) (a : Action) : ∃ s, ¬ a.touches e s := by
  have beyond (n : Nat) : n + 1 ≠ n := by omega
  cases a with
  | subscribe => exact ⟨_, beyond _⟩
  | join call b s => exact ⟨_, beyond s⟩
  | openSource call b s due => exact ⟨_, beyond s⟩
  | terminate s t => exact ⟨_, beyond s⟩
  | deliverNext s => exact ⟨_, beyond s⟩
  | endDelivery s => exact ⟨_, beyond s⟩
  | fanOut call? b event =>
    obtain ⟨s, absent⟩ := Infinite.exists_notMem_finset (e.targets b).toFinset
    exact ⟨s, by simpa [Action.touches] using absent⟩
  | _ => exact ⟨0, fun touched => touched⟩

theorem spares_clerical (e : Engine) {a : Action} (clerical : a.clerical = true) :
    Spares s e (e.perform a).engine := by
  obtain ⟨_, _, _, _, _, eq⟩ := clerical_engine e clerical
  rw [eq]
  exact spares_same rfl rfl rfl rfl

theorem perform_spares (e : Engine) (a : Action) (spared : ¬ a.touches e s)
    (other : a.resolves = false) : Spares s e (e.perform a).engine := by
  have update {a : SubscriptionId} (f : Subscriber → Subscriber) (whose : s ≠ a)
      (same : ∀ x : Subscriber, x.Same (f x)) (e : Engine) : Spares s e (e.updateSubscriber a f) :=
    spares_update same (.inl (Ne.symm whose))
  cases a with
  | subscribe call c clientId r =>
    rcases subscribe_cases e call c clientId r with ⟨fault, eq⟩ | ⟨compiled, -, -, eq⟩ <;> rw [eq]
    · exact spares_same rfl rfl rfl rfl
    · exact spares_trans (spares_add _ spared) (spares_seek _ call _ _)
  | join call b a =>
    rcases joinBinding_branches e call b a with eq | ⟨key, eq⟩ | eq | eq | ⟨due, eq⟩ <;>
    rw [perform, eq]
    · exact spares_refl e
    · exact spares_before (spares_seek (e.unlist b) call a _) rfl rfl rfl rfl
    · exact spares_enter e call b (Ne.symm spared) []
    · exact spares_same rfl rfl rfl rfl
    · exact spares_same rfl rfl rfl rfl
  | openSource call b a due =>
    rcases openBinding_branches e call b a with eq | ⟨hub, fault, eq⟩ | ⟨hub, c, eq⟩ <;>
    rw [perform, eq]
    · exact spares_refl e
    · exact spares_same rfl rfl rfl rfl
    · exact spares_before (spares_enter _ call b (Ne.symm spared) _) rfl rfl rfl rfl
  | unsubscribe a =>
    rcases unsubscribe_cases e a with eq | ⟨x, -, -, eq⟩ <;> rw [perform, eq]
    · exact spares_refl e
    · exact spares_depart e a _ fun _ => rfl
  | terminate a t =>
    rcases terminate_cases e a t with eq | ⟨x, -, -, eq⟩ <;> rw [perform, eq]
    · exact spares_refl e
    · exact spares_trans (spares_depart e a _ fun _ => rfl)
        (update (fun x => { x with termination? := some t }) spared (fun _ => ⟨rfl, rfl, rfl⟩) _)
  | leave b a => exact spares_leave e b a
  | releaseInbox a => exact spares_stopFeeding [a] e
  | fanOut call? b event =>
    obtain ⟨replies, eq⟩ := fanOut_engine e call? b event
    rw [eq]
    exact spares_after (spares_scheduleAll event (e.targets b) e spared) rfl rfl rfl rfl
  | failBinding b => exact spares_after (spares_empty e b) rfl rfl rfl rfl
  | deliverNext a =>
    obtain ⟨next, -, eq | ⟨rest, n, eq⟩⟩ := deliverNext_cases e a <;> rw [perform, eq]
    · exact spares_refl e
    · exact spares_after (update (fun x => { x with inbox := rest }) spared
        (fun _ => ⟨rfl, rfl, rfl⟩) e) rfl rfl rfl rfl
  | resolve | endResolver => simp [Action.resolves] at other
  | enqueue c f due r => exact spares_enqueue e c f r
  | endDelivery a =>
    rcases endDelivery_cases e a with eq | ⟨n, deliveries, eq⟩ <;> rw [perform, eq]
    · exact spares_refl e
    · exact spares_after (update (fun x => { x with delivering := false, inbox := [] }) spared
        (fun _ => ⟨rfl, rfl, rfl⟩) e) rfl rfl rfl rfl
  | release c =>
    rcases release_cases e c with ⟨-, eq⟩ | ⟨e', -, rfl, eq⟩ <;> rw [perform, eq]
    · exact spares_refl e
    · exact spares_before (spares_close _ c) rfl rfl rfl rfl
  | sweep b =>
    have emptied := spares_trans (spares_empty (s := s) e b) (spares_stopFeeding (e.empty b).1 _)
    exact spares_after emptied rfl rfl rfl rfl
  | connectionReleased => exact spares_same rfl rfl rfl rfl
  | _ => exact spares_clerical e rfl

theorem resolves_spares (e : Engine) (a : Action) (resolves : a.resolves = true) :
    (e.perform a).engine.subscribers = e.subscribers ∧
      (e.perform a).engine.connections = e.connections ∧ (e.perform a).engine.setup = e.setup := by
  cases a <;> first | exact ⟨rfl, rfl, rfl⟩ | simp [Action.resolves] at resolves

theorem perform_same (e : Engine) (a : Action) {x : Subscriber}
    (found : e.subscribers[s]? = some x) :
    ∃ x', (e.perform a).engine.subscribers[s]? = some x' ∧ x.Same x' := by
  cases resolves : a.resolves with
  | true => exact ⟨x, by rw [(resolves_spares e a resolves).1, found], rfl, rfl, rfl⟩
  | false =>
    obtain ⟨other, spared⟩ := somebody_untouched e a
    obtain ⟨x', found', same, -⟩ := (perform_spares e a spared resolves).subscriber s x found
    exact ⟨x', found', same⟩

theorem perform_closed (e : Engine) (a : Action) {c : ConnectionId}
    (isOpen : (e.perform a).engine.isClosed c = false) : e.isClosed c = false := by
  cases resolves : a.resolves with
  | true => simpa only [isClosed, (resolves_spares e a resolves).2.1] using isOpen
  | false =>
    obtain ⟨other, spared⟩ := somebody_untouched e a
    exact (perform_spares e a spared resolves).closed c isOpen

theorem perform_setup (e : Engine) (a : Action) :
    (e.perform a).engine.setup = e.setup ∧
      (e.perform a).engine.connections.length = e.connections.length := by
  cases resolves : a.resolves with
  | true =>
    obtain ⟨-, connections, setup⟩ := resolves_spares e a resolves
    exact ⟨setup, by rw [connections]⟩
  | false =>
    obtain ⟨other, spared⟩ := somebody_untouched e a
    have all := perform_spares e a spared resolves
    exact ⟨all.setup, all.made⟩

theorem perform_resolutions (e : Engine) (a : Action) (other : a.resolves = false) :
    (e.perform a).engine.resolutions = e.resolutions := by
  obtain ⟨other', spared⟩ := somebody_untouched e a
  exact (perform_spares e a spared other).resolutions

end Engine

end SubscriptionGateway
