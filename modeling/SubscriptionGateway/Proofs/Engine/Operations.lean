import SubscriptionGateway.Proofs.Engine.Books

/-!
What each operation of the engine comes to: the state it makes, what its task goes on with and what
is started. The branches of an operation are gone through here once, and whoever goes through all
actions takes them from here.
-/
namespace SubscriptionGateway

open Broker

namespace Binding

def lock (y : Binding) : Binding := { y with locked := true }

def opened (y : Binding) : Binding := { y with phase := .opened, locked := false }

end Binding

namespace Engine

variable {e : Engine} {s : SubscriptionId} {b : BindingId} {c : ConnectionId} {call : CallId}

/-! ## Bookkeeping -/

theorem consumeNext_cases (e : Engine) (b : BindingId) (c : ConsumerId) (a : Hub.Awaiting) :
    ∃ hub next, e.consumeNext b c a = ⟨{ e with hub := hub }, next, []⟩ ∧
      ∀ x ∈ next, (∃ event, x = .fanOut none b event) ∨ (∃ a, x = .consume b c a) ∨
        x = .closeConsumer c ∨ x = .failBinding b := by
  simp only [consumeNext]
  split
  · exact ⟨e.hub, [], rfl, by simp⟩
  split
  · exact ⟨e.hub, _, rfl, by simp⟩
  split <;> exact ⟨_, _, rfl, by simp⟩

theorem runResolver_cases (e : Engine) (r : ResolutionId) :
    e.runResolver r = ⟨e, [], []⟩ ∨
    ∃ x y w, e.resolutions[r]? = some x ∧ e.subscribers[x.subscriber]? = some y ∧
      w = e.setup.resolve y.compiled x.event.payload ∧ e.runResolver r =
        ⟨{ e with sent := e.sent ++ w.sent?.toList },
          [.endResolver r w (e.now + w.takesMs)], []⟩ := by
  simp only [runResolver]
  split
  · exact .inl rfl
  split
  · exact .inl rfl
  · rename_i x found _ y who
    exact .inr ⟨x, y, _, found, who, rfl, rfl⟩

theorem deliverOutcome_cases (e : Engine) (s : SubscriptionId) (r : ResolutionId) :
    (∃ c f, e.deliverOutcome s r = ⟨e, [.offer c f (.event s)], []⟩) ∨
    e.deliverOutcome s r = ⟨e.doneWith 1, [.deliverNext s], []⟩ ∨
    e.deliverOutcome s r = ⟨e, [], []⟩ := by
  simp only [deliverOutcome]
  split
  · split
    · exact .inl ⟨_, _, rfl⟩
    · exact .inr (.inl rfl)
  · exact .inr (.inr rfl)

theorem receipt_cases (e : Engine) (result : Except Fault Unit) (r : Receipt) :
    ∃ n replies next, e.receipt result r =
        ⟨{ e with inFlight := n, replies := replies }, next, []⟩ ∧
      ∀ x ∈ next, ∃ s, r = .event s ∧
        (x = .deliverNext s ∧ result = .ok () ∨ x = .endDelivery s) := by
  cases r <;> cases result <;> exact ⟨_, _, _, rfl, by simp⟩

theorem offer_cases (e : Engine) (c : ConnectionId) (f : Frame) (r : Receipt) :
    (e.isClosed c = true ∧ e.offer c f r = e.receipt (.error Trouble.closed) r) ∨
    (e.isClosed c = false ∧
      e.offer c f r = ⟨e, [.enqueue c f (e.now + e.setup.graceMs) r], []⟩) := by
  simp only [offer]
  cases e.isClosed c with
  | true => exact .inl ⟨rfl, rfl⟩
  | false => exact .inr ⟨rfl, rfl⟩

def Action.clerical : Action → Bool
  | .dispatch .. | .consume .. | .closeConsumer _ | .runResolver _ | .deliverOutcome .. => true
  | .offer .. | .releaseAll | .shutdown _ | .awaitDrain .. | .terminateAll | .sweepAll => true
  | .awaitDeliveries | .pollDeliveries .. | .answer .. => true
  | _ => false

/-- Only the brokers, what is on its way and what has been answered are others then. -/
theorem clerical_engine (e : Engine) {a : Action} (clerical : a.clerical = true) :
    ∃ hub accepting inFlight sent replies, (e.perform a).engine =
      { e with
        hub := hub, accepting := accepting, inFlight := inFlight, sent := sent
        replies := replies } := by
  cases a with
  | dispatch call event =>
    simp only [perform]
    split <;> exact ⟨_, _, _, _, _, rfl⟩
  | consume b c a =>
    obtain ⟨hub, next, eq, -⟩ := consumeNext_cases e b c a
    exact ⟨_, _, _, _, _, congrArg Effect.engine eq⟩
  | runResolver r =>
    rcases runResolver_cases e r with eq | ⟨_, _, _, -, -, -, eq⟩ <;>
    exact ⟨_, _, _, _, _, congrArg Effect.engine eq⟩
  | deliverOutcome s r =>
    rcases deliverOutcome_cases e s r with ⟨_, _, eq⟩ | eq | eq <;>
    exact ⟨_, _, _, _, _, congrArg Effect.engine eq⟩
  | offer c f r =>
    obtain ⟨n, replies, next, told, -⟩ := receipt_cases e (.error Trouble.closed) r
    rcases offer_cases e c f r with ⟨-, eq⟩ | ⟨-, eq⟩
    · exact ⟨_, _, _, _, _, congrArg Effect.engine (eq.trans told)⟩
    · exact ⟨_, _, _, _, _, congrArg Effect.engine eq⟩
  | awaitDrain | pollDeliveries =>
    simp only [perform]
    split <;> exact ⟨_, _, _, _, _, rfl⟩
  | closeConsumer | releaseAll | shutdown | terminateAll | sweepAll | awaitDeliveries | answer =>
    exact ⟨_, _, _, _, _, rfl⟩
  | _ => cases clerical

/-! ## Subscribing -/

theorem subscribe_cases (e : Engine) (call : CallId) (c : ConnectionId) (clientId : String)
    (r : Request) :
    (∃ fault, e.perform (.subscribe call c clientId r) = e.fail call fault) ∨
    ∃ compiled, e.isClosed c = false ∧ e.setup.catalog.compile r = .ok compiled ∧
      e.perform (.subscribe call c clientId r) = ({ e with
        subscribers := e.subscribers ++ [{ clientId := clientId, connection := c, compiled }] } :
          Engine).seek call e.subscribers.length compiled.sourceKey := by
  simp only [perform]
  cases prepared : e.prepare c clientId r with
  | error fault => exact .inl ⟨fault, rfl⟩
  | ok found =>
    obtain ⟨s, key, e'⟩ := found
    obtain ⟨compiled, rfl, rfl, isOpen, compiles, rfl⟩ := prepare_ok e prepared
    exact .inr ⟨compiled, isOpen, compiles, rfl⟩

theorem seek_cases (e : Engine) (call : CallId) (s : SubscriptionId) (key : SourceKey) :
    (∃ b, e.bindingFor? key = some b ∧ e.seek call s key = ⟨e, [.join call b s], []⟩) ∨
    (e.bindingFor? key = none ∧ e.seek call s key =
      ⟨{ e with
          bindings := e.bindings ++ [({ key := key } : Binding)]
          listed := e.listed ++ [(key, e.bindings.length)] },
        [.join call e.bindings.length s], []⟩) := by
  simp only [seek, bindingFor]
  cases found : e.bindingFor? key with
  | some b => exact .inl ⟨b, rfl, rfl⟩
  | none => exact .inr ⟨rfl, rfl⟩

/-- Whoever has the lock of a binding enters it, opens it, or seeks another one of its key. -/
theorem joinBinding_cases (call : CallId) (s : SubscriptionId) {y : Binding}
    (here : e.bindings[b]? = some y) :
    (y.phase = .closed ∧ e.joinBinding call b s = (e.unlist b).seek call s y.key) ∨
    (y.phase = .opened ∧ e.accepting = true ∧ e.joinBinding call b s = e.enter call b s []) ∨
    (y.phase = .opened ∧ e.accepting = false ∧
      e.joinBinding call b s = e.fail call .shuttingDown) ∨
    (y.phase = .opening ∧ e.joinBinding call b s =
      ⟨e.updateBinding b Binding.lock,
        [.openSource call b s (e.now + e.setup.openDelayMs y.key.provider)], []⟩) := by
  simp only [joinBinding, here]
  cases phase : y.phase with
  | closed => exact .inl ⟨rfl, rfl⟩
  | opened =>
    cases accepting : e.accepting with
    | true => exact .inr (.inl ⟨rfl, rfl, rfl⟩)
    | false => exact .inr (.inr (.inl ⟨rfl, rfl, rfl⟩))
  | opening => exact .inr (.inr (.inr ⟨rfl, rfl⟩))

theorem joinBinding_branches (e : Engine) (call : CallId) (b : BindingId) (s : SubscriptionId) :
    e.joinBinding call b s = ⟨e, [], []⟩ ∨
    (∃ key, e.joinBinding call b s = (e.unlist b).seek call s key) ∨
    e.joinBinding call b s = e.enter call b s [] ∨
    e.joinBinding call b s = e.fail call .shuttingDown ∨
    ∃ due, e.joinBinding call b s =
      ⟨e.updateBinding b Binding.lock, [.openSource call b s due], []⟩ := by
  cases here : e.bindings[b]? with
  | none => exact .inl (by simp only [joinBinding, here])
  | some y =>
    right
    rcases joinBinding_cases call s here with ⟨-, eq⟩ | ⟨-, -, eq⟩ | ⟨-, -, eq⟩ | ⟨-, eq⟩
    · exact .inl ⟨_, eq⟩
    · exact .inr (.inl eq)
    · exact .inr (.inr (.inl eq))
    · exact .inr (.inr (.inr ⟨_, eq⟩))

def consumerFor? (e : Engine) (b : BindingId) : Option (ConsumerId × Hub) :=
  match e.bindings[b]? with
  | none => none
  | some y =>
    match e.hub.find y.key.provider with
    | .error _ => none
    | .ok p =>
      match e.hub.openConsumer p y.key with
      | (.error _, _) => none
      | (.ok c, hub) => some (c, hub)

theorem openBinding_cases (call : CallId) (s : SubscriptionId) {y : Binding}
    (here : e.bindings[b]? = some y) :
    (∃ fault hub, e.consumerFor? b = none ∧ e.openBinding call b s =
      ((({ e with hub := hub } : Engine).closeBinding b).unlist b).fail call fault) ∨
    (∃ c hub, e.consumerFor? b = some (c, hub) ∧ e.accepting = true ∧ e.openBinding call b s =
      (({ e with hub := hub } : Engine).updateBinding b Binding.opened).enter call b s
        [[.consume b c .news]]) ∨
    ∃ c hub, e.consumerFor? b = some (c, hub) ∧ e.accepting = false ∧ e.openBinding call b s =
      ((({ e with hub := hub.closeConsumer c } : Engine).closeBinding b).unlist b).fail call
        .shuttingDown := by
  cases provider : e.hub.find y.key.provider with
  | error fault =>
    left
    refine ⟨fault, e.hub, ?_, ?_⟩
    · simp only [consumerFor?, here, provider]
    · simp only [openBinding, here, provider]
  | ok p =>
    cases answer : e.hub.openConsumer p y.key with
    | mk result hub =>
      cases result with
      | error err =>
        left
        refine ⟨err.fault, hub, ?_, ?_⟩
        · simp only [consumerFor?, here, provider, answer]
        · simp only [openBinding, here, provider, answer]
      | ok c =>
        right
        have opens : e.consumerFor? b = some (c, hub) := by
          simp only [consumerFor?, here, provider, answer]
        cases accepting : e.accepting with
        | true =>
          left
          refine ⟨c, hub, opens, rfl, ?_⟩
          simp only [openBinding, here, provider, answer, accepting, ↓reduceIte]
          rfl
        | false =>
          right
          refine ⟨c, hub, opens, rfl, ?_⟩
          simp only [openBinding, here, provider, answer, accepting, Bool.false_eq_true, ↓reduceIte]
          rfl

theorem openBinding_branches (e : Engine) (call : CallId) (b : BindingId) (s : SubscriptionId) :
    e.openBinding call b s = ⟨e, [], []⟩ ∨
    (∃ hub fault, e.openBinding call b s =
      ((({ e with hub := hub } : Engine).closeBinding b).unlist b).fail call fault) ∨
    ∃ hub c, e.openBinding call b s =
      (({ e with hub := hub } : Engine).updateBinding b Binding.opened).enter call b s
        [[.consume b c .news]] := by
  cases here : e.bindings[b]? with
  | none => exact .inl (by simp only [openBinding, here])
  | some y =>
    right
    rcases openBinding_cases call s here with ⟨_, _, -, eq⟩ | ⟨_, _, -, -, eq⟩ | ⟨_, _, -, -, eq⟩
    · exact .inl ⟨_, _, eq⟩
    · exact .inr ⟨_, _, eq⟩
    · exact .inl ⟨_, _, eq⟩

theorem enter_branches (e : Engine) (call : CallId) (b : BindingId) (s : SubscriptionId)
    (started : List (List Action)) : ∃ replies deliveries more,
      e.enter call b s started = ⟨{ (e.register b s).2 with
        replies := replies, deliveries := deliveries }, [], started ++ more⟩ ∧
      (more = [] ∨ more = [[.deliverNext s]]) := by
  simp only [enter]
  split
  · rename_i registered
    exact ⟨_, _, [], by rw [List.append_nil, registered]; rfl, .inl rfl⟩
  · rename_i registered
    exact ⟨_, _, _, by rw [registered]; rfl, .inr rfl⟩

theorem giveUp_rest (e : Engine) (a : Action) : ∃ bindings, e.giveUp a = { e with bindings } := by
  cases a <;> exact ⟨_, rfl⟩

/-! ## Ending -/

theorem unsubscribe_cases (e : Engine) (s : SubscriptionId) :
    e.unsubscribe s = ⟨e, [], []⟩ ∨ ∃ x, e.isRegistered s = true ∧ e.subscribers[s]? = some x ∧
      e.unsubscribe s = ⟨((e.deregister s).endLife s Lifecycle.cancel).detach x.connection s,
        x.binding?.toList.map fun b => .leave b s, []⟩ := by
  simp only [unsubscribe]
  split
  · rename_i x registered found
    exact .inr ⟨x, registered, found, rfl⟩
  · exact .inl rfl

theorem terminate_cases (e : Engine) (s : SubscriptionId) (t : Termination) :
    e.terminate s t = ⟨e, [], []⟩ ∨ ∃ x, e.isRegistered s = true ∧ e.subscribers[s]? = some x ∧
      e.terminate s t =
        ⟨(((e.deregister s).endLife s Lifecycle.retire).detach x.connection s).updateSubscriber s
          fun x => { x with termination? := some t }, x.binding?.toList.map fun b =>
            .leave b s, []⟩ := by
  simp only [terminate]
  split
  · rename_i x registered found
    exact .inr ⟨x, registered, found, rfl⟩
  · exact .inl rfl

theorem release_cases (e : Engine) (c : ConnectionId) :
    (e.managed.contains c = false ∧ e.release c = ⟨e, [], []⟩) ∨
    ∃ e' : Engine, e.managed.contains c = true ∧
      e' = (({ e with managed := e.managed.filter (· != c) } : Engine).closeConnection c).2 ∧
      e.release c =
        ⟨e', (e'.owned c).map (fun o => .unsubscribe o.1) ++ [.connectionReleased], []⟩ := by
  simp only [release]
  cases e.managed.contains c with
  | true => exact .inr ⟨_, rfl, rfl, rfl⟩
  | false => exact .inl ⟨rfl, rfl⟩

/-! ## Events -/

/-- The active members of an open binding, to whom its events go. -/
def targets (e : Engine) (b : BindingId) : List SubscriptionId :=
  match e.bindings[b]? with
  | some x => if x.phase = .opened then x.members.filter e.isActive else []
  | none => []

theorem fanOut_targets (e : Engine) (b : BindingId) (event : BrokerEvent) :
    e.fanOut b event = scheduleAll event (e.targets b) e := by
  simp only [fanOut, targets]
  cases e.bindings[b]? with
  | none => rfl
  | some x => by_cases opened : x.phase = .opened <;> simp [opened, scheduleAll]

theorem fanOut_engine (e : Engine) (call? : Option CallId) (b : BindingId) (event : BrokerEvent) :
    ∃ replies, (e.perform (.fanOut call? b event)).engine =
      { (scheduleAll event (e.targets b) e).2 with replies := replies } := by
  simp only [perform, fanOut_targets]
  cases call? <;> exact ⟨_, rfl⟩

theorem schedule_branches (e : Engine) (event : BrokerEvent) (s : SubscriptionId) :
    e.schedule event s = (false, e) ∨
    (∃ c, e.schedule event s = (false, (e.closeConnection c).2)) ∨
    e.schedule event s = (true, { e.updateSubscriber s
      (fun x => { x with inbox := x.inbox ++ [event] }) with inFlight := e.inFlight + 1 }) := by
  simp only [schedule]
  split
  · exact .inl rfl
  split
  · exact .inl rfl
  split
  · exact .inr (.inl ⟨_, rfl⟩)
  · exact .inr (.inr rfl)

/-- What holds along every gift of an event holds along all of them. -/
theorem scheduleAll_along {R : Engine → Engine → Prop} (refl : ∀ e, R e e)
    (trans : ∀ e e' e'', R e e' → R e' e'' → R e e'') (event : BrokerEvent)
    (ss : List SubscriptionId) (each : ∀ s ∈ ss, ∀ e : Engine, R e (e.schedule event s).2)
    (e : Engine) : R e (scheduleAll event ss e).2 := by
  induction ss generalizing e with
  | nil => exact refl e
  | cons s ss ih =>
    have first := each s List.mem_cons_self e
    exact trans _ _ _ first (ih (fun a member => each a (List.mem_cons_of_mem s member)) _)

theorem stopFeeding_along {R : Engine → Engine → Prop} (refl : ∀ e, R e e)
    (trans : ∀ e e' e'', R e e' → R e' e'' → R e e'') (ss : List SubscriptionId)
    (each : ∀ s ∈ ss, ∀ e : Engine, R e (e.updateSubscriber s fun x => { x with fed := false }))
    (e : Engine) : R e (e.stopFeeding ss) := by
  simp only [stopFeeding]
  induction ss generalizing e with
  | nil => exact refl e
  | cons s ss ih =>
    have first := each s List.mem_cons_self e
    exact trans _ _ _ first (ih (fun a member => each a (List.mem_cons_of_mem s member)) _)

/-! ## Delivery -/

def Action.follows (s : SubscriptionId) (x : Action) : Prop :=
  x = .endDelivery s ∨ (∃ c f, x = .offer c f (.ending s)) ∨ (∃ event, x = .resolve s event) ∨
    x = .deliverNext s

theorem deliverNext_cases (e : Engine) (s : SubscriptionId) : ∃ next,
    (∀ x ∈ next, x.follows s) ∧ (e.deliverNext s = ⟨e, next, []⟩ ∨ ∃ rest n, e.deliverNext s =
      ⟨(e.updateSubscriber s fun x => { x with inbox := rest }).doneWith n, next, []⟩) := by
  simp only [deliverNext]
  split
  · exact ⟨[], by simp, .inl rfl⟩
  split
  · exact ⟨_, by simp [Action.follows], .inl rfl⟩
  split
  · refine ⟨_, fun x member => ?_, .inl rfl⟩
    simp only [List.mem_append, List.mem_map, List.mem_singleton] at member
    obtain ⟨f, -, rfl⟩ | rfl := member
    · exact .inr (.inl ⟨_, _, rfl⟩)
    · exact .inl rfl
  split
  · split
    · exact ⟨_, by simp [Action.follows], .inr ⟨_, 0, rfl⟩⟩
    · exact ⟨_, by simp [Action.follows], .inr ⟨_, 1, rfl⟩⟩
  · split <;> exact ⟨_, by simp [Action.follows], .inl rfl⟩

theorem endDelivery_cases (e : Engine) (s : SubscriptionId) :
    e.endDelivery s = e ∨ ∃ n deliveries, e.endDelivery s =
      { e.updateSubscriber s (fun x => { x with delivering := false, inbox := [] }) with
        inFlight := n, deliveries := deliveries } := by
  simp only [endDelivery]
  split
  · exact .inl rfl
  · exact .inr ⟨_, _, rfl⟩

def takes (e : Engine) (c : ConnectionId) : Bool :=
  match e.connections[c]? with
  | some x => x.read && e.hasRoom x
  | none => false

/-- A frame enters the queue and is counted, or it is refused, and its connection may be closed. -/
theorem enqueue_cases (e : Engine) (c : ConnectionId) (f : Frame) (r : Receipt) :
    (e.takes c = true ∧ e.enqueue c f r =
      ({ (e.updateConnection c fun x => { x with queue := x.queue ++ [f] }) with
        counters := if f.isMessage then e.counters.apply .messageSent else e.counters } :
          Engine).receipt (.ok ()) r) ∨
    (e.takes c = false ∧ ∃ (e' : Engine) (fault : Fault),
      e.enqueue c f r = e'.receipt (.error fault) r ∧ (e' = e ∨ e' = (e.closeConnection c).2)) := by
  cases read : e.connections[c]? with
  | none =>
    refine .inr ⟨by simp only [takes, read], e, Trouble.closed, ?_, .inl rfl⟩
    simp only [enqueue, read]
  | some x =>
    simp only [takes, enqueue, read]
    cases x.read with
    | false => exact .inr ⟨rfl, _, _, rfl, .inr rfl⟩
    | true =>
      cases e.hasRoom x with
      | false => exact .inr ⟨rfl, _, _, rfl, .inr rfl⟩
      | true =>
        refine .inl ⟨rfl, ?_⟩
        cases f.isMessage <;> rfl

/-! ## Records alone -/

/-- Nothing is another but the records of subscriptions, bindings and connections and what the
counters say. -/
def Records (e e' : Engine) : Prop :=
  ∃ counters subscribers bindings listed registered connections, e' = { e with
    counters := counters, subscribers := subscribers, bindings := bindings, listed := listed
    registered := registered, connections := connections }

theorem records_refl (e : Engine) : Records e e := ⟨_, _, _, _, _, _, rfl⟩

theorem records_trans {e' e'' : Engine} (first : Records e e') (second : Records e' e'') :
    Records e e'' := by
  obtain ⟨_, _, _, _, _, _, rfl⟩ := first
  obtain ⟨_, _, _, _, _, _, rfl⟩ := second
  exact ⟨_, _, _, _, _, _, rfl⟩

theorem records_leave (e : Engine) (b : BindingId) (s : SubscriptionId) :
    Records e (e.leave b s) := by
  have dropped : Records e (e.dropMember b s) := by
    simp only [dropMember]
    split <;> exact ⟨_, _, _, _, _, _, rfl⟩
  refine records_trans dropped ?_
  simp only [leave, closeIfIdle]
  split
  · split <;> exact ⟨_, _, _, _, _, _, rfl⟩
  · exact records_refl _

theorem records_endLife (e : Engine) (s : SubscriptionId) (f : Lifecycle → Bool × Lifecycle) :
    Records e (e.endLife s f) := by
  simp only [endLife]
  split
  · exact records_refl e
  · split <;> exact ⟨_, _, _, _, _, _, rfl⟩

theorem records_depart (e : Engine) (s : SubscriptionId) (c : ConnectionId)
    (f : Lifecycle → Bool × Lifecycle) :
    Records e (((e.deregister s).endLife s f).detach c s) := by
  have struck : Records e (e.deregister s) := ⟨_, _, _, _, _, _, rfl⟩
  refine records_trans (records_trans struck (records_endLife _ s f)) ?_
  exact ⟨_, _, _, _, _, _, rfl⟩

theorem records_enroll (e : Engine) (b : BindingId) (s : SubscriptionId) (x : Subscriber) :
    Records e (e.enroll b s x) := by
  simp only [enroll]
  split <;> exact ⟨_, _, _, _, _, _, rfl⟩

theorem records_register (e : Engine) (b : BindingId) (s : SubscriptionId) :
    Records e (e.register b s).2 := by
  simp only [register]
  split
  · exact records_refl e
  rename_i x _
  refine records_trans (records_enroll e b s x) ?_
  simp only [attach]
  cases (e.enroll b s x).isClosed x.connection with
  | true =>
    have left := records_leave (e.enroll b s x) b s
    have struck : Records (e.enroll b s x) (((e.enroll b s x).leave b s).deregister s) :=
      records_trans left ⟨_, _, _, _, _, _, rfl⟩
    exact records_trans struck (records_endLife _ s Lifecycle.cancel)
  | false => exact ⟨_, _, _, _, _, _, rfl⟩

theorem records_empty (e : Engine) (b : BindingId) : Records e (e.empty b).2 := by
  simp only [empty]
  split <;> exact ⟨_, _, _, _, _, _, rfl⟩

theorem records_seek (e : Engine) (call : CallId) (s : SubscriptionId) (key : SourceKey) :
    Records e (e.seek call s key).engine := by
  simp only [seek, bindingFor]
  split <;> exact ⟨_, _, _, _, _, _, rfl⟩

theorem records_stopFeeding (ss : List SubscriptionId) (e : Engine) :
    Records e (e.stopFeeding ss) :=
  stopFeeding_along records_refl (fun _ _ _ => records_trans) ss
    (fun _ _ _ => ⟨_, _, _, _, _, _, rfl⟩) e

theorem records_scheduleAll (event : BrokerEvent) (ss : List SubscriptionId) (e : Engine) :
    ∃ n, Records { e with inFlight := n } (scheduleAll event ss e).2 := by
  refine scheduleAll_along (R := fun e e' => ∃ n, Records { e with inFlight := n } e')
    (fun e => ⟨e.inFlight, records_refl e⟩) ?_ event ss ?_ e
  · rintro e e' e'' ⟨_, _, _, _, _, _, _, rfl⟩ ⟨n, second⟩
    exact ⟨n, records_trans ⟨_, _, _, _, _, _, rfl⟩ second⟩
  · intro s _ e
    rcases schedule_branches e event s with eq | ⟨c, eq⟩ | eq <;> rw [eq] <;>
    exact ⟨_, _, _, _, _, _, _, rfl⟩

end Engine

end SubscriptionGateway
