import SubscriptionGateway.Proofs.Engine.Frame
import SubscriptionGateway.Proofs.Engine.Sequel

/-!
What the operations of the engine do to its bindings, and what a call comes to that has got hold of
an open one. An operation changes one binding at most, and only seeking makes a new one.
-/
namespace SubscriptionGateway

open Broker

namespace Binding

def gain (y : Binding) (s : SubscriptionId) : Binding := { y with members := y.members ++ [s] }

def shut (y : Binding) : Binding := { y with phase := .closed, locked := false }

def stop (y : Binding) : Binding := { y.shut with cancelled := true }

def drop (y : Binding) (s : SubscriptionId) : Binding :=
  { y with members := y.members.filter (· != s) }

/-- Its last member takes an open binding out of use. -/
def without (y : Binding) (s : SubscriptionId) : Binding :=
  if Engine.Binding.isIdle (y.drop s) then (y.drop s).stop else y.drop s

def cleared (y : Binding) : Binding := { y with members := [] }.shut

theorem isIdle_iff (y : Binding) :
    Engine.Binding.isIdle y = true ↔ y.members = [] ∧ y.phase = .opened := by
  simp [Engine.Binding.isIdle]

end Binding

namespace Engine

variable {e : Engine} {b : BindingId} {s : SubscriptionId} {x : Subscriber}

/-! ## Single operations -/

theorem modify_read {α : Type} {l : List α} {i : Nat} {f g : α → α}
    (same : ∀ y, l[i]? = some y → f y = g y) : l.modify i f = l.modify i g := by
  refine List.ext_getElem? fun j => ?_
  by_cases here : i = j
  · subst here
    cases read : l[i]? with
    | none => simp [read]
    | some y => simp [read, same y read]
  · simp [here]

theorem modify_absent {α : Type} {l : List α} {i : Nat} (f : α → α) (absent : l[i]? = none) :
    l.modify i f = l := List.modify_eq_self (List.getElem?_eq_none_iff.mp absent)

theorem dropMember_bindings (e : Engine) (b : BindingId) (s : SubscriptionId) :
    (e.dropMember b s).bindings = e.bindings.modify b fun y => y.drop s := by
  simp only [dropMember]
  split <;> rfl

theorem leave_bindings (e : Engine) (b : BindingId) (s : SubscriptionId) :
    (e.leave b s).bindings = e.bindings.modify b fun y => y.without s := by
  have dropped := dropMember_bindings e b s
  simp only [leave, closeIfIdle]
  cases read : e.bindings[b]? with
  | none =>
    have gone : (e.dropMember b s).bindings[b]? = none := by simp [dropped, read]
    simp only [gone]
    rw [dropped, modify_absent _ read, modify_absent _ read]
  | some y =>
    have here : (e.dropMember b s).bindings[b]? = some (y.drop s) := by simp [dropped, read]
    simp only [here]
    split
    · rename_i idle
      simp only [unlist, cancelBinding, closeBinding, updateBinding, dropped, List.modify_modify_eq]
      refine modify_read fun y' here => ?_
      obtain rfl : y = y' := by simpa [read] using here
      rw [Binding.without, if_pos idle]
      rfl
    · rename_i busy
      rw [dropped]
      refine modify_read fun y' here => ?_
      obtain rfl : y = y' := by simpa [read] using here
      rw [Binding.without, if_neg busy]

theorem empty_bindings (e : Engine) (b : BindingId) :
    (e.empty b).2.bindings = e.bindings.modify b Binding.cleared := by
  simp only [empty]
  cases read : e.bindings[b]? with
  | none => exact (modify_absent _ read).symm
  | some y =>
    simp only [closeBinding, updateBinding, List.modify_modify_eq]
    rfl

theorem stopFeeding_bindings (e : Engine) (ss : List SubscriptionId) :
    (e.stopFeeding ss).bindings = e.bindings := (apart_stopFeeding ss e).bindings

theorem sweep_bindings (e : Engine) (b : BindingId) :
    (e.perform (.sweep b)).engine.bindings =
      e.bindings.modify b fun y => { y.cleared with cancelled := true } := by
  simp only [perform, sweep, unlist, cancelBinding, updateBinding]
  rw [stopFeeding_bindings, empty_bindings, List.modify_modify_eq]
  rfl

theorem endLife_bindings (e : Engine) (s : SubscriptionId) (f : Lifecycle → Bool × Lifecycle) :
    (e.endLife s f).bindings = e.bindings := by
  simp only [endLife]
  split
  · rfl
  · split <;> rfl

theorem enroll_bindings (e : Engine) (b : BindingId) (s : SubscriptionId) (x : Subscriber) :
    (e.enroll b s x).bindings = e.bindings.modify b fun y => y.gain s := by
  simp only [enroll]
  split <;> rfl

theorem enroll_connections (e : Engine) (b : BindingId) (s : SubscriptionId) (x : Subscriber) :
    (e.enroll b s x).connections = e.connections := by
  simp only [enroll]
  split <;> rfl

/-! ## Entering an open binding -/

/-- Registered for good. -/
def admission (e : Engine) (b : BindingId) (s : SubscriptionId) (x : Subscriber) : Engine :=
  (e.enroll b s x).updateConnection x.connection fun z =>
    { z with owned := z.owned ++ [(s, x.clientId)] }

/-- Registered, and that undone. -/
def refusal (e : Engine) (b : BindingId) (s : SubscriptionId) (x : Subscriber) : Engine :=
  (((e.enroll b s x).leave b s).deregister s).endLife s Lifecycle.cancel

/-- Whoever enters is admitted when its connection is open and refused when it is not. -/
theorem enter_cases (call : CallId) (b : BindingId) (started : List (List Action))
    (found : e.subscribers[s]? = some x) :
    (e.isClosed x.connection = false ∧ e.enter call b s started =
      ⟨{ e.admission b s x with deliveries := e.deliveries + 1 }.reply call (.subscribed s), [],
        started ++ [[.deliverNext s]]⟩) ∨
    (e.isClosed x.connection = true ∧ e.enter call b s started =
      ⟨(e.refusal b s x).reply call (.failed Trouble.closedWhileSubscribing), [], started⟩) := by
  have closes : (e.enroll b s x).isClosed x.connection = e.isClosed x.connection := by
    simp only [isClosed, enroll_connections]
  have count : (e.admission b s x).deliveries = e.deliveries := by
    simp only [admission, updateConnection, enroll]
    split <;> rfl
  cases closed : e.isClosed x.connection with
  | false =>
    left
    refine ⟨rfl, ?_⟩
    simp only [enter, register, found, attach, closes, closed, Bool.false_eq_true, ↓reduceIte]
    rw [← count]
    rfl
  | true =>
    right
    refine ⟨rfl, ?_⟩
    simp only [enter, register, found, attach, closes, closed, ↓reduceIte]
    rfl

theorem admission_bindings (e : Engine) (b : BindingId) (s : SubscriptionId) (x : Subscriber) :
    (e.admission b s x).bindings = e.bindings.modify b fun y => y.gain s :=
  enroll_bindings e b s x

theorem refusal_bindings (e : Engine) (b : BindingId) (s : SubscriptionId) (x : Subscriber) :
    (e.refusal b s x).bindings = e.bindings.modify b fun y => (y.gain s).without s := by
  rw [refusal, endLife_bindings]
  simp only [deregister]
  rw [leave_bindings, enroll_bindings, List.modify_modify_eq]
  rfl

theorem enter_bindings (call : CallId) (b : BindingId) (started : List (List Action))
    (found : e.subscribers[s]? = some x) :
    ∃ f : Binding → Binding, (e.enter call b s started).engine.bindings = e.bindings.modify b f ∧
      ((f = fun y => y.gain s) ∨ f = fun y => (y.gain s).without s) ∧
      ((e.enter call b s started).sequel = started.flatten ∨
        (e.enter call b s started).sequel = started.flatten ++ [.deliverNext s]) := by
  rcases enter_cases call b started found with ⟨-, admitted⟩ | ⟨-, refused⟩
  · refine ⟨_, ?_, .inl rfl, .inr ?_⟩
    · rw [admitted]
      exact admission_bindings e b s x
    · simp [admitted, Effect.sequel]
  · refine ⟨_, ?_, .inr rfl, .inl ?_⟩
    · rw [refused]
      exact refusal_bindings e b s x
    · simp [refused, Effect.sequel]

/-! ## Actions -/

def Action.furnishes : Action → Bool
  | .subscribe .. | .join .. | .openSource .. | .leave .. | .failBinding _ | .sweep _ => true
  | _ => false

theorem perform_bindings (e : Engine) (a : Action) (other : a.furnishes = false) :
    (e.perform a).engine.bindings = e.bindings := by
  cases a with
  | subscribe | join | openSource | leave | failBinding | sweep => simp [Action.furnishes] at other
  | unsubscribe s =>
    simp only [perform, unsubscribe]
    split
    · exact endLife_bindings (e.deregister s) s Lifecycle.cancel
    · rfl
  | terminate s t =>
    simp only [perform, terminate]
    split
    · exact endLife_bindings (e.deregister s) s Lifecycle.retire
    · rfl
  | _ => exact (perform_apart e _ rfl).bindings

end Engine

end SubscriptionGateway
