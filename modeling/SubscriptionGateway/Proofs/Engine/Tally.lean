import SubscriptionGateway.Proofs.Engine.Calls

/-!
The count of active subscriptions is that of the registered ones. Registering adds one to both, a
registration that is undone leaves both as they were, and an end takes one from both. An engine
that does not accept subscriptions registers none and takes no binding into use.
-/
namespace SubscriptionGateway

open Broker

namespace Engine

variable {e e' : Engine} {a : Action} {b : BindingId} {s : SubscriptionId} {x : Subscriber}
  {rest : List Action}

/-- The registered subscriptions, and how many are counted as active. -/
structure Tallied (e : Engine) : Prop where
  count : e.counters.subscriptions = e.registered.length

/-! ## Single operations -/

theorem leave_registered (e : Engine) (b : BindingId) (s : SubscriptionId) :
    (e.leave b s).registered = e.registered ∧ (e.leave b s).counters = e.counters := by
  have dropped : (e.dropMember b s).registered = e.registered ∧
      (e.dropMember b s).counters = e.counters := by
    simp only [dropMember]
    split <;> exact ⟨rfl, rfl⟩
  simp only [leave, closeIfIdle]
  split
  · split <;> exact dropped
  · exact dropped

theorem endLife_registered (e : Engine) (s : SubscriptionId) (f : Lifecycle → Bool × Lifecycle) :
    (e.endLife s f).registered = e.registered := by
  simp only [endLife]
  split
  · rfl
  · split <;> rfl

theorem endLife_count {f : Lifecycle → Bool × Lifecycle} (found : e.subscribers[s]? = some x)
    (active : (f x.life).1 = true) :
    (e.endLife s f).counters.subscriptions = e.counters.subscriptions - 1 := by
  simp only [endLife, found, active, ↓reduceIte]
  rfl

theorem enroll_registered (e : Engine) (b : BindingId) (s : SubscriptionId) (x : Subscriber) :
    (e.enroll b s x).registered = e.registered ++ [s] := by
  simp only [enroll]
  split <;> rfl

theorem enroll_count (e : Engine) (b : BindingId) (s : SubscriptionId)
    (pending : x.life.phase = .pending) :
    (e.enroll b s x).counters.subscriptions = e.counters.subscriptions + 1 := by
  simp [enroll, Lifecycle.activate, pending, count, Counters.apply, updateSubscriber, updateBinding]

theorem admission_registered (e : Engine) (b : BindingId) (s : SubscriptionId) (x : Subscriber) :
    (e.admission b s x).registered = e.registered ++ [s] := enroll_registered e b s x

theorem refusal_registered (e : Engine) (b : BindingId) (x : Subscriber)
    (outsider : s ∉ e.registered) : (e.refusal b s x).registered = e.registered := by
  rw [refusal, endLife_registered, deregister]
  simp only
  rw [(leave_registered _ b s).1, enroll_registered]
  exact Books.filter_newcomer outsider

theorem refusal_count (e : Engine) (b : BindingId) (found : e.subscribers[s]? = some x)
    (pending : x.life.phase = .pending) :
    (e.refusal b s x).counters.subscriptions = e.counters.subscriptions := by
  have enrolled : (e.enroll b s x).subscribers[s]?.map (·.life.phase) = some .active := by
    simp [enroll, Lifecycle.activate, pending, count, updateSubscriber, updateBinding, found]
  have known : ((e.enroll b s x).leave b s).books.phase s = some .active := by
    rw [books_leave, Books.leave_phase]
    simpa [books] using enrolled
  obtain ⟨x', found', active⟩ := subscriber_of_phase _ known
  have ended := endLife_count (e := ((e.enroll b s x).leave b s).deregister s)
    (f := Lifecycle.cancel) found' (by simp [Lifecycle.cancel, Lifecycle.isActive, active])
  have same : (((e.enroll b s x).leave b s).deregister s).counters.subscriptions =
      e.counters.subscriptions + 1 := by
    have left := (leave_registered (e.enroll b s x) b s).2
    exact (congrArg Counters.subscriptions left).trans (enroll_count e b s pending)
  rw [refusal, ended, same]
  exact Nat.add_sub_cancel ..

/-! ## Every action -/

theorem unregistered_of_pending {d : Duties} (sound : e.books.Sound d)
    (found : e.subscribers[s]? = some x) (pending : x.life.phase = .pending) :
    s ∉ e.registered := fun registered => by
  have active := (sound.active_iff s).mp registered
  simp [books, found, pending] at active

theorem tallied_same (tallied : Tallied e) (registered : e'.registered = e.registered)
    (count : e'.counters.subscriptions = e.counters.subscriptions) : Tallied e' :=
  ⟨by rw [count, registered, tallied.count]⟩

theorem tallied_apart (tallied : Tallied e) (apart : Apart e e') : Tallied e' :=
  tallied_same tallied apart.registered apart.subscriptions

theorem enter_tallied {call : CallId} {started : List (List Action)} (tallied : Tallied e)
    (found : e.subscribers[s]? = some x) (pending : x.life.phase = .pending)
    (outsider : s ∉ e.registered) : Tallied (e.enter call b s started).engine := by
  rcases enter_cases call b started found with ⟨-, admitted⟩ | ⟨-, refused⟩
  · rw [admitted]
    have more : (e.admission b s x).counters.subscriptions = e.counters.subscriptions + 1 :=
      enroll_count e b s pending
    refine ⟨?_⟩
    have all := admission_registered e b s x
    simp only [reply]
    rw [more, all, tallied.count, List.length_append]
    rfl
  · rw [refused]
    exact tallied_same tallied (refusal_registered e b x outsider) (refusal_count e b found pending)

theorem depart_tallied {f : Lifecycle → Bool × Lifecycle} {c : ConnectionId} (tallied : Tallied e)
    (once : e.registered.Nodup) (registered : s ∈ e.registered)
    (found : e.subscribers[s]? = some x) (active : (f x.life).1 = true) :
    Tallied (((e.deregister s).endLife s f).detach c s) := by
  have fewer : (e.registered.filter (· != s)).length = e.registered.length - 1 := by
    rw [← List.Nodup.erase_eq_filter once, List.length_erase_of_mem registered]
  have left : (((e.deregister s).endLife s f).detach c s).registered =
      e.registered.filter (· != s) := endLife_registered (e.deregister s) s f
  have ended := endLife_count (e := e.deregister s) found active
  refine ⟨?_⟩
  rw [left, fewer, ← tallied.count]
  exact ended

theorem perform_tallied (sound : e.books.Sound (duties (a :: rest))) (tallied : Tallied e) :
    Tallied (e.perform a).engine := by
  have departing {s : SubscriptionId} {x : Subscriber} (registered : e.isRegistered s = true)
      (found : e.subscribers[s]? = some x) : s ∈ e.registered ∧ x.life.isActive = true := by
    have member := (isRegistered_iff e s).mp registered
    have active := (sound.active_iff s).mp member
    refine ⟨member, ?_⟩
    simpa [books, found, Lifecycle.isActive] using active
  cases a with
  | subscribe call c clientId r =>
    simp only [perform]
    cases prepared : e.prepare c clientId r with
    | error fault => exact tallied_same tallied rfl rfl
    | ok found =>
      obtain ⟨s, key, e'⟩ := found
      obtain ⟨compiled, -, -, -, -, rfl⟩ := prepare_ok e prepared
      simp only
      rcases seek_cases _ call s key with ⟨k, -, eq⟩ | ⟨-, eq⟩
      · rw [eq]
        exact tallied_same tallied rfl rfl
      · rw [eq]
        exact tallied_same tallied rfl rfl
  | join call k s =>
    obtain ⟨y, here, -, -⟩ := seeker_binding sound rfl
    obtain ⟨x, found, pending⟩ := seeker_pending sound rfl
    simp only [perform, joinBinding, here]
    split
    · rcases seek_cases (e.unlist k) call s y.key with ⟨k', -, eq⟩ | ⟨-, eq⟩
      · rw [eq]
        exact tallied_same tallied rfl rfl
      · rw [eq]
        exact tallied_same tallied rfl rfl
    · split
      · exact enter_tallied tallied found pending (unregistered_of_pending sound found pending)
      · exact tallied_same tallied rfl rfl
    · exact tallied_same tallied rfl rfl
  | openSource call k s due =>
    obtain ⟨y, here, -, -⟩ := seeker_binding sound rfl
    obtain ⟨x, found, pending⟩ := seeker_pending sound rfl
    simp only [perform]
    rcases openBinding_cases call s here with ⟨fault, hub, -, eq⟩ | ⟨c, hub, -, -, eq⟩ |
      ⟨c, hub, -, -, eq⟩
    · rw [eq]
      exact tallied_same tallied rfl rfl
    · rw [eq]
      have outsider : s ∉ e.registered := unregistered_of_pending sound found pending
      exact enter_tallied (x := x) (tallied_same tallied rfl rfl) found pending outsider
    · rw [eq]
      exact tallied_same tallied rfl rfl
  | unsubscribe s =>
    simp only [perform, unsubscribe]
    split
    · rename_i x registered found
      obtain ⟨member, active⟩ := departing registered found
      exact depart_tallied tallied sound.registered_nodup member found active
    · exact tallied
  | terminate s t =>
    simp only [perform, terminate]
    split
    · rename_i x registered found
      obtain ⟨member, active⟩ := departing registered found
      have ended := depart_tallied (f := Lifecycle.retire) (c := x.connection) tallied
        sound.registered_nodup member found active
      exact tallied_same ended rfl rfl
    · exact tallied
  | leave k s =>
    obtain ⟨registered, counters⟩ := leave_registered e k s
    exact tallied_same tallied registered (congrArg Counters.subscriptions counters)
  | failBinding k =>
    simp only [perform, failBinding, empty]
    split <;> exact tallied_same tallied rfl rfl
  | sweep k =>
    have emptied : Tallied (e.empty k).2 := by
      simp only [empty]
      split <;> exact tallied_same tallied rfl rfl
    have starved := tallied_apart emptied (apart_stopFeeding (e.empty k).1 (e.empty k).2)
    exact tallied_same starved rfl rfl
  | _ => exact tallied_apart tallied (perform_apart e _ rfl)

theorem tallied_upheld : Upheld Accounted fun e _ _ => Tallied e := by
  refine upheld_pending (P := fun e _ _ => Tallied e) ?_ ?_ ?_
  · intro e p q log _ tallied
    exact tallied
  · intro e ts log i _ tallied
    exact tallied_apart tallied (input_apart e i)
  · intro e a rest ts log _ pending sound tallied
    exact perform_tallied (sound.sound pending) tallied

/-! ## An engine that does not accept -/

def IsOpen (e : Engine) (b : BindingId) : Prop :=
  ∃ y, e.bindings[b]? = some y ∧ y.phase = .opened

structure Fewer (e e' : Engine) : Prop where
  accepting : e'.accepting = false
  registered : ∀ s ∈ e'.registered, s ∈ e.registered
  opened : ∀ b, IsOpen e' b → IsOpen e b

theorem fewer_same (accepting : e'.accepting = false) (registered : e'.registered = e.registered)
    (bindings : e'.bindings = e.bindings) : Fewer e e' where
  accepting := accepting
  registered s member := registered ▸ member
  opened b isOpen := by simpa only [IsOpen, bindings] using isOpen

theorem fewer_apart (accepting : e'.accepting = false) (apart : Apart e e') : Fewer e e' :=
  fewer_same accepting apart.registered apart.bindings

theorem fewer_modified {k : BindingId} {f : Binding → Binding} (accepting : e'.accepting = false)
    (registered : e'.registered = e.registered) (modified : e'.bindings = e.bindings.modify k f)
    (opens : ∀ y, e.bindings[k]? = some y → (f y).phase = .opened → y.phase = .opened) :
    Fewer e e' where
  accepting := accepting
  registered s member := registered ▸ member
  opened b isOpen := by
    obtain ⟨y, here, opened⟩ := isOpen
    by_cases same : k = b
    · subst same
      rw [modified, List.getElem?_modify_eq] at here
      obtain ⟨z, before, rfl⟩ : ∃ z, e.bindings[k]? = some z ∧ f z = y := by simpa using here
      exact ⟨z, before, opens z before opened⟩
    · rw [modified, List.getElem?_modify_ne _ _ same] at here
      exact ⟨y, here, opened⟩

theorem seek_fewer (call : CallId) (s : SubscriptionId) (key : SourceKey)
    (accepting : e.accepting = false) : Fewer e (e.seek call s key).engine := by
  rcases seek_cases e call s key with ⟨k, -, eq⟩ | ⟨-, eq⟩
  · rw [eq]
    exact fewer_same accepting rfl rfl
  · rw [eq]
    refine ⟨accepting, fun _ member => member, fun b isOpen => ?_⟩
    obtain ⟨y, here, opened⟩ := isOpen
    simp only [List.getElem?_append] at here
    split at here
    · exact ⟨y, here, opened⟩
    · obtain rfl := List.mem_singleton.mp (List.mem_of_getElem? here)
      simp at opened

theorem without_opened_before {y : Binding} (opened : (y.without s).phase = .opened) :
    y.phase = .opened := by
  simp only [Binding.without] at opened
  split at opened
  · simp [Binding.stop, Binding.shut] at opened
  · exact opened

theorem perform_fewer (sound : e.books.Sound (duties (a :: rest)))
    (plain : ∀ call r, a = .answer call r → r = .done) (accepting : e.accepting = false) :
    Fewer e (e.perform a).engine := by
  have still : (e.perform a).engine.accepting = false := by
    rcases (perform_serves sound plain).accepting with same | none
    · rw [same, accepting]
    · exact none
  cases a with
  | subscribe call c clientId r =>
    simp only [perform, prepare, accepting, Bool.not_false, ↓reduceIte]
    exact fewer_same accepting rfl rfl
  | join call k s =>
    simp only [perform, joinBinding] at still ⊢
    split
    · exact fewer_same accepting rfl rfl
    split
    · obtain ⟨none, registered, opened⟩ := seek_fewer (e := e.unlist k) call s _ accepting
      exact ⟨none, registered, opened⟩
    · simp only [accepting, Bool.false_eq_true, ↓reduceIte]
      exact fewer_same accepting rfl rfl
    · exact fewer_modified (k := k) (f := Binding.lock) accepting rfl rfl fun _ _ opened => opened
  | openSource call k s due =>
    obtain ⟨y, here, -, -⟩ := seeker_binding sound rfl
    simp only [perform]
    have shut (y : Binding) (opened : y.shut.phase = .opened) : y.phase = .opened := by
      simp [Binding.shut] at opened
    rcases openBinding_cases call s here with ⟨fault, hub, -, eq⟩ | ⟨c, hub, -, accepts, -⟩ |
      ⟨c, hub, -, -, eq⟩
    · rw [eq]
      exact fewer_modified (k := k) (f := Binding.shut) accepting rfl rfl fun y _ => shut y
    · simp [accepting] at accepts
    · rw [eq]
      exact fewer_modified (k := k) (f := Binding.shut) accepting rfl rfl fun y _ => shut y
  | unsubscribe s =>
    refine ⟨still, fun s' member => ?_, fun b isOpen => ?_⟩
    · simp only [perform, unsubscribe] at member
      split at member
      · have left : s' ∈ (((e.deregister s).endLife s Lifecycle.cancel)).registered := member
        rw [endLife_registered] at left
        exact (List.mem_filter.mp left).1
      · exact member
    · simpa only [IsOpen, perform_bindings e (.unsubscribe s) rfl] using isOpen
  | terminate s t =>
    refine ⟨still, fun s' member => ?_, fun b isOpen => ?_⟩
    · simp only [perform, terminate] at member
      split at member
      · have left : s' ∈ (((e.deregister s).endLife s Lifecycle.retire)).registered := member
        rw [endLife_registered] at left
        exact (List.mem_filter.mp left).1
      · exact member
    · simpa only [IsOpen, perform_bindings e (.terminate s t) rfl] using isOpen
  | leave k s =>
    exact fewer_modified still (leave_registered e k s).1 (leave_bindings e k s)
      fun _ _ => without_opened_before
  | failBinding k =>
    refine fewer_modified still ?_ (empty_bindings e k) fun _ _ opened => by
      simp [Binding.cleared, Binding.shut] at opened
    simp only [perform, failBinding, empty]
    split <;> rfl
  | sweep k =>
    refine fewer_modified still ?_ (sweep_bindings e k) fun _ _ opened => by
      simp [Binding.cleared, Binding.shut] at opened
    have starved := (apart_stopFeeding (e.empty k).1 (e.empty k).2).registered
    refine starved.trans ?_
    simp only [empty]
    split <;> rfl
  | _ => exact fewer_apart still (perform_apart e _ rfl)

end Engine

end SubscriptionGateway
