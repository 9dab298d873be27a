import SubscriptionGateway.Proofs.Engine.Chains
import SubscriptionGateway.Proofs.Engine.Consumers

/-!
What one step of a call that subscribes comes to. It goes on to a binding, or the subscription is
granted, or it is declined and what had been done for it is undone in the same step. A subscription
that has not been granted counts nowhere, and what others do does not change that.
-/
namespace SubscriptionGateway

open Broker

namespace Engine

variable {e e' : Engine} {a : Action} {b : BindingId} {s : SubscriptionId} {x : Subscriber}
  {call : CallId} {pool rest : List Action}

/-! ## Counts -/

structure Level (e e' : Engine) : Prop where
  subscriptions : e'.counters.subscriptions = e.counters.subscriptions
  inFlight : e'.inFlight = e.inFlight
  deliveries : e'.deliveries = e.deliveries

theorem level_refl (e : Engine) : Level e e := ⟨rfl, rfl, rfl⟩

/-- As many events in flight and deliveries as before, whatever is said of subscriptions. -/
def Occupied (e e' : Engine) : Prop := e'.inFlight = e.inFlight ∧ e'.deliveries = e.deliveries

theorem occupied_enroll (e : Engine) (b : BindingId) (s : SubscriptionId) (x : Subscriber) :
    Occupied e (e.enroll b s x) := by
  simp only [enroll]
  split <;> exact ⟨rfl, rfl⟩

theorem occupied_leave (e : Engine) (b : BindingId) (s : SubscriptionId) :
    Occupied e (e.leave b s) := by
  have dropped : Occupied e (e.dropMember b s) := by
    simp only [dropMember]
    split <;> exact ⟨rfl, rfl⟩
  have closed (e : Engine) : Occupied e (e.closeIfIdle b) := by
    simp only [closeIfIdle]
    split
    · split <;> exact ⟨rfl, rfl⟩
    · exact ⟨rfl, rfl⟩
  obtain ⟨inFlight, deliveries⟩ := closed (e.dropMember b s)
  exact ⟨inFlight.trans dropped.1, deliveries.trans dropped.2⟩

theorem occupied_endLife (e : Engine) (s : SubscriptionId) (f : Lifecycle → Bool × Lifecycle) :
    Occupied e (e.endLife s f) := by
  simp only [endLife]
  split
  · exact ⟨rfl, rfl⟩
  · split <;> exact ⟨rfl, rfl⟩

theorem refusal_level (b : BindingId) (found : e.subscribers[s]? = some x)
    (pending : x.life.phase = .pending) : Level e (e.refusal b s x) := by
  have enrolled := occupied_enroll e b s x
  have left := occupied_leave (e.enroll b s x) b s
  have finished := occupied_endLife (((e.enroll b s x).leave b s).deregister s) s Lifecycle.cancel
  exact ⟨refusal_count e b found pending, finished.1.trans (left.1.trans enrolled.1),
    finished.2.trans (left.2.trans enrolled.2)⟩

/-! ## What a step comes to -/

/-- The subscription has not got what it came to a binding for, and nothing is left of it there. -/
structure Declined (b : BindingId) (s : SubscriptionId) (x : Subscriber)
    (e e' : Engine) : Prop where
  level : Level e e'
  record : ∃ x', e'.subscribers[s]? = some x' ∧ x'.life.phase ≠ .active ∧ x'.inbox = x.inbox
  length : e'.bindings.length = e.bindings.length
  settled : ∀ y, e'.bindings[b]? = some y → y.phase ≠ .opening

inductive Outcome (call : CallId) (b : BindingId) (s : SubscriptionId) (x : Subscriber)
    (e : Engine) (a : Action) (f : Effect) : Prop where
  | onward (k : BindingId) (x : Action) (only : f.sequel = [x]) (seeks : x.seeks? = some (k, s))
      (whose : x.ticket? = some call) (level : Level e f.engine)
      (record : f.engine.subscribers = e.subscribers) (unopened : openings e a = [])
      (fresh : ∀ b', e.bindings.length ≤ b' → b' < f.engine.bindings.length → b' = k)
      (stays : ∀ y, f.engine.bindings[b]? = some y → y.phase = .opening → k = b)
  | declined (declined : Declined b s x e f.engine)
      (only : ∀ x ∈ f.sequel, ∃ c, x = .consume b c .news)
      (doomed : ∀ c ∈ openings e a, c ∈ closings e a ∨ .consume b c .news ∈ f.sequel ∧
        ∃ y, f.engine.bindings[b]? = some y ∧ y.cancelled = true)
  | granted (told : (call, .subscribed s) ∈ f.engine.replies)

theorem declined_same {y : Binding} {f : Binding → Binding} (found : e.subscribers[s]? = some x)
    (pending : x.life.phase = .pending) (here : e.bindings[b]? = some y) (level : Level e e')
    (record : e'.subscribers = e.subscribers) (modified : e'.bindings = e.bindings.modify b f)
    (settled : (f y).phase ≠ .opening) : Declined b s x e e' where
  level := level
  record := ⟨x, by rw [record, found], by simp [pending], rfl⟩
  length := by rw [modified, List.length_modify]
  settled z there := by
    obtain rfl : f y = z := by simpa [modified, here] using there
    exact settled

theorem declined_refusal {y : Binding} (found : e.subscribers[s]? = some x)
    (pending : x.life.phase = .pending) (here : e.bindings[b]? = some y)
    (opened : y.phase = .opened) :
    Declined b s x e (e.refusal b s x) where
  level := refusal_level b found pending
  record := by
    obtain ⟨x', found', finished, -, -, -, inbox⟩ := refusal_record b found
    exact ⟨x', found', by simp [finished], inbox⟩
  length := by rw [refusal_bindings, List.length_modify]
  settled z there := by
    obtain rfl : (y.gain s).without s = z := by simpa [refusal_bindings, here] using there
    intro opening
    have before := (ages_without (y.gain s) s).opening opening
    simp [Binding.gain, opened] at before

theorem declined_reply (declined : Declined b s x e e') (call : CallId) (r : Reply) :
    Declined b s x e (e'.reply call r) where
  level := ⟨declined.level.subscriptions, declined.level.inFlight, declined.level.deliveries⟩
  record := declined.record
  length := declined.length
  settled := declined.settled

theorem opened_idle {y : Binding} (empty : y.members = []) :
    Binding.isIdle ((y.opened.gain s).drop s) = true :=
  (Binding.isIdle_iff _).mpr ⟨by simp [Binding.drop, Binding.gain, Binding.opened, empty], rfl⟩

theorem seek_onward (e : Engine) (call : CallId) (s : SubscriptionId) (key : SourceKey) :
    ∃ k, (e.seek call s key).sequel = [.join call k s] ∧ Level e (e.seek call s key).engine ∧
      ((e.seek call s key).engine.bindings = e.bindings ∨
        k = e.bindings.length ∧
          (e.seek call s key).engine.bindings = e.bindings ++ [{ key := key }]) := by
  rcases seek_cases e call s key with ⟨k, -, eq⟩ | ⟨-, eq⟩
  · rw [eq]
    exact ⟨k, rfl, level_refl e, .inl rfl⟩
  · rw [eq]
    exact ⟨_, rfl, ⟨rfl, rfl, rfl⟩, .inr ⟨rfl, rfl⟩⟩

theorem join_outcome (sound : e.books.Sound (duties (.join call b s :: rest)))
    (found : e.subscribers[s]? = some x) (pending : x.life.phase = .pending) :
    Outcome call b s x e (.join call b s) (e.perform (.join call b s)) := by
  obtain ⟨y, here, -, -⟩ := seeker_binding sound rfl
  simp only [perform]
  rcases joinBinding_cases call s here with ⟨closed, eq⟩ | ⟨opened, -, eq⟩ | ⟨opened, -, eq⟩ |
    ⟨opening, eq⟩
  · obtain ⟨k, sequel, level, bindings⟩ := seek_onward (e.unlist b) call s y.key
    rw [eq]
    refine .onward k _ sequel rfl rfl ⟨level.subscriptions, level.inFlight, level.deliveries⟩
      (seek_subscribers (e.unlist b) call s y.key) rfl (fun b' old new => ?_)
        fun z there opening => ?_
    · rcases bindings with same | ⟨rfl, more⟩
      · rw [same] at new
        exact absurd new (Nat.not_lt.mpr old)
      · rw [more, List.length_append] at new
        exact Nat.le_antisymm (Nat.le_of_lt_succ new) old
    · have still := seek_binding (e := e.unlist b) call s y.key here
      obtain rfl : y = z := Option.some.inj (still.symm.trans there)
      simp [closed] at opening
  · rw [eq]
    rcases enter_cases call b [] found with ⟨-, admitted⟩ | ⟨-, refused⟩
    · rw [admitted]
      exact .granted (List.mem_append_right _ (List.mem_singleton.mpr rfl))
    · rw [refused]
      exact .declined (declined_reply (declined_refusal found pending here opened) call _)
        (fun x member => by simp [Effect.sequel] at member)
        fun c member => by simp [openings] at member
  · rw [eq]
    have modified : e.bindings = e.bindings.modify b id := (List.modify_id ..).symm
    exact .declined (declined_same found pending here ⟨rfl, rfl, rfl⟩ rfl modified
      (by simp [opened]))
      (fun x member => by simp [Effect.sequel, fail] at member)
      fun c member => by simp [openings] at member
  · rw [eq]
    refine .onward b _ rfl rfl rfl ⟨rfl, rfl, rfl⟩ rfl rfl (fun b' old new => ?_) fun _ _ _ => rfl
    have bound : b' < e.bindings.length := by simpa [updateBinding] using new
    exact absurd bound (Nat.not_lt.mpr old)

theorem openSource_outcome {due : Nat}
    (sound : e.books.Sound (duties (.openSource call b s due :: rest)))
    (found : e.subscribers[s]? = some x) (pending : x.life.phase = .pending) :
    Outcome call b s x e (.openSource call b s due) (e.perform (.openSource call b s due)) := by
  obtain ⟨y, here, -, -⟩ := seeker_binding sound rfl
  have opening : y.phase = .opening := opener_phase sound rfl here
  simp only [perform]
  rcases openBinding_cases call s here with ⟨fault, hub, none, eq⟩ | ⟨c, hub, opens, -, eq⟩ |
    ⟨c, hub, opens, late, eq⟩
  · rw [eq]
    exact .declined
      (declined_same (f := Binding.shut) found pending here ⟨rfl, rfl, rfl⟩ rfl rfl
        (by simp [Binding.shut]))
      (fun x member => by simp [Effect.sequel, fail] at member)
      fun c member => by simp [openings, none] at member
  · rw [eq]
    let source : Engine := ({ e with hub := hub } : Engine).updateBinding b Binding.opened
    have there : source.bindings[b]? = some y.opened := by simp [source, updateBinding, here]
    rcases enter_cases (e := source) (x := x) call b [[.consume b c .news]] found with
      ⟨-, admitted⟩ | ⟨-, refused⟩
    · rw [admitted]
      exact .granted (List.mem_append_right _ (List.mem_singleton.mpr rfl))
    · rw [refused]
      obtain ⟨level, record, length, settled⟩ :=
        declined_reply (declined_refusal (e := source) (x := x) found pending there rfl) call
          (.failed Trouble.closedWhileSubscribing)
      have opened : source.bindings.length = e.bindings.length := List.length_modify ..
      refine .declined ⟨⟨level.subscriptions, level.inFlight, level.deliveries⟩, record,
          length.trans opened, settled⟩
        (fun x member => ⟨c, by simpa [Effect.sequel] using member⟩) fun c' member => ?_
      obtain rfl : c' = c := by simpa [openings, opens] using member
      have idle := opened_idle (s := s) (opening_empty sound here opening)
      have after : (source.refusal b s x).bindings[b]? = some ((y.opened.gain s).without s) := by
        rw [refusal_bindings, List.getElem?_modify_eq, there]
        rfl
      refine .inr ⟨by simp [Effect.sequel], _, after, ?_⟩
      rw [Binding.without, if_pos idle]
      rfl
  · rw [eq]
    exact .declined
      (declined_same (f := Binding.shut) found pending here ⟨rfl, rfl, rfl⟩ rfl rfl
        (by simp [Binding.shut]))
      (fun x member => by simp [Effect.sequel, fail] at member)
      fun c' member => .inl (by simpa [openings, closings, opens, late] using member)

/-- Every action that seeks a binding comes to one of these. -/
theorem seeking_outcome (sound : e.books.Sound (duties (a :: rest)))
    (whose : a.ticket? = some call) (seeks : a.seeks? = some (b, s))
    (found : e.subscribers[s]? = some x) : Outcome call b s x e a (e.perform a) := by
  obtain ⟨x', found', pending⟩ := seeker_pending sound seeks
  obtain rfl : x = x' := by simpa [found] using found'
  cases a with
  | join call' k s' =>
    obtain ⟨rfl, rfl⟩ : k = b ∧ s' = s := by simpa [Action.seeks?] using seeks
    obtain rfl : call' = call := by simpa [Action.ticket?] using whose
    exact join_outcome sound found pending
  | openSource call' k s' due =>
    obtain ⟨rfl, rfl⟩ : k = b ∧ s' = s := by simpa [Action.seeks?] using seeks
    obtain rfl : call' = call := by simpa [Action.ticket?] using whose
    exact openSource_outcome sound found pending
  | _ => simp [Action.seeks?] at seeks

/-! ## Counting nowhere -/

/-- A subscription that is registered nowhere, has no event, no delivery and nothing to leave. -/
structure Unserved (s : SubscriptionId) (e : Engine) (pool : List Action) : Prop where
  record : ∃ x, e.subscribers[s]? = some x ∧ x.life.phase ≠ .active ∧ x.inbox = []
  undelivered : ∀ a ∈ pool, a.delivers? ≠ some s
  unleft : ∀ a ∈ pool, ∀ b, a ≠ .leave b s

theorem unserved_idle (unserved : Unserved s e pool) : e.books.phase s ≠ some .active := by
  obtain ⟨x, found, idle, -⟩ := unserved.record
  simpa [books, found] using idle

theorem unserved_nowhere (sound : e.books.Sound (duties pool)) (unserved : Unserved s e pool) :
    e.isRegistered s = false ∧ (∀ b, e.isMember b s = false) ∧
      ∀ c, s ∉ (e.owned c).map (·.1) := by
  have idle := unserved_idle unserved
  refine ⟨Bool.eq_false_iff.mpr fun registered => ?_,
      fun b => Bool.eq_false_iff.mpr fun member => ?_,
    fun c owns => ?_⟩
  · exact idle ((sound.active_iff s).mp ((isRegistered_iff e s).mp registered))
  · obtain ⟨-, -, active | ⟨-, leaving⟩⟩ := sound.member b s ((isMember_iff e b s).mp member)
    · exact idle active
    · obtain ⟨a, pending, leaves⟩ := List.mem_filterMap.mp leaving
      have left : a = .leave b s := by
        cases a <;> simp_all [Action.leaves?]
      exact unserved.unleft a pending b left
  · exact idle ((sound.owned_iff c s).mp owns).1

theorem leaves_registered (member : .leave b s ∈ (e.perform a).sequel) :
    e.isRegistered s = true := by
  have brings := perform_brings e a _ member
  by_contra unregistered
  have unregistered := Bool.eq_false_iff.mpr unregistered
  cases a with
  | unsubscribe s' =>
    obtain ⟨_, same⟩ := brings
    obtain ⟨rfl, rfl⟩ := Action.leave.inj same
    simp [perform, unsubscribe, unregistered, Effect.sequel] at member
  | terminate s' t =>
    obtain ⟨_, same⟩ := brings
    obtain ⟨rfl, rfl⟩ := Action.leave.inj same
    simp [perform, terminate, unregistered, Effect.sequel] at member
  | _ => simp [Action.Brings] at brings

theorem unserved_record (sound : e.books.Sound (duties (a :: rest)))
    (unserved : Unserved s e (a :: rest)) (other : a.enters? ≠ some s) :
    ∃ x, (e.perform a).engine.subscribers[s]? = some x ∧ x.life.phase ≠ .active ∧ x.inbox = [] := by
  obtain ⟨x, found, idle, empty⟩ := unserved.record
  obtain ⟨unregistered, outside, -⟩ := unserved_nowhere sound unserved
  have apart := unserved.undelivered a (List.mem_cons_self ..)
  by_cases handled : a.handles e s
  · cases a with
    | subscribe call c clientId r =>
      obtain ⟨bound, -⟩ := List.getElem?_eq_some_iff.mp found
      exact absurd handled (Nat.ne_of_lt bound)
    | join | openSource =>
      obtain rfl := show s = _ from handled
      exact absurd rfl other
    | unsubscribe s' =>
      obtain rfl : s = s' := handled
      exact ⟨x, by simpa [perform, unsubscribe, unregistered] using found, idle, empty⟩
    | terminate s' t =>
      obtain rfl : s = s' := handled
      exact ⟨x, by simpa [perform, terminate, unregistered] using found, idle, empty⟩
    | leave k s' =>
      obtain rfl : s = s' := handled
      exact absurd rfl (unserved.unleft _ (List.mem_cons_self ..) k)
    | releaseInbox s' =>
      obtain ⟨x', found', alike, inbox⟩ := stopFeeding_starves found [s']
      exact ⟨x', found', alike.life ▸ idle, inbox.trans empty⟩
    | fanOut call? k event =>
      have active := targets_active handled
      simp [isActive, found, Lifecycle.isActive, idle] at active
    | sweep k =>
      have member : s ∈ e.books.members k := (empty_members e k) ▸ handled
      have inside := (isMember_iff e k s).mpr member
      simp [outside k] at inside
    | deliverNext | endDelivery =>
      obtain rfl := show s = _ from handled
      exact absurd rfl apart
    | _ => exact False.elim handled
  · exact ⟨x, (perform_frame a handled).trans found, idle, empty⟩

theorem unserved_other (sound : e.books.Sound (duties (a :: rest)))
    (unserved : Unserved s e (a :: rest)) (other : a.enters? ≠ some s) :
    Unserved s (e.perform a).engine ((e.perform a).sequel ++ rest) where
  record := unserved_record sound unserved other
  undelivered y member := by
    rcases List.mem_append.mp member with new | old
    · intro mine
      rcases brings_own (perform_brings e a y new) mine with delivers | enters
      · exact unserved.undelivered a (List.mem_cons_self ..) delivers
      · exact other enters
    · exact unserved.undelivered y (List.mem_cons_of_mem _ old)
  unleft y member k := by
    rcases List.mem_append.mp member with new | old
    · rintro rfl
      have registered := leaves_registered new
      simp [(unserved_nowhere sound unserved).1] at registered
    · exact unserved.unleft y (List.mem_cons_of_mem _ old) k

theorem unserved_input (i : Input) (unserved : Unserved s e pool) :
    Unserved s (i.apply e) (i.task e ++ pool) where
  record := by
    rw [(input_spares e i).1]
    exact unserved.record
  undelivered y member := by
    rcases List.mem_append.mp member with new | old
    · cases task_begins new <;> simp [Action.delivers?]
    · exact unserved.undelivered y old
  unleft y member k := by
    rcases List.mem_append.mp member with new | old
    · cases task_begins new <;> simp
    · exact unserved.unleft y old k

theorem unserved_shuffle {pool' : List Action} (perm : pool.Perm pool')
    (unserved : Unserved s e pool) : Unserved s e pool' where
  record := unserved.record
  undelivered y member := unserved.undelivered y (perm.mem_iff.mpr member)
  unleft y member := unserved.unleft y (perm.mem_iff.mpr member)

/-! ## Answers -/

def Granted (k : CallId) (e : Engine) : Prop := ∃ s, (k, .subscribed s) ∈ e.replies

theorem told_lasts {f : Effect} {p : CallId × Reply} (answered : Answered e a f)
    (told : p ∈ e.replies) : p ∈ f.engine.replies := by
  cases answered with
  | none kept _ => exact kept ▸ told
  | reply call r _ all _ _ => exact all ▸ List.mem_append_left _ told

theorem told_upheld (p : CallId × Reply) : Upheld Regular fun e _ _ => p ∈ e.replies where
  shuffle _ told := told
  idle told := told
  outside {e _ _} i _ told := by
    rw [input_replies e i]
    exact told
  inside {e a todo others log} _ known told := by
    have sound : e.books.Sound (duties (a :: (todo ++ others.flatten))) := known.1.1
    have serves := perform_serves sound fun call r same =>
      known.1.2.plain call r (same ▸ List.mem_cons_self ..)
    exact told_lasts serves.answered told

theorem answered_over {k : CallId} {r : Reply} (honored : Honored e pool)
    (told : (k, r) ∈ e.replies)
    (member : a ∈ pool) : a.ticket? ≠ some k := fun whose => by
  have both := List.nodup_append.mp honored.once
  exact both.2.2 k (List.mem_map_of_mem told) k (mem_tickets member whose) rfl

/-- A call has one answer. -/
theorem told_once {k : CallId} {r r' : Reply} (honored : Honored e pool)
    (told : (k, r) ∈ e.replies) (also : (k, r') ∈ e.replies) : r = r' := by
  have once : (e.replies.map (·.1)).Nodup := (List.nodup_append.mp honored.once).1
  have same : (k, r) = (k, r') := List.inj_on_of_nodup_map once told also rfl
  exact congrArg Prod.snd same

theorem ungranted {k : CallId} {fault : Fault} (honored : Honored e pool)
    (told : (k, .failed fault) ∈ e.replies) : ¬ Granted k e := by
  rintro ⟨s, subscribed⟩
  simpa using told_once honored told subscribed

end Engine

end SubscriptionGateway
