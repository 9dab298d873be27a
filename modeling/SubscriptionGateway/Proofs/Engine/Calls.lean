import SubscriptionGateway.Proofs.Engine.Desks
import SubscriptionGateway.Proofs.Engine.Steps

/-!
Calls and what they are answered. An action goes on with the call that it belongs to or answers it,
and never does both, so every call is answered once at most. Nothing but a shutdown stops the
engine from accepting, and nothing makes it accept again.
-/
namespace SubscriptionGateway

open Broker

namespace Engine

variable {e e' e'' : Engine} {a : Action} {b : BindingId} {s : SubscriptionId} {call : CallId}

/-! ## Who may subscribe, and which calls there have been -/

/-- Whether subscriptions are accepted, how many calls there were, and their answers. -/
structure Unasked (e e' : Engine) : Prop where
  accepting : e'.accepting = e.accepting
  calls : e'.calls = e.calls
  replies : e'.replies = e.replies

theorem unasked_refl (e : Engine) : Unasked e e := ⟨rfl, rfl, rfl⟩

theorem unasked_trans (first : Unasked e e') (second : Unasked e' e'') : Unasked e e'' :=
  ⟨second.accepting.trans first.accepting, second.calls.trans first.calls,
    second.replies.trans first.replies⟩

theorem unasked_after (first : Unasked e e') (accepting : e''.accepting = e'.accepting)
    (calls : e''.calls = e'.calls) (replies : e''.replies = e'.replies) : Unasked e e'' :=
  unasked_trans first ⟨accepting, calls, replies⟩

structure Outer (e e' : Engine) : Prop where
  now : e'.now = e.now
  hub : e'.hub = e.hub

theorem outer_refl (e : Engine) : Outer e e := ⟨rfl, rfl⟩

theorem outer_trans (first : Outer e e') (second : Outer e' e'') : Outer e e'' :=
  ⟨second.now.trans first.now, second.hub.trans first.hub⟩

/-- Nothing of either is touched by what goes on among subscriptions, bindings and connections. -/
structure Inward (e e' : Engine) : Prop extends Unasked e e', Outer e e'

theorem inward_same (accepting : e'.accepting = e.accepting) (calls : e'.calls = e.calls)
    (replies : e'.replies = e.replies) (now : e'.now = e.now) (hub : e'.hub = e.hub) :
    Inward e e' :=
  ⟨⟨accepting, calls, replies⟩, ⟨now, hub⟩⟩

theorem inward_refl (e : Engine) : Inward e e := inward_same rfl rfl rfl rfl rfl

theorem inward_trans (first : Inward e e') (second : Inward e' e'') : Inward e e'' :=
  ⟨unasked_trans first.toUnasked second.toUnasked, outer_trans first.toOuter second.toOuter⟩

theorem Records.inward (records : Records e e') : Inward e e' := by
  obtain ⟨_, _, _, _, _, _, rfl⟩ := records
  exact inward_same rfl rfl rfl rfl rfl

theorem inward_seek (e : Engine) (call : CallId) (s : SubscriptionId) (key : SourceKey) :
    Inward e (e.seek call s key).engine := (records_seek e call s key).inward

theorem inward_admission (e : Engine) (b : BindingId) (s : SubscriptionId) (x : Subscriber) :
    Inward e (e.admission b s x) :=
  inward_trans (records_enroll e b s x).inward (inward_same rfl rfl rfl rfl rfl)

theorem inward_refusal (e : Engine) (b : BindingId) (s : SubscriptionId) (x : Subscriber) :
    Inward e (e.refusal b s x) := by
  have left := records_trans (records_enroll e b s x) (records_leave (e.enroll b s x) b s)
  have struck : Records e (((e.enroll b s x).leave b s).deregister s) :=
    records_trans left ⟨_, _, _, _, _, _, rfl⟩
  exact (records_trans struck (records_endLife _ s Lifecycle.cancel)).inward

theorem inward_scheduleAll (event : BrokerEvent) (ss : List SubscriptionId) (e : Engine) :
    Inward e (scheduleAll event ss e).2 := by
  obtain ⟨n, records⟩ := records_scheduleAll event ss e
  refine inward_trans ?_ records.inward
  exact inward_same rfl rfl rfl rfl rfl

/-- What belongs to no call and turns to nobody outside. -/
def Action.inward : Action → Bool
  | .unsubscribe _ | .terminate .. | .leave .. | .releaseInbox _ | .failBinding _ => true
  | .deliverNext _ | .resolve .. | .runResolver _ | .endResolver .. | .deliverOutcome .. => true
  | .endDelivery _ | .release _ | .connectionReleased | .releaseAll | .awaitDrain .. => true
  | .terminateAll | .sweepAll | .sweep _ | .awaitDeliveries | .pollDeliveries .. => true
  | _ => false

theorem perform_inward (e : Engine) (a : Action) (own : a.inward = true) :
    Inward e (e.perform a).engine := by
  cases a with
  | subscribe | join | openSource | dispatch | fanOut | consume | closeConsumer | offer | enqueue
  | shutdown | answer => simp [Action.inward] at own
  | unsubscribe s =>
    rcases unsubscribe_cases e s with eq | ⟨x, -, -, eq⟩ <;> rw [perform, eq]
    · exact inward_refl e
    · exact (records_depart e s _ Lifecycle.cancel).inward
  | terminate s t =>
    rcases terminate_cases e s t with eq | ⟨x, -, -, eq⟩ <;> rw [perform, eq]
    · exact inward_refl e
    · exact inward_trans (records_depart e s x.connection Lifecycle.retire).inward
        (inward_same rfl rfl rfl rfl rfl)
  | leave b s => exact (records_leave e b s).inward
  | releaseInbox s => exact (records_stopFeeding [s] e).inward
  | failBinding b =>
    exact inward_trans (records_empty e b).inward (inward_same rfl rfl rfl rfl rfl)
  | sweep b =>
    have starved := records_trans (records_empty e b) (records_stopFeeding (e.empty b).1 _)
    exact inward_trans starved.inward (inward_same rfl rfl rfl rfl rfl)
  | deliverNext s =>
    obtain ⟨next, -, eq | ⟨rest, n, eq⟩⟩ := deliverNext_cases e s <;> rw [perform, eq] <;>
    exact inward_same rfl rfl rfl rfl rfl
  | runResolver r =>
    rcases runResolver_cases e r with eq | ⟨_, _, _, -, -, -, eq⟩ <;> rw [perform, eq] <;>
    exact inward_same rfl rfl rfl rfl rfl
  | deliverOutcome s r =>
    rcases deliverOutcome_cases e s r with ⟨c, f, eq⟩ | eq | eq <;> rw [perform, eq] <;>
    exact inward_same rfl rfl rfl rfl rfl
  | endDelivery s =>
    rcases endDelivery_cases e s with eq | ⟨n, deliveries, eq⟩ <;> rw [perform, eq] <;>
    exact inward_same rfl rfl rfl rfl rfl
  | release c =>
    rcases release_cases e c with ⟨-, eq⟩ | ⟨e', -, rfl, eq⟩ <;> rw [perform, eq] <;>
    exact inward_same rfl rfl rfl rfl rfl
  | awaitDrain | pollDeliveries =>
    simp only [perform]
    split <;> exact inward_refl e
  | resolve | endResolver | connectionReleased | releaseAll | terminateAll | sweepAll
  | awaitDeliveries => exact inward_same rfl rfl rfl rfl rfl

/-! ## Calls and their answers -/

def Action.ticket? : Action → Option CallId
  | .subscribe call _ _ _ => some call
  | .join call _ _ => some call
  | .openSource call _ _ _ => some call
  | .dispatch call _ => some call
  | .fanOut call? _ _ => call?
  | .offer _ _ (.call call) => some call
  | .enqueue _ _ _ (.call call) => some call
  | .answer call _ => some call
  | _ => none

def Action.asks : Action → Bool
  | .subscribe .. | .join .. | .openSource .. => true
  | _ => false

/-- What an action may be answered with; whoever asks for a subscription gets one or a fault. -/
def FitReply (e : Engine) (a : Action) : Reply → Prop
  | .subscribed s => e.accepting = true ∧ ∃ b, a.seeks? = some (b, s)
  | .failed _ => True
  | _ => a.asks = false

def tickets (pool : List Action) : List CallId := pool.filterMap Action.ticket?

/-- Whether an action that is performed answers its call. -/
inductive Answered (e : Engine) (a : Action) (f : Effect) : Prop where
  | none (kept : f.engine.replies = e.replies)
      (onward : (tickets f.sequel).Sublist a.ticket?.toList)
  | reply (call : CallId) (r : Reply) (whose : a.ticket? = some call)
      (told : f.engine.replies = e.replies ++ [(call, r)]) (finished : tickets f.sequel = [])
      (fits : FitReply e a r)

structure Serves (e : Engine) (a : Action) (f : Effect) : Prop where
  accepting : f.engine.accepting = e.accepting ∨ f.engine.accepting = false
  calls : f.engine.calls = e.calls
  answered : Answered e a f

theorem serves_silent {f : Effect} (unasked : Unasked e f.engine) (silent : tickets f.sequel = []) :
    Serves e a f :=
  ⟨.inl unasked.accepting, unasked.calls, .none unasked.replies (silent ▸ List.nil_sublist _)⟩

theorem serves_onward {f : Effect} (unasked : Unasked e f.engine)
    (onward : tickets f.sequel = a.ticket?.toList) : Serves e a f :=
  ⟨.inl unasked.accepting, unasked.calls, .none unasked.replies (onward ▸ List.Sublist.refl _)⟩

theorem serves_reply {r : Reply} {next : List Action} {started : List (List Action)}
    (unasked : Unasked e e') (whose : a.ticket? = some call) (fits : FitReply e a r)
    (finished : tickets (next ++ started.flatten) = []) :
    Serves e a ⟨e'.reply call r, next, started⟩ := by
  refine ⟨.inl unasked.accepting, unasked.calls, .reply call r whose ?_ finished fits⟩
  exact congrArg (· ++ [(call, r)]) unasked.replies

theorem enter_serves {x : Subscriber} {started : List (List Action)} (unasked : Unasked e e')
    (accepting : e.accepting = true) (whose : a.ticket? = some call)
    (seeks : a.seeks? = some (b, s))
    (found : e'.subscribers[s]? = some x) (mute : tickets started.flatten = []) :
    Serves e a (e'.enter call b s started) := by
  rcases enter_cases call b started found with ⟨-, admitted⟩ | ⟨-, refused⟩
  · have all := unasked_trans unasked (inward_admission e' b s x).toUnasked
    rw [admitted]
    refine ⟨.inl all.accepting, all.calls, .reply call (.subscribed s) whose ?_ ?_ ?_⟩
    · exact congrArg (· ++ [(call, .subscribed s)]) all.replies
    · simpa [Effect.sequel, tickets, Action.ticket?] using mute
    · exact ⟨accepting, b, seeks⟩
  · rw [refused]
    exact serves_reply (unasked_trans unasked (inward_refusal e' b s x).toUnasked)
      whose trivial mute

theorem receipt_serves (unasked : Unasked e e') (result : Except Fault Unit) {r : Receipt}
    (plain : a.asks = false) (whose : ∀ call, r = .call call → a.ticket? = some call) :
    Serves e a (e'.receipt result r) := by
  cases r with
  | ending s => exact serves_silent unasked rfl
  | event s =>
    cases result with
    | ok => exact serves_silent (unasked_after unasked rfl rfl rfl) rfl
    | error => exact serves_silent (unasked_after unasked rfl rfl rfl) rfl
  | call call =>
    cases result with
    | ok => exact serves_reply unasked (whose call rfl) plain rfl
    | error => exact serves_reply unasked (whose call rfl) trivial rfl

theorem silent_sequel {a : Action} (silent : ∀ b, a.Brings b → b.ticket? = none) :
    tickets (e.perform a).sequel = [] := sequel_silent silent

theorem inward_brings {b : Action} (own : a.inward = true) (brings : a.Brings b) :
    b.ticket? = none := by
  cases a with
  | subscribe | join | openSource | dispatch | fanOut | consume | closeConsumer | offer | enqueue
  | shutdown | answer => cases own
  | unsubscribe | terminate | releaseAll | terminateAll | sweepAll | sweep | pollDeliveries =>
    obtain ⟨_, rfl⟩ := brings
    rfl
  | runResolver | awaitDeliveries =>
    obtain ⟨_, _, rfl⟩ := brings
    rfl
  | failBinding | resolve => obtain ⟨_, rfl | rfl⟩ := brings <;> rfl
  | deliverNext => obtain rfl | ⟨_, _, rfl⟩ | ⟨_, rfl⟩ | rfl := brings <;> rfl
  | deliverOutcome => obtain ⟨_, _, rfl⟩ | rfl := brings <;> rfl
  | release => obtain ⟨_, rfl⟩ | rfl := brings <;> rfl
  | awaitDrain => obtain ⟨_, rfl⟩ | rfl | rfl | rfl := brings <;> rfl
  | _ => cases brings

theorem inward_serves (own : a.inward = true) (silent : ∀ b, a.Brings b → b.ticket? = none) :
    Serves e a (e.perform a) :=
  serves_silent (perform_inward e a own).toUnasked (silent_sequel silent)

theorem enqueue_serves (c : ConnectionId) (f : Frame) (due : Nat) (r : Receipt) :
    Serves e (.enqueue c f due r) (e.enqueue c f r) := by
  have whose (call : CallId) (same : r = .call call) :
      (Action.enqueue c f due r).ticket? = some call := by rw [same]; rfl
  rcases enqueue_cases e c f r with ⟨-, eq⟩ | ⟨-, e', fault, eq, rfl | rfl⟩ <;> rw [eq]
  · refine receipt_serves ?_ _ rfl whose
    exact ⟨rfl, rfl, rfl⟩
  · exact receipt_serves (unasked_refl e') _ rfl whose
  · refine receipt_serves ?_ _ rfl whose
    exact ⟨rfl, rfl, rfl⟩

theorem perform_serves {rest : List Action} (sound : e.books.Sound (duties (a :: rest)))
    (plain : ∀ call r, a = .answer call r → r = .done) : Serves e a (e.perform a) := by
  cases a with
  | subscribe call c clientId r =>
    rcases subscribe_cases e call c clientId r with ⟨fault, eq⟩ | ⟨compiled, -, -, eq⟩ <;> rw [eq]
    · exact serves_reply (unasked_refl e) rfl trivial rfl
    · refine serves_onward (unasked_trans ?_ (inward_seek _ call _ _).toUnasked) rfl
      exact ⟨rfl, rfl, rfl⟩
  | join call k s =>
    obtain ⟨y, here, -, -⟩ := seeker_binding sound rfl
    obtain ⟨x, found, -⟩ := seeker_pending sound rfl
    rcases joinBinding_cases call s here with ⟨-, eq⟩ | ⟨-, accepting, eq⟩ | ⟨-, -,
      eq⟩ | ⟨-, eq⟩ <;>
    rw [perform, eq]
    · have unlisted : Unasked e (e.unlist k) := ⟨rfl, rfl, rfl⟩
      exact serves_onward
        (unasked_trans unlisted (inward_seek (e.unlist k) call s y.key).toUnasked) rfl
    · exact enter_serves (unasked_refl e) accepting rfl rfl found rfl
    · exact serves_reply (unasked_refl e) rfl trivial rfl
    · exact serves_onward ⟨rfl, rfl, rfl⟩ rfl
  | openSource call k s due =>
    obtain ⟨y, here, -, -⟩ := seeker_binding sound rfl
    obtain ⟨x, found, -⟩ := seeker_pending sound rfl
    rcases openBinding_cases call s here with ⟨fault, hub, -, eq⟩ | ⟨c, hub, -, accepting, eq⟩ |
      ⟨c, hub, -, -, eq⟩ <;> rw [perform, eq]
    · exact serves_reply ⟨rfl, rfl, rfl⟩ rfl trivial rfl
    · exact enter_serves (x := x) ⟨rfl, rfl, rfl⟩ accepting rfl rfl found rfl
    · exact serves_reply ⟨rfl, rfl, rfl⟩ rfl trivial rfl
  | dispatch call event =>
    simp only [perform]
    split
    · exact serves_onward (unasked_refl e) rfl
    · exact serves_reply (unasked_refl e) rfl rfl rfl
  | fanOut call? k event =>
    have all := (inward_scheduleAll event (e.targets k) e).toUnasked
    simp only [perform, fanOut_targets]
    cases call? with
    | none => exact serves_silent all rfl
    | some call => exact serves_reply all rfl rfl rfl
  | consume k c w =>
    obtain ⟨hub, next, eq, -⟩ := consumeNext_cases e k c w
    refine serves_silent ?_ (silent_sequel
      (by rintro b (⟨event, rfl⟩ | ⟨w', rfl⟩ | rfl | rfl) <;> rfl))
    rw [perform, eq]
    exact ⟨rfl, rfl, rfl⟩
  | offer c f r =>
    rcases offer_cases e c f r with ⟨-, eq⟩ | ⟨-, eq⟩ <;> rw [perform, eq]
    · exact receipt_serves (unasked_refl e) _ rfl fun call same => by rw [same]; rfl
    · cases r with
      | call call => exact serves_onward (unasked_refl e) rfl
      | event | ending => exact serves_silent (unasked_refl e) rfl
  | enqueue c f due r => exact enqueue_serves c f due r
  | shutdown drainMs => exact ⟨.inr rfl, rfl, .none rfl (List.nil_sublist _)⟩
  | answer call r =>
    obtain rfl := plain call r rfl
    exact serves_reply (unasked_refl e) rfl rfl rfl
  | closeConsumer => exact serves_silent ⟨rfl, rfl, rfl⟩ rfl
  | _ => exact inward_serves rfl fun b brings => inward_brings rfl brings

/-! ## Every call is answered once at most -/

structure Honored (e : Engine) (pool : List Action) : Prop where
  plain : ∀ call r, .answer call r ∈ pool → r = .done
  known : ∀ call ∈ e.replies.map (·.1) ++ tickets pool, call < e.calls
  once : (e.replies.map (·.1) ++ tickets pool).Nodup

variable {pool rest : List Action}

theorem brings_no_answer {a : Action} {call : CallId} {r : Reply} :
    ¬ a.Brings (.answer call r) := by
  cases a <;> simp [Action.Brings]

theorem tickets_append (p q : List Action) : tickets (p ++ q) = tickets p ++ tickets q :=
  List.filterMap_append

theorem tickets_cons (a : Action) (rest : List Action) :
    tickets (a :: rest) = a.ticket?.toList ++ tickets rest := by
  cases ticket : a.ticket? <;> simp [tickets, ticket]

open scoped List in
/-- Answers and calls that go on come out of the calls there were. -/
theorem answered_served {f : Effect} (answered : Answered e a f) :
    (f.engine.replies.map (·.1) ++ tickets (f.sequel ++ rest)) <+
      (e.replies.map (·.1) ++ tickets (a :: rest)) := by
  rw [tickets_append, tickets_cons]
  cases answered with
  | none kept onward =>
    rw [kept]
    exact (onward.append_right _).append_left _
  | reply call r whose told finished _ =>
    rw [told, finished, whose]
    simp

theorem perform_honored (sound : e.books.Sound (duties (a :: rest)))
    (honored : Honored e (a :: rest)) :
    Honored (e.perform a).engine ((e.perform a).sequel ++ rest) := by
  have serves := perform_serves sound fun call r same =>
    honored.plain call r (same ▸ List.mem_cons_self ..)
  have served : ((e.perform a).engine.replies.map (·.1) ++
      tickets ((e.perform a).sequel ++ rest)).Sublist
        (e.replies.map (·.1) ++ tickets (a :: rest)) := answered_served serves.answered
  refine ⟨fun call r member => ?_, fun call member => ?_, honored.once.sublist served⟩
  · rcases List.mem_append.mp member with new | old
    · exact absurd (perform_brings e a _ new) brings_no_answer
    · exact honored.plain call r (List.mem_cons_of_mem _ old)
  · rw [serves.calls]
    exact honored.known call (served.subset member)

theorem task_tickets (e : Engine) (i : Input) :
    (i.task e = [] ∧ (i.apply e).calls = e.calls) ∨
      tickets (i.task e) = [e.calls] ∧ (i.apply e).calls = e.calls + 1 := by
  cases i with
  | call k => cases k <;> exact .inr ⟨rfl, rfl⟩
  | take c most =>
    left
    simp only [Input.apply, takeFrames]
    split <;> exact ⟨rfl, rfl⟩
  | _ => exact .inl ⟨rfl, rfl⟩

theorem input_replies (e : Engine) (i : Input) : (i.apply e).replies = e.replies := by
  cases i with
  | take c most =>
    simp only [Input.apply, takeFrames]
    split <;> rfl
  | _ => rfl

theorem input_honored (i : Input) (honored : Honored e pool) :
    Honored (i.apply e) (i.task e ++ pool) := by
  have plain (call : CallId) (r : Reply) (member : .answer call r ∈ i.task e) : r = .done := by
    cases task_begins member
    rfl
  have answers (call : CallId) (r : Reply) (member : .answer call r ∈ i.task e ++ pool) :
      r = .done := by
    rcases List.mem_append.mp member with new | old
    · exact plain call r new
    · exact honored.plain call r old
  rcases task_tickets e i with ⟨none, same⟩ | ⟨one, more⟩
  · refine ⟨answers, ?_, ?_⟩
    · rw [input_replies, none, same]
      exact honored.known
    · rw [input_replies, none]
      exact honored.once
  · have fresh : e.calls ∉ e.replies.map (·.1) ++ tickets pool := fun old =>
      Nat.lt_irrefl _ (honored.known _ old)
    have whole : (e.replies.map (·.1) ++ tickets (i.task e ++ pool)).Perm
        (e.calls :: (e.replies.map (·.1) ++ tickets pool)) := by
      rw [tickets_append, one]
      exact List.perm_middle
    rw [← input_replies e i] at whole fresh
    refine ⟨answers, fun call member => ?_, ?_⟩
    · rw [more]
      rcases List.mem_cons.mp (whole.mem_iff.mp member) with rfl | old
      · exact Nat.lt_succ_self _
      · rw [input_replies] at old
        exact Nat.lt_succ_of_lt (honored.known call old)
    · refine whole.nodup_iff.mpr (List.nodup_cons.mpr ⟨fresh, ?_⟩)
      rw [input_replies]
      exact honored.once

theorem honored_shuffle {p q : List Action} (perm : p.Perm q) (honored : Honored e p) :
    Honored e q where
  plain call r member := honored.plain call r (perm.mem_iff.mpr member)
  known call member := honored.known call
    (((perm.filterMap Action.ticket?).append_left _).mem_iff.mpr member)
  once := ((perm.filterMap Action.ticket?).append_left _).nodup_iff.mp honored.once

theorem honored_rest (honored : Honored e (a :: rest)) : Honored e rest where
  plain call r member := honored.plain call r (List.mem_cons_of_mem a member)
  known call member := by
    refine honored.known call ?_
    rw [tickets_cons]
    exact (List.Sublist.append_left (List.sublist_append_right _ _) _).subset member
  once := by
    refine honored.once.sublist (List.Sublist.append_left ?_ _)
    rw [tickets_cons]
    exact List.sublist_append_right _ _

theorem honored_upheld : Upheld Accounted fun e ts _ => Honored e ts.flatten := by
  refine upheld_pending (P := fun e pool _ => Honored e pool) ?_ ?_ ?_
  · intro e p q log perm honored
    exact honored_shuffle perm honored
  · intro e ts log i _ honored
    exact input_honored i honored
  · intro e a rest ts log _ pending sound honored
    exact perform_honored (sound.sound pending) honored

/-! ## Whose an answer is -/

variable {k : CallId} {x : Action}

theorem mem_tickets (member : a ∈ pool) (whose : a.ticket? = some k) : k ∈ tickets pool :=
  List.mem_filterMap.mpr ⟨a, member, whose⟩

theorem sequel_whose {f : Effect} (answered : Answered e a f) (member : x ∈ f.sequel)
    (whose : x.ticket? = some k) : a.ticket? = some k := by
  have pending := mem_tickets member whose
  cases answered with
  | none _ onward => simpa using onward.subset pending
  | reply call r _ _ finished _ => simp [finished] at pending

theorem replied_whose {f : Effect} {r : Reply} (answered : Answered e a f)
    (replied : (k, r) ∈ f.engine.replies) :
    (k, r) ∈ e.replies ∨ a.ticket? = some k ∧ FitReply e a r := by
  cases answered with
  | none kept _ => exact .inl (kept ▸ replied)
  | reply call r' whose told _ fits =>
    rw [told, List.mem_append] at replied
    refine replied.imp_right fun last => ?_
    obtain ⟨rfl, rfl⟩ : k = call ∧ r = r' := by simpa using last
    exact ⟨whose, fits⟩

theorem task_whose {i : Input} (made : k < e.calls) (member : x ∈ i.task e) :
    x.ticket? ≠ some k := fun whose => by
  have pending := mem_tickets member whose
  rcases task_tickets e i with ⟨none, -⟩ | ⟨one, -⟩
  · simp [none] at member
  · obtain rfl : k = e.calls := by simpa [one] using pending
    exact Nat.lt_irrefl _ made

theorem input_made (i : Input) (made : k < e.calls) : k < (i.apply e).calls := by
  rcases task_tickets e i with ⟨-, same⟩ | ⟨-, more⟩
  · exact same ▸ made
  · exact more ▸ Nat.lt_succ_of_lt made

theorem mem_of_reply {r : Reply} (answer : e.reply? k = some r) : (k, r) ∈ e.replies := by
  simp only [reply?, Option.map_eq_some_iff] at answer
  obtain ⟨⟨k', r'⟩, found, rfl⟩ := answer
  obtain rfl : k' = k := by simpa using List.find?_some found
  exact List.mem_of_find?_eq_some found

theorem not_mem_of_reply (unanswered : e.reply? k = none) (r : Reply) : (k, r) ∉ e.replies := by
  intro member
  simp only [reply?, Option.map_eq_none_iff] at unanswered
  simpa using List.find?_eq_none.mp unanswered _ member

/-! ## A call that subscribes -/

/-- Whatever belongs to the call asks for a subscription, and it gets one or a fault. -/
structure Asking (k : CallId) (e : Engine) (pool : List Action) : Prop where
  made : k < e.calls
  asks : ∀ a ∈ pool, a.ticket? = some k → a.asks = true
  replies : ∀ r, (k, r) ∈ e.replies → (∃ fault, r = .failed fault) ∨ ∃ s, r = .subscribed s

theorem brings_asking {a : Action} (asks : a.asks = true) (brings : a.Brings x)
    (whose : x.ticket? = some k) : x.asks = true := by
  cases a with
  | subscribe =>
    obtain ⟨_, _, rfl⟩ := brings
    rfl
  | join =>
    rcases brings with ⟨_, rfl⟩ | ⟨_, rfl⟩ | rfl
    · rfl
    · rfl
    · simp [Action.ticket?] at whose
  | openSource =>
    rcases brings with ⟨_, rfl⟩ | rfl <;> simp [Action.ticket?] at whose
  | _ => simp [Action.asks] at asks

theorem asking_upheld (k : CallId) :
    Upheld (fun e ts log => Accounted e ts log ∧ Honored e ts.flatten)
      fun e ts _ => Asking k e ts.flatten := by
  refine upheld_pending (P := fun e pool _ => Asking k e pool) ?_ ?_ ?_
  · intro e p q log perm asking
    exact ⟨asking.made, fun a member => asking.asks a (perm.mem_iff.mpr member), asking.replies⟩
  · intro e ts log i _ asking
    refine ⟨input_made i asking.made, fun a member whose => ?_, input_replies e i ▸ asking.replies⟩
    rcases List.mem_append.mp member with new | old
    · exact absurd whose (task_whose asking.made new)
    · exact asking.asks a old whose
  · rintro e a rest ts log - pending ⟨sound, honored⟩ asking
    rw [pending] at honored
    have serves := perform_serves (sound.sound pending) fun call r same =>
      honored.plain call r (same ▸ List.mem_cons_self ..)
    have asks := asking.asks a (List.mem_cons_self ..)
    refine ⟨serves.calls ▸ asking.made, fun x member whose => ?_, fun r replied => ?_⟩
    · rcases List.mem_append.mp member with new | old
      · exact brings_asking (asks (sequel_whose serves.answered new whose))
          (perform_brings e a x new) whose
      · exact asking.asks x (List.mem_cons_of_mem _ old) whose
    · rcases replied_whose serves.answered replied with old | ⟨whose, fits⟩
      · exact asking.replies r old
      · cases r with
        | failed fault => exact .inl ⟨fault, rfl⟩
        | subscribed s => exact .inr ⟨s, rfl⟩
        | done | scheduled => simp [FitReply, asks whose] at fits

theorem asking_begun {w : World} (honored : Honored w.state w.pending) (c : ConnectionId)
    (clientId : String) (r : Request) :
    Asking w.state.calls (w.input (.call (.subscribe c clientId r))).state
      (w.input (.call (.subscribe c clientId r))).pending := by
  rw [World.input_state, World.input_pending]
  refine ⟨Nat.lt_succ_self _, fun a member whose => ?_, fun reply replied => ?_⟩
  · rcases List.mem_append.mp member with old | new
    · have known := honored.known _ (List.mem_append_right _ (mem_tickets old whose))
      exact absurd known (Nat.lt_irrefl _)
    · obtain rfl := List.mem_singleton.mp new
      rfl
  · have before := honored.known _ (List.mem_append_left _ (List.mem_map_of_mem replied))
    exact absurd before (Nat.lt_irrefl _)

end Engine

end SubscriptionGateway
