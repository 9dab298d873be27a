import SubscriptionGateway.Proofs.Engine.Consumers
import SubscriptionGateway.Proofs.Engine.Delivery

/-!
To whom a dispatch gives its event. The members of the open binding of a key are the registered
subscriptions to that key, apart from those that a failed source or a shutdown has taken out of
their binding and is about to end. Each of them gets the event once, or has its connection closed
when its inbox is full, and nobody else notices anything.
-/
namespace SubscriptionGateway

open Broker

namespace Subscriber

def take (x : Subscriber) (event : BrokerEvent) : Subscriber :=
  { x with inbox := x.inbox ++ [event] }

end Subscriber

namespace Connection

/-- What becomes of a connection whose client does not keep up. -/
def shut (z : Connection) : Connection := { z with closed := true, cancelled := true }

end Connection

namespace Engine

variable {e e' : Engine} {a : Action} {b : BindingId} {s : SubscriptionId} {x : Subscriber}
  {event : BrokerEvent} {pool rest : List Action}

def isFull (e : Engine) (x : Subscriber) : Bool :=
  decide (max e.setup.inboxCapacity 1 ≤ x.inbox.length)

def admits (e : Engine) (s : SubscriptionId) : Bool :=
  match e.subscribers[s]? with
  | some x => x.delivering && !e.isFull x
  | none => false

/-- Its inbox would take an event, were it not full, and this is its connection. -/
def overflows (e : Engine) (c : ConnectionId) (s : SubscriptionId) : Bool :=
  match e.subscribers[s]? with
  | some x => x.delivering && e.isFull x && x.connection == c
  | none => false

structure Given (e : Engine) (event : BrokerEvent) (ss : List SubscriptionId) (n : Nat)
    (e' : Engine) : Prop where
  count : n = (ss.filter e.admits).length
  subscribers : ∀ s, e'.subscribers[s]? = e.subscribers[s]?.map fun x =>
    if s ∈ ss ∧ e.admits s = true then x.take event else x
  connections : ∀ c, e'.connections[c]? = e.connections[c]?.map fun z =>
    if ss.any (e.overflows c) then z.shut else z
  others : e' = { e with
    subscribers := e'.subscribers, connections := e'.connections, inFlight := e.inFlight + n }

/-! ## Giving -/

theorem schedule_cases (event : BrokerEvent) (s : SubscriptionId) (e : Engine) :
    (e.admits s = true ∧ (∀ c, e.overflows c s = false) ∧ e.schedule event s =
      (true, { e.updateSubscriber s (fun x => x.take event) with
        inFlight := e.inFlight + 1 })) ∨
    (∃ c, e.admits s = false ∧ (∀ c', e.overflows c' s = (c == c')) ∧
      e.schedule event s = (false, e.updateConnection c Connection.shut)) ∨
    (e.admits s = false ∧ (∀ c, e.overflows c s = false) ∧ e.schedule event s = (false, e)) := by
  cases found : e.subscribers[s]? with
  | none =>
    right; right
    simp [admits, overflows, schedule, found]
  | some x =>
    cases delivering : x.delivering with
    | false =>
      right; right
      simp [admits, overflows, schedule, found, delivering]
    | true =>
      by_cases full : max e.setup.inboxCapacity 1 ≤ x.inbox.length
      · right; left
        refine ⟨x.connection, ?_, fun c' => ?_, ?_⟩
        · simp only [admits, found, isFull, full, decide_true, Bool.not_true, Bool.and_false]
        · simp only [overflows, found, isFull, delivering, full, decide_true, Bool.true_and]
        · simp only [schedule, found, delivering, full, Bool.not_true, Bool.false_eq_true,
            ↓reduceIte]
          rfl
      · left
        refine ⟨?_, fun c => ?_, ?_⟩
        · simp only [admits, found, isFull, delivering, full, decide_false, Bool.not_false,
            Bool.true_and]
        · simp only [overflows, found, isFull, full, decide_false, Bool.and_false, Bool.false_and]
        · simp only [schedule, found, delivering, full, Bool.not_true, Bool.false_eq_true,
            ↓reduceIte]
          rfl

theorem admits_same (same : e'.subscribers[s]? = e.subscribers[s]?) (setup : e'.setup = e.setup) :
    e'.admits s = e.admits s := by
  simp only [admits, isFull, same, setup]

theorem overflows_same (same : e'.subscribers[s]? = e.subscribers[s]?) (setup : e'.setup = e.setup)
    (c : ConnectionId) : e'.overflows c s = e.overflows c s := by
  simp only [overflows, isFull, same, setup]

theorem schedule_given (event : BrokerEvent) (s : SubscriptionId) (e : Engine) :
    Given e event [s] (if (e.schedule event s).1 then 1 else 0) (e.schedule event s).2 := by
  have passes (admits : e.admits s = false) (t : SubscriptionId) :
      ¬ (t ∈ [s] ∧ e.admits t = true) := by
    rintro ⟨here, admitted⟩
    rw [List.mem_singleton.mp here, admits] at admitted
    exact absurd admitted Bool.false_ne_true
  rcases schedule_cases event s e with ⟨admits, fits, eq⟩ | ⟨c, admits, full, eq⟩ |
    ⟨admits, fits, eq⟩
  · rw [eq]
    refine ⟨by simp [admits], fun t => ?_, fun c => by simp [fits, updateSubscriber], rfl⟩
    by_cases same : s = t
    · subst same
      simp [updateSubscriber, admits]
    · simp [updateSubscriber, same, Ne.symm same]
  · rw [eq]
    refine ⟨by simp [admits], fun t => ?_, fun c' => ?_, rfl⟩
    · simp only [updateConnection, passes admits t, ↓reduceIte, Option.map_id']
    · by_cases same : c = c'
      · subst same
        simp [updateConnection, full]
      · simp [updateConnection, full, same]
  · rw [eq]
    refine ⟨by simp [admits], fun t => ?_, fun c => by simp [fits], rfl⟩
    simp only [passes admits t, ↓reduceIte, Option.map_id']

theorem Given.cons {ss : List SubscriptionId} {m n : Nat} {e'' : Engine}
    (first : Given e event [s] m e') (outsider : s ∉ ss) (later : Given e' event ss n e'') :
    Given e event (s :: ss) (m + n) e'' := by
  have setup : e'.setup = e.setup := by rw [first.others]
  have same (t : SubscriptionId) (member : t ∈ ss) : e'.subscribers[t]? = e.subscribers[t]? := by
    have other : t ≠ s := fun here => outsider (here ▸ member)
    rw [first.subscribers t]
    simp [other]
  have admits (t : SubscriptionId) (member : t ∈ ss) : e'.admits t = e.admits t :=
    admits_same (same t member) setup
  have overflows (c : ConnectionId) : ss.any (e'.overflows c) = ss.any (e.overflows c) := by
    rw [Bool.eq_iff_iff, List.any_eq_true, List.any_eq_true]
    refine exists_congr fun t => and_congr_right fun member => ?_
    rw [overflows_same (same t member) setup c]
  refine ⟨?_, fun t => ?_, fun c => ?_, ?_⟩
  · rw [first.count, later.count, List.filter_congr admits, ← List.length_append,
      ← List.filter_append]
    rfl
  · rw [later.subscribers t]
    by_cases member : t ∈ ss
    · rw [same t member]
      simp [member, admits t member]
    · rw [first.subscribers t]
      simp [member, Function.comp_def]
  · rw [later.connections c, first.connections c, overflows, List.any_cons, List.any_cons,
      List.any_nil, Bool.or_false]
    generalize e.overflows c s = full
    generalize ss.any (e.overflows c) = fuller
    cases full <;> cases fuller <;> simp [Connection.shut, Function.comp_def]
  · rw [later.others, first.others]
    simp [Nat.add_assoc]

theorem scheduleAll_given (event : BrokerEvent) {ss : List SubscriptionId} (once : ss.Nodup)
    (e : Engine) : Given e event ss (scheduleAll event ss e).1 (scheduleAll event ss e).2 := by
  induction ss generalizing e with
  | nil => exact ⟨rfl, fun s => by simp [scheduleAll], fun c => by simp [scheduleAll], rfl⟩
  | cons s ss ih =>
    obtain ⟨outsider, once⟩ := List.nodup_cons.mp once
    have all := (schedule_given event s e).cons outsider (ih once _)
    have count : (scheduleAll event (s :: ss) e).1 = (if (e.schedule event s).1 then 1 else 0) +
        (scheduleAll event ss (e.schedule event s).2).1 := by
      simp only [scheduleAll]
      split <;> omega
    rw [count]
    exact all

/-! ## Who is found -/

def subscribes (e : Engine) (key : SourceKey) (s : SubscriptionId) : Bool :=
  e.isRegistered s && match e.subscribers[s]? with
    | some x => x.life.isActive && x.compiled.sourceKey == key
    | none => false

/-- Its binding has been closed over its head, by a failed source or by a shutdown. -/
def isCutOff (e : Engine) (s : SubscriptionId) : Bool :=
  match e.subscribers[s]?.bind (·.binding?) with
  | some b => e.books.stage b == some .closed
  | none => false

theorem subscribes_iff {d : Duties} (sound : e.books.Sound d) (key : SourceKey) :
    e.subscribes key s = true ↔ e.books.phase s = some .active ∧ e.books.key s = some key := by
  have registered := (isRegistered_iff e s).trans (sound.active_iff s)
  simp only [subscribes, Bool.and_eq_true, registered]
  cases found : e.subscribers[s]? with
  | none => simp [books, found]
  | some x => simp [books, found, Lifecycle.isActive]

theorem mem_targets_iff {y : Binding} (here : e.bindings[b]? = some y)
    (opened : y.phase = .opened) :
    s ∈ e.targets b ↔ s ∈ e.books.members b ∧ e.books.phase s = some .active := by
  simp only [targets, here, opened, ↓reduceIte, List.mem_filter, isActive, books]
  cases found : e.subscribers[s]? with
  | none => simp
  | some x => simp [Lifecycle.isActive]

/-- The active members of an open binding are those who subscribe to its key and have not been cut
off from their own binding. -/
theorem target_iff {d : Duties} (sound : e.books.Sound d) {y : Binding}
    (here : e.bindings[b]? = some y) (opened : y.phase = .opened) :
    s ∈ e.targets b ↔ e.subscribes y.key s = true ∧ e.isCutOff s = false := by
  have source : e.books.source b = some y.key := by simp [books, here]
  have stage : e.books.stage b = some .opened := by simp [books, here, opened]
  have placed : e.isCutOff s = match e.books.place s with
    | some b' => e.books.stage b' == some .closed
    | none => false := rfl
  rw [mem_targets_iff here opened, subscribes_iff sound, placed]
  constructor
  · rintro ⟨member, active⟩
    obtain ⟨place, same, -⟩ := sound.member b s member
    refine ⟨⟨active, same ▸ source⟩, ?_⟩
    simp [place, stage]
  · rintro ⟨⟨active, key⟩, attached⟩
    obtain ⟨b', place, same, member | ⟨-, closed⟩⟩ := sound.joined s active
    -- Both bindings are in use for the key, and there is one in use for a key only.
    · have stage' := sound.members_opened b' s member
      have listed := (sound.listed_iff y.key b).mpr ⟨source, by simp [stage]⟩
      have listed' := (sound.listed_iff y.key b').mpr ⟨same.trans key, by simp [stage']⟩
      have one := List.inj_on_of_nodup_map sound.listed_nodup listed listed' rfl
      obtain rfl : b = b' := congrArg Prod.snd one
      exact ⟨member, active⟩
    · simp [place, closed] at attached

theorem cutOff_ends {pool : List Action} (sound : e.books.Sound (duties pool)) {key : SourceKey}
    (subscribed : e.subscribes key s = true) (cut : e.isCutOff s = true) :
    ∃ t, .terminate s t ∈ pool := by
  obtain ⟨active, -⟩ := (subscribes_iff sound key).mp subscribed
  obtain ⟨b, place, -, member | ⟨asked, -⟩⟩ := sound.joined s active
  · have opened := sound.members_opened b s member
    have placed : e.subscribers[s]?.bind (·.binding?) = some b := place
    simp [isCutOff, placed, opened] at cut
  · obtain ⟨a, pending, ends⟩ := List.mem_filterMap.mp asked
    cases a with
    | terminate s' t =>
      obtain rfl : s' = s := by simpa [Action.terminates?] using ends
      exact ⟨t, pending⟩
    | _ => simp [Action.terminates?] at ends

/-! ## What a dispatch does -/

def receives (e : Engine) (key : SourceKey) (s : SubscriptionId) : Bool :=
  e.subscribes key s && !e.isCutOff s && e.admits s

def bursts (e : Engine) (key : SourceKey) (c : ConnectionId) (s : SubscriptionId) : Bool :=
  e.subscribes key s && !e.isCutOff s && e.overflows c s

/-- Everybody in an engine to whom an event goes has got it, once and at the end, and nobody else;
the connections of those whose inboxes are full are closed, and nothing else is different. -/
structure Routed (e : Engine) (event : BrokerEvent) (n : Nat) (e' : Engine) : Prop where
  count : n = ((List.range e.subscribers.length).filter (e.receives event.key)).length
  subscribers : ∀ s, e'.subscribers[s]? = e.subscribers[s]?.map fun x =>
    if e.receives event.key s then x.take event else x
  connections : ∀ c, e'.connections[c]? = e.connections[c]?.map fun z =>
    if (List.range e.subscribers.length).any (e.bursts event.key c) then z.shut else z
  others : e' = { e with
    subscribers := e'.subscribers, connections := e'.connections, inFlight := e.inFlight + n }

theorem fanOut_routed {d : Duties} (sound : e.books.Sound d) {y : Binding}
    (here : e.bindings[b]? = some y) (key : y.key = event.key) (opened : y.phase = .opened) :
    Routed e event (e.fanOut b event).1 (e.fanOut b event).2 := by
  rw [fanOut_targets]
  have once := targets_nodup sound b
  obtain ⟨count, subscribers, connections, others⟩ := scheduleAll_given event once e
  have target (s : SubscriptionId) : s ∈ e.targets b ↔
      e.subscribes event.key s = true ∧ e.isCutOff s = false :=
    key ▸ target_iff sound here opened
  have present (s : SubscriptionId) (member : s ∈ e.targets b) : s < e.subscribers.length := by
    have active := targets_active member
    simp only [isActive] at active
    split at active
    · rename_i found
      exact (List.getElem?_eq_some_iff.mp found).1
    · simp at active
  refine ⟨?_, fun s => ?_, fun c => ?_, others⟩
  · rw [count]
    refine List.Perm.length_eq ((List.perm_ext_iff_of_nodup (once.filter _)
      (List.nodup_range.filter _)).mpr fun s => ?_)
    simp only [List.mem_filter, List.mem_range, receives, Bool.and_eq_true, Bool.not_eq_true',
      ← target]
    exact ⟨fun kept => ⟨present s kept.1, kept⟩, And.right⟩
  · simp only [subscribers s, receives, Bool.and_eq_true, Bool.not_eq_true', ← target]
  · have same : (e.targets b).any (e.overflows c) =
        (List.range e.subscribers.length).any (e.bursts event.key c) := by
      rw [Bool.eq_iff_iff, List.any_eq_true, List.any_eq_true]
      refine exists_congr fun s => ?_
      simp only [List.mem_range, bursts, Bool.and_eq_true, Bool.not_eq_true', ← target]
      exact ⟨fun full => ⟨present s full.1, full⟩, And.right⟩
    rw [connections c, same]

theorem unopened_fanOut {y : Binding} (here : e.bindings[b]? = some y)
    (unopened : y.phase ≠ .opened) : e.fanOut b event = (0, e) := by
  simp only [fanOut, here, unopened, ↓reduceIte]

def Addressed (e : Engine) (pool : List Action) : Prop :=
  ∀ call b event, .fanOut (some call) b event ∈ pool →
    ∃ y, e.bindings[b]? = some y ∧ y.key = event.key

theorem addressed_upheld : Upheld Accounted fun e ts _ => Addressed e ts.flatten := by
  refine upheld_pending (P := fun e pool _ => Addressed e pool) ?_ ?_ ?_
  · intro e p q log perm addressed call b event member
    exact addressed call b event (perm.mem_iff.mpr member)
  · intro e ts log i _ addressed call b event member
    rw [(input_apart e i).bindings]
    rcases List.mem_append.mp member with new | old
    · cases task_begins new
    · exact addressed call b event old
  · intro e a rest ts log _ pending sound addressed call b event member
    have lasting (here : ∃ y, e.bindings[b]? = some y ∧ y.key = event.key) :
        ∃ y, (e.perform a).engine.bindings[b]? = some y ∧ y.key = event.key := by
      obtain ⟨y, here, key⟩ := here
      obtain ⟨y', there, ages⟩ := perform_lasts (sound.sound pending) here
      exact ⟨y', there, ages.key.trans key⟩
    rcases List.mem_append.mp member with new | old
    · have brought := perform_brings e a _ new
      cases a with
      | dispatch call' event' =>
        obtain ⟨k, same⟩ := brought
        cases same
        cases found : e.bindingFor? event.key with
        | none => simp [perform, found] at new
        | some k' =>
          simp only [perform, found, List.flatten_nil, List.append_nil, List.mem_singleton] at new
          cases new
          have listed := (bindingFor_listed e found).2
          obtain ⟨source, -⟩ := ((sound.sound pending).listed_iff event.key b).mp listed
          have known : e.bindings[b]?.map (·.key) = some event.key := source
          exact lasting (by simpa using known)
      | _ => simp [Action.Brings] at brought
    · exact lasting (addressed call b event (List.mem_cons_of_mem _ old))

/-- A dispatch that finds no binding, or one that is not open when its turn comes, answers nought
and changes nothing. One that has the turn of an open binding gives its event to exactly those who
subscribe to its key; and whoever has been cut off from it by then is about to be ended. -/
theorem dispatch_exact (setup : Setup) (hub : Hub) (moves : List Move) :
    let w := (World.start setup hub).play moves
    (∀ call event, w.state.bindingFor? event.key = none →
      w.state.perform (.dispatch call event) = ⟨w.state.reply call (.scheduled 0), [], []⟩) ∧
    (∀ call b event, .fanOut (some call) b event ∈ w.pending →
      ∃ y, w.state.bindings[b]? = some y ∧ y.key = event.key ∧
        (y.phase ≠ .opened → w.state.perform (.fanOut (some call) b event) =
          ⟨w.state.reply call (.scheduled 0), [], []⟩) ∧
        (y.phase = .opened → ∃ n e', Routed w.state event n e' ∧
          w.state.perform (.fanOut (some call) b event) =
            ⟨e'.reply call (.scheduled n), [], []⟩)) ∧
    ∀ key s, w.state.subscribes key s = true → w.state.isCutOff s = true →
      ∃ t, .terminate s t ∈ w.pending := by
  intro w
  have begun : Addressed (Engine.start setup hub) [] := fun _ _ _ none => by simp at none
  obtain ⟨sound, addressed⟩ :=
    ((start_accounted setup hub).and addressed_upheld begun).throughout moves
  refine ⟨fun call event absent => ?_, fun call b event pending => ?_, fun key s => ?_⟩
  · simp only [perform, absent]
  · obtain ⟨y, here, key⟩ := addressed call b event pending
    refine ⟨y, here, key, fun shut => ?_, fun opened => ?_⟩
    · have nobody : w.state.fanOut b event = (0, w.state) := unopened_fanOut here shut
      simp only [perform, nobody]
    · exact ⟨_, _, fanOut_routed sound here key opened, rfl⟩
  · exact cutOff_ends sound

def staffDispatch : List Move := staffMoves ++ [.input (.call (.dispatch staffEvent)), .step 2]

theorem staff_dispatch_exact :
    .fanOut (some 1) 0 staffEvent ∈ ((World.start staffSetup staffHub).play staffDispatch).pending ∧
    ∃ e', Routed ((World.start staffSetup staffHub).play staffDispatch).state staffEvent 1 e' ∧
      ((World.start staffSetup staffHub).play staffDispatch).state.perform
        (.fanOut (some 1) 0 staffEvent) = ⟨e'.reply 1 (.scheduled 1), [], []⟩ := by
  have waits : (((World.start staffSetup staffHub).play staffDispatch).pending.any fun
      | .fanOut call? b event => call? == some 1 && b == 0 && event == staffEvent
      | _ => false) = true := by decide +kernel
  have pending : .fanOut (some 1) 0 staffEvent ∈
      ((World.start staffSetup staffHub).play staffDispatch).pending := by
    obtain ⟨a, member, waiting⟩ := List.any_eq_true.mp waits
    split at waiting
    · obtain ⟨⟨rfl, rfl⟩, rfl⟩ := by simpa using waiting
      exact member
    · exact absurd waiting Bool.false_ne_true
  have one : ((List.range
      ((World.start staffSetup staffHub).play staffDispatch).state.subscribers.length).filter
      (((World.start staffSetup staffHub).play staffDispatch).state.receives
        staffEvent.key)).length = 1 := by decide +kernel
  have opened : ((World.start staffSetup staffHub).play staffDispatch).state.bindings[0]?.map
      (·.phase) = some .opened := by decide +kernel
  obtain ⟨-, exact, -⟩ := dispatch_exact staffSetup staffHub staffDispatch
  obtain ⟨y, here, key, -, opens⟩ := exact 1 0 staffEvent pending
  rw [here, Option.map_some] at opened
  obtain ⟨n, e', routed, answer⟩ := opens (Option.some.inj opened)
  have once : n = 1 := routed.count.trans one
  subst once
  exact ⟨pending, e', routed, answer⟩

end Engine

end SubscriptionGateway
