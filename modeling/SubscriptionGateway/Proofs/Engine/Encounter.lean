import SubscriptionGateway.Proofs.Engine.Story

/-!
Where a story is carried on by others: a call that registers the subscription begins it, and a
dispatch that finds the subscription adds an event to it.
-/
namespace SubscriptionGateway

open Broker

namespace Engine

variable {s : SubscriptionId} {e e' : Engine} {a : Action} {x x' : Subscriber}
  {pool pool' rest : List Action} {log log' : List Happening}

/-! ## A delivery begins -/

theorem story_begins (connected : x.connection < e.connections.length)
    (delivering : x.delivering = true) (running : x.termination? = none) (empty : x.inbox = [])
    (standing : stands s pool = [] ∨ stands s pool = [.next] ∧ x.life.phase ≠ .pending)
    (quiet : farewells s pool = []) (nothing : found s log = []) (silent : messages s log = []) :
    Story s e pool log x where
  connected := connected
  single := by rcases standing with none | ⟨next, -⟩ <;> simp [*]
  delivering _ := delivering
  termination t ended := by simp [running] at ended
  begins pending := by
    rcases standing with none | ⟨-, begun⟩
    · exact ⟨⟨none, quiet⟩, nothing, silent, empty, delivering⟩
    · exact absurd pending begun
  told := by
    refine ⟨[], [], ⟨[], by simp [nothing], by simp [silent], by simp⟩, ?_, by simp [quiet],
      by simp [quiet]⟩
    intro t member
    rcases standing with none | ⟨next, -⟩
    · simp [none] at member
    · rw [next] at member
      obtain rfl := List.mem_singleton.mp member
      refine ⟨fun _ _ => ?_, .inr (by simp [quiet])⟩
      simp [waiting, empty]

theorem register_subscriber {b : BindingId} (found : e.subscribers[s]? = some x)
    (pending : x.life.phase = .pending) :
    ∃ x', (e.register b s).2.subscribers[s]? = some x' ∧ x.Same x' ∧ x'.inbox = x.inbox ∧
      x'.delivering = x.delivering ∧ x'.termination? = x.termination? ∧
      x'.life.phase ≠ .pending := by
  let x' : Subscriber := { x with life := x.life.activate.2, binding? := some b }
  have active : x'.life.phase = .active := by simp [x', Lifecycle.activate, pending]
  have enrolled : (e.enroll b s x).subscribers[s]? = some x' := by
    simp only [enroll]
    split <;> simp [updateSubscriber, updateBinding, count, found, x']
  simp only [register, found, attach]
  cases closed : (e.enroll b s x).isClosed x.connection with
  | false =>
    exact ⟨x', enrolled, ⟨rfl, rfl, rfl⟩, rfl, rfl, rfl, by simp [active]⟩
  | true =>
    have undone := spares_trans (spares_leave (s := s) (e.enroll b s x) b s)
      (spares_before (spares_endLife (((e.enroll b s x).leave b s).deregister s) s
        (f := Lifecycle.cancel) fun _ => rfl) rfl rfl rfl rfl)
    obtain ⟨x'', found'', same, steady⟩ := undone.subscriber s x' enrolled
    have steady := steady rfl
    refine ⟨x'', found'', ⟨same.clientId, same.connection, same.compiled⟩, steady.inbox,
      steady.delivering, steady.termination, ?_⟩
    rcases steady.phase with still | past
    · simp [still, active]
    · simp [past]

theorem enter_continues {call : CallId} {b : BindingId} {started : List (List Action)}
    (found : e.subscribers[s]? = some x) (pending : x.life.phase = .pending)
    (story : Story s e (a :: rest) log x) (onward : Onward e (e.enter call b s started).engine)
    (mute : Mute s started.flatten) : Continues s (e.enter call b s started) rest log := by
  obtain ⟨x', found', same, inbox, delivering, termination, begun⟩ :=
    register_subscriber (b := b) found pending
  obtain ⟨before, nothing, silent, empty, ready⟩ := story.begins pending
  have running : x.termination? = none := by
    cases ended : x.termination? with
    | none => rfl
    | some t =>
      have past := (story.termination t ended).2
      simp [pending] at past
  have still : Mute s rest := by
    constructor
    · cases stand : a.stand? s with
      | none => simpa [Mute, stands, stand] using before.1
      | some t => simp [Mute, stands, stand] at before
    · cases farewell : a.farewell? s with
      | none => simpa [Mute, farewells, farewell] using before.2
      | some m => simp [Mute, farewells, farewell] at before
  have connected : x'.connection < (e.enter call b s started).engine.connections.length := by
    rw [same.connection]
    exact Nat.lt_of_lt_of_le story.connected onward.made
  simp only [enter] at connected ⊢
  generalize e.register b s = r at *
  obtain ⟨answer, e'⟩ := r
  cases answer with
  | error fault =>
    refine ⟨x', found', story_begins connected (delivering.trans ready) (termination.trans running)
      (inbox.trans empty) (.inl ?_) ?_ nothing silent⟩
    · simp [stands_append, mute.1, still.1]
    · simp [farewells_append, mute.2, still.2]
  | ok u =>
    refine ⟨x', found', story_begins connected (delivering.trans ready) (termination.trans running)
      (inbox.trans empty) (.inr ⟨?_, begun⟩) ?_ nothing silent⟩
    · rw [List.nil_append, List.flatten_append, stands_append, stands_append, mute.1, still.1]
      simp [stands, Action.stand?]
    · rw [List.nil_append, List.flatten_append, farewells_append, farewells_append, mute.2, still.2]
      rfl

/-! ## An event is found -/

theorem closeConnection_closed (e : Engine) (c : ConnectionId) :
    (e.closeConnection c).2.isClosed c = true := by
  simp only [closeConnection, updateConnection, isClosed, List.getElem?_modify_eq]
  cases e.connections[c]? <;> rfl

/-- What an inbox that has been given an event is like; it has taken it, or its delivery is over
or its connection closed. -/
structure Gave (s : SubscriptionId) (event : BrokerEvent) (taken : Bool) (e' : Engine)
    (x x' : Subscriber) : Prop where
  here : e'.subscribers[s]? = some x'
  same : x.Same x'
  delivering : x'.delivering = x.delivering
  termination : x'.termination? = x.termination?
  phase : x'.life.phase = x.life.phase ∨ x'.life.phase = .cancelled
  took : taken = true → waiting x' = waiting x ++ [(event, true)]
  refused : taken = false → x.delivering = true → e'.isClosed x.connection = true

theorem schedule_gave (event : BrokerEvent) (found : e.subscribers[s]? = some x) :
    ∃ x', Gave s event (e.schedule event s).1 (e.schedule event s).2 x x' := by
  simp only [schedule, found]
  split
  · rename_i past
    refine ⟨x, found, ⟨rfl, rfl, rfl⟩, rfl, rfl, .inl rfl, by simp, fun _ delivering => ?_⟩
    simp [delivering] at past
  split
  · exact ⟨x, found, ⟨rfl, rfl, rfl⟩, rfl, rfl, .inl rfl, by simp,
      fun _ _ => closeConnection_closed e _⟩
  · exact ⟨{ x with inbox := x.inbox ++ [event] }, by simp [updateSubscriber, found],
      ⟨rfl, rfl, rfl⟩, rfl, rfl, .inl rfl, fun _ => by simp [waiting], by simp⟩

theorem scheduleAll_gave (event : BrokerEvent) {ss : List SubscriptionId} (once : ss.Nodup)
    (member : s ∈ ss) (present : e.subscribers[s]? = some x) :
    ∃ x' taken, found s ((given event ss e).map fun t => .found t.1 event t.2) =
        [(event, taken)] ∧ Gave s event taken (scheduleAll event ss e).2 x x' := by
  induction ss generalizing e x with
  | nil => simp at member
  | cons a ss ih =>
    obtain ⟨absent, once⟩ := List.nodup_cons.mp once
    simp only [given, scheduleAll, List.map_cons]
    by_cases here : a = s
    · subst here
      obtain ⟨x', gave⟩ := schedule_gave event present
      have later := spares_scheduleAll event ss (e.schedule event a).2 absent
      obtain ⟨x'', found'', same, steady⟩ := later.subscriber a x' gave.here
      have steady := steady rfl
      refine ⟨x'', (e.schedule event a).1, ?_, found'', ?_, ?_, ?_, ?_, ?_, ?_⟩
      · have others : a ∉ (given event ss (e.schedule event a).2).map (·.1) := by
          rw [given_who]
          exact absent
        have rest := found_given event others
        simp only [found] at rest ⊢
        simp [rest]
      · exact ⟨same.clientId.trans gave.same.clientId,
          same.connection.trans gave.same.connection, same.compiled.trans gave.same.compiled⟩
      · exact steady.delivering.trans gave.delivering
      · exact steady.termination.trans gave.termination
      · rcases steady.phase with still | past
        · rw [still]
          exact gave.phase
        · exact .inr past
      · intro took
        rw [waiting, steady.inbox]
        exact gave.took took
      · intro refused delivering
        have closed := gave.refused refused delivering
        refine Bool.eq_true_of_not_eq_false fun isOpen => ?_
        have before := later.closed _ isOpen
        simp [closed] at before
    · have spared := spares_schedule e event here
      obtain ⟨x', found', same, steady⟩ := spared.subscriber s x present
      have steady := steady rfl
      have member : s ∈ ss := by simpa [Ne.symm here] using member
      obtain ⟨x'', taken, told, gave⟩ := ih once member found'
      refine ⟨x'', taken, ?_, gave.here, ?_, ?_, ?_, ?_, ?_, ?_⟩
      · simp only [found] at told ⊢
        simp [here, told]
      · exact ⟨gave.same.clientId.trans same.clientId,
          gave.same.connection.trans same.connection, gave.same.compiled.trans same.compiled⟩
      · exact gave.delivering.trans steady.delivering
      · exact gave.termination.trans steady.termination
      · rcases gave.phase with still | past
        · rw [still]
          exact steady.phase
        · exact .inr past
      · intro took
        rw [gave.took took, waiting, waiting, steady.inbox]
      · intro refused delivering
        rw [← same.connection]
        exact gave.refused refused (steady.delivering.trans delivering)

/-- An event that is found comes last of those ahead, and one that is not taken never ahead of
anything that is still to be answered. -/
theorem ahead_found {event : BrokerEvent} {taken : Bool} {ahead : List (BrokerEvent × Bool)}
    {t : Stand} (gave : Gave s event taken e' x x') (onward : Onward e e')
    (connected : x.connection < e.connections.length) (delivering : x.delivering = true)
    (before : Ahead s e x ahead t) : Ahead s e' x' (ahead ++ [(event, taken)]) t := by
  have active (act : x'.life.isActive = true) : x.life.isActive = true := by
    rcases gave.phase with still | past
    · simpa only [Lifecycle.isActive, still] using act
    · simp [Lifecycle.isActive, past] at act
  /- While the connection is open the inbox has taken the event. -/
  have waits (isOpen : e'.isClosed x'.connection = false) :
      e.isClosed x.connection = false ∧ waiting x ++ [(event, taken)] = waiting x' := by
    rw [gave.same.connection] at isOpen
    refine ⟨onward.closed _ connected isOpen, ?_⟩
    cases took : taken with
    | true => exact (gave.took took).symm
    | false => simp [gave.refused took delivering] at isOpen
  cases t with
  | next =>
    intro act isOpen
    rw [before (active act) (waits isOpen).1, (waits isOpen).2]
  | resolve ev =>
    intro act isOpen
    rw [before (active act) (waits isOpen).1, List.cons_append, (waits isOpen).2]
  | outcome r =>
    obtain ⟨y, read, who, before⟩ := before
    obtain ⟨y', read', who', ev⟩ := onward.outlives r y read
    refine ⟨y', read', who'.trans who, fun act isOpen => ?_⟩
    rw [before (active act) (waits isOpen).1, List.cons_append, (waits isOpen).2, ev]
  | offer c f =>
    obtain ⟨ev, frame, before⟩ := before
    refine ⟨ev, frame.trans (answerFrame_same gave.same onward.setup ev).symm, fun isOpen => ?_⟩
    rw [before (waits isOpen).1, List.cons_append, (waits isOpen).2]
  | enqueue c f =>
    obtain ⟨ev, later, frame, rfl, before⟩ := before
    refine ⟨ev, later ++ [(event, taken)],
      frame.trans (answerFrame_same gave.same onward.setup ev).symm, rfl, fun isOpen => ?_⟩
    rw [before (waits isOpen).1, (waits isOpen).2]
  | done => trivial

theorem Story.finds {event : BrokerEvent} {taken : Bool} (story : Story s e pool log x)
    (gave : Gave s event taken e' x x') (onward : Onward e e') (active : x.life.isActive = true)
    (foundMore : found s log' = found s log ++ [(event, taken)])
    (messagesSame : messages s log' = messages s log) (standsSame : stands s pool' = stands s pool)
    (farewellsSame : farewells s pool' = farewells s pool) : Story s e' pool' log' x' where
  connected := by rw [gave.same.connection]; exact Nat.lt_of_lt_of_le story.connected onward.made
  single := standsSame ▸ story.single
  delivering := by rw [standsSame, gave.delivering]; exact story.delivering
  termination t ended := by
    obtain ⟨known, past⟩ := story.termination t (gave.termination ▸ ended)
    simp [Lifecycle.isActive, past] at active
  begins pending := by
    rcases gave.phase with still | past
    · simp [Lifecycle.isActive, ← still, pending] at active
    · simp [past] at pending
  told := by
    obtain ⟨ahead, bye, ⟨done, split, answered, taken'⟩, all, few, byes⟩ := story.told
    rw [standsSame, farewellsSame]
    refine ⟨ahead ++ [(event, taken)], bye, ⟨done, ?_, ?_, taken'⟩, ?_, few, ?_⟩
    · rw [foundMore, split, List.append_assoc]
    · rw [messagesSame, answered]
      simp only [answerFrame_same gave.same onward.setup]
    · intro t member
      refine ⟨ahead_found gave onward story.connected ?_ (all t member).1, (all t member).2⟩
      exact story.delivering (List.ne_nil_of_mem member)
    · rw [farewellFrame, gave.same.clientId, gave.same.connection, gave.termination]
      exact byes

end Engine

end SubscriptionGateway
