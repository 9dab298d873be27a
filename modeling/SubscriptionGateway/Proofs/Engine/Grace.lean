import SubscriptionGateway.Proofs.Engine.Clock
import SubscriptionGateway.Proofs.Engine.Handover
import SubscriptionGateway.Proofs.Engine.Locks
import SubscriptionGateway.Proofs.Engine.Reuse

/-!
How long it takes to hand a frame over. Whoever waits for a queue goes on when the time of grace is
up, and needs nobody else for that; so in a prompt play nobody waits for longer. Whoever dispatches
waits for a provider that opens a consumer and for nothing else, whatever the connections are.
-/
namespace SubscriptionGateway

open Broker

namespace Engine

variable {e : Engine} {a : Action} {b : BindingId} {c : ConnectionId} {f : Frame} {r : Receipt}
  {due t₀ place : Nat} {k : CallId} {event : BrokerEvent} {pool rest todo : List Action}
  {log : Steps} {w : World} {v : Move}

/-! ## Steps that are taken -/

theorem step_beyond (w : World) : w.move (.step w.tasks.length) = w := by
  simp [World.move, Running.move, Running.step?]

theorem head_turn (there : w.tasks[place]? = some (a :: todo)) (ready : w.state.ready a = true) :
    ∃ todo others, Running.Turn machine w (w.move (.step place)) a todo others := by
  have found : w.actionAt machine place = some a := by
    have goes : machine.ready w.state a = true := ready
    simp [Running.actionAt, there, goes]
  exact Running.turn_of_actionAt found

theorem turn_next {w' : World} {others : List (List Action)} {x : Action}
    (turn : Running.Turn machine w w' a todo others) (next : (w.state.perform a).next = [x]) :
    ∃ (place : Nat) (todo : List Action), w'.tasks[place]? = some (x :: todo) := by
  have goes : (machine.perform w.state a).2.1 = [x] := next
  rcases turn.after with all | ⟨none, -⟩
  · rw [goes] at all
    have member : x :: todo ∈ w'.tasks := all.mem_iff.mpr (List.mem_cons_self ..)
    obtain ⟨place, there⟩ := List.getElem?_of_mem member
    exact ⟨place, todo, there⟩
  · simp [goes] at none

theorem reply_of_mem {r : Reply} (replied : (k, r) ∈ e.replies) : (e.reply? k).isSome = true := by
  simp only [reply?, Option.isSome_map, List.find?_isSome]
  exact ⟨(k, r), replied, by simp⟩

theorem pending_of_unanswered {own : Action → Prop} (underway : Underway own k e pool)
    (unanswered : e.reply? k = none) : ∃ a ∈ pool, a.ticket? = some k ∧ own a := by
  rcases underway.kept with waiting | ⟨r, replied⟩
  · obtain ⟨a, member, whose⟩ := List.mem_filterMap.mp waiting
    exact ⟨a, member, whose, underway.own a member whose⟩
  · exact absurd replied (not_mem_of_reply unanswered r)

/-! ## The time of grace -/

theorem enqueue_comes (member : .enqueue c f due r ∈ (e.perform a).sequel) :
    a = .offer c f r ∧ due = e.now + e.setup.graceMs := by
  have brought := perform_brings e a _ member
  cases a with
  | offer c' f' r' =>
    rcases brought with ⟨due', same⟩ | ⟨s, -, same⟩
    · obtain ⟨rfl, rfl, rfl, rfl⟩ := Action.enqueue.inj same
      refine ⟨rfl, ?_⟩
      simp only [perform, offer] at member
      split at member
      · obtain ⟨s, -, ⟨same, -⟩ | same⟩ := receipt_brings _ r _ member <;> simp at same
      · obtain ⟨-, -, same, -⟩ := Action.enqueue.inj (List.mem_singleton.mp member)
        exact same
    · simp at same
  | _ => simp [Action.Brings] at brought

theorem task_waits (e : Engine) (i : Input) : .enqueue c f due r ∉ i.task e := by
  intro member
  cases task_begins member

def Allotted (e : Engine) (pool : List Action) : Prop :=
  ∀ c f due r, .enqueue c f due r ∈ pool → due ≤ e.now + e.setup.graceMs

theorem allotted_upheld {known : Fact} : Upheld known fun e ts _ => Allotted e ts.flatten := by
  refine upheld_pending (P := fun e pool _ => Allotted e pool) ?_ ?_ ?_
  · intro e p q log perm allotted c f due r member
    exact allotted c f due r (perm.mem_iff.mpr member)
  · intro e ts log i _ allotted c f due r member
    have old := (List.mem_append.mp member).resolve_left (task_waits e i)
    have later : e.now ≤ (i.apply e).now := by
      by_cases passing : ∃ ms, i = .pass ms
      · obtain ⟨ms, rfl⟩ := passing
        exact Nat.le_add_right ..
      · exact Nat.le_of_eq (input_now i e fun ms same => passing ⟨ms, same⟩).symm
    have bound := allotted c f due r old
    rw [(input_spares e i).2.2]
    omega
  · intro e a rest ts log _ _ _ allotted c f due r member
    rw [perform_now, (perform_setup e a).1]
    rcases List.mem_append.mp member with new | old
    · exact Nat.le_of_eq (enqueue_comes new).2
    · exact allotted c f due r (List.mem_cons_of_mem _ old)

def Paced (e : Engine) (pool : List Action) : Prop :=
  ∀ c f due r, .enqueue c f due r ∈ pool → e.now ≤ due

theorem unready_due (unready : e.ready (.enqueue c f due r) = false) : e.now < due := by
  simp only [ready, Bool.or_eq_false_iff, decide_eq_false_iff_not] at unready
  omega

theorem timely_paced (headed : Headed w.tasks) (timely : Timely w v)
    (paced : Paced w.state w.pending) : Paced (w.move v).state (w.move v).pending := by
  refine timely_keeps headed timely ?_ ?_ ?_ ?_ paced
  · intro e p q perm paced c f due r member
    exact paced c f due r (perm.mem_iff.mpr member)
  · intro a rest _ paced c f due r member
    rw [perform_now]
    rcases List.mem_append.mp member with new | old
    · have all := (enqueue_comes new).2
      omega
    · exact paced c f due r (List.mem_cons_of_mem _ old)
  · intro i still paced c f due r member
    rw [input_now i w.state still]
    exact paced c f due r ((List.mem_append.mp member).resolve_right (task_waits w.state i))
  · intro ms waits _ c f due r member
    obtain ⟨unready, until'⟩ := waits _ member rfl
    exact until' due rfl (unready_due unready)

/-- A call that hands a frame over has still all its time or just what is left of it. -/
structure Punctual (k : CallId) (t₀ : Nat) (e : Engine) (pool : List Action) : Prop where
  looks : ∀ c f, .offer c f (.call k) ∈ pool → e.now = t₀
  waits : ∀ c f due, .enqueue c f due (.call k) ∈ pool →
    due = t₀ + e.setup.graceMs ∧ e.now ≤ due

theorem timely_punctual (headed : Headed w.tasks) (made : k < w.state.calls) (timely : Timely w v)
    (punctual : Punctual k t₀ w.state w.pending) :
    Punctual k t₀ (w.move v).state (w.move v).pending := by
  refine timely_keeps headed timely ?_ ?_ ?_ ?_ punctual
  · intro e p q perm punctual
    exact ⟨fun c f member => punctual.looks c f (perm.mem_iff.mpr member),
      fun c f due member => punctual.waits c f due (perm.mem_iff.mpr member)⟩
  · intro a rest _ punctual
    refine ⟨fun c f member => ?_, fun c f due member => ?_⟩
    · rw [perform_now]
      rcases List.mem_append.mp member with new | old
      · have brought := perform_brings w.state a _ new
        cases a <;> simp [Action.Brings] at brought
      · exact punctual.looks c f (List.mem_cons_of_mem _ old)
    · rw [perform_now, (perform_setup w.state a).1]
      rcases List.mem_append.mp member with new | old
      · obtain ⟨rfl, rfl⟩ := enqueue_comes new
        have now := punctual.looks c f (List.mem_cons_self ..)
        rw [now]
        exact ⟨rfl, Nat.le_add_right ..⟩
      · exact punctual.waits c f due (List.mem_cons_of_mem _ old)
  · intro i still punctual
    refine ⟨fun c f member => ?_, fun c f due member => ?_⟩
    · rw [input_now i w.state still]
      rcases List.mem_append.mp member with old | new
      · exact punctual.looks c f old
      · exact absurd rfl (task_whose made new)
    · rw [input_now i w.state still, (input_spares w.state i).2.2]
      exact punctual.waits c f due
        ((List.mem_append.mp member).resolve_right (task_waits w.state i))
  · intro ms waits punctual
    refine ⟨fun c f member => ?_, fun c f due member => ?_⟩
    · -- Nothing keeps it from looking at the connection, so no time has passed.
      obtain ⟨unready, -⟩ := waits _ member rfl
      simp [ready] at unready
    · obtain ⟨unready, until'⟩ := waits _ member rfl
      exact ⟨(punctual.waits c f due member).1, until' due rfl (unready_due unready)⟩

theorem enqueue_due (there : w.tasks[place]? = some (.enqueue c f due (.call k) :: todo))
    (past : due ≤ w.state.now) : ((w.move (.step place)).state.reply? k).isSome = true := by
  have ready : w.state.ready (.enqueue c f due (.call k)) = true := by simp [ready, past]
  obtain ⟨_, _, turn⟩ := head_turn there ready
  obtain ⟨r, replied⟩ := (enqueue_answers w.state c f k).2
  have after : (w.move (.step place)).state = (w.state.enqueue c f (.call k)).engine := turn.state
  rw [after]
  exact reply_of_mem replied

/-- It takes nobody else to end a call that hands a frame over: a look at the connection, the rest
of its time, and a last step. -/
theorem delivering_ends (limit : Nat) (headed : Headed w.tasks)
    (underway : Underway (Delivering k c f) k w.state w.pending)
    (unanswered : w.state.reply? k = none)
    (looks : .offer c f (.call k) ∈ w.pending → w.state.now + w.state.setup.graceMs ≤ limit)
    (waits : ∀ due, .enqueue c f due (.call k) ∈ w.pending → max w.state.now due ≤ limit) :
    ∃ p ms q, w.state.now + ms ≤ limit ∧
      ((w.play [.step p, .input (.pass ms), .step q]).state.reply? k).isSome = true := by
  obtain ⟨a, member, -, rfl | ⟨due, rfl⟩⟩ := pending_of_unanswered underway unanswered
  · obtain ⟨p, todo, there⟩ := headed_place headed member rfl
    obtain ⟨_, _, turn⟩ := head_turn there rfl
    have state : (w.move (.step p)).state = (w.state.offer c f (.call k)).engine := turn.state
    rcases offer_answers_or_waits w.state c f k with ⟨r, replied⟩ | goes
    · let w' := (w.move (.step p)).input (.pass 0)
      have stays : w.play [.step p, .input (.pass 0), .step w'.tasks.length] = w' := step_beyond w'
      refine ⟨p, 0, w'.tasks.length, ?_, ?_⟩
      · have bound := looks member
        omega
      · rw [stays]
        rw [← state] at replied
        exact reply_of_mem (e := w'.state) replied
    · obtain ⟨q, todo', there'⟩ := turn_next turn
        (x := .enqueue c f (w.state.now + w.state.setup.graceMs) (.call k)) (by
          simp only [perform, goes])
      rw [goes] at state
      let w' := (w.move (.step p)).input (.pass w.state.setup.graceMs)
      have now : w'.state.now = w.state.now + w.state.setup.graceMs := by
        simp only [w', World.input_state, state, Input.apply]
      exact ⟨p, w.state.setup.graceMs, q, looks member,
        enqueue_due (w := w') there' (Nat.le_of_eq now.symm)⟩
  · obtain ⟨q, todo, there⟩ := headed_place headed member rfl
    have bound := waits due member
    refine ⟨w.tasks.length, due - w.state.now, q, by omega, ?_⟩
    rw [World.play_cons, step_beyond]
    refine enqueue_due (w := w.input (.pass (due - w.state.now))) there ?_
    rw [World.input_state]
    simp only [Input.apply]
    omega

/-! ## Dispatches -/

def Dispatching (k : CallId) (event : BrokerEvent) (a : Action) : Prop :=
  a = .dispatch k event ∨ ∃ b, a = .fanOut (some k) b event

def Action.fansTo? (e : Engine) : Action → Option BindingId
  | .dispatch _ event => e.bindingFor? event.key
  | .fanOut _ b _ => some b
  | _ => none

theorem fanOut_answers (e : Engine) (k : CallId) (b : BindingId) (event : BrokerEvent) :
    (e.perform (.fanOut (some k) b event)).sequel = [] ∧
      ∃ r, (k, r) ∈ (e.perform (.fanOut (some k) b event)).engine.replies :=
  ⟨rfl, _, List.mem_append_right _ (List.mem_singleton_self _)⟩

theorem dispatching_underway (k : CallId) (event : BrokerEvent) :
    Upheld Reliable fun e ts _ => Underway (Dispatching k event) k e ts.flatten := by
  refine underway_upheld ?_ ?_
  · rintro a (rfl | ⟨b, rfl⟩) <;> rfl
  · rintro e a (rfl | ⟨b, rfl⟩)
    · simp only [perform]
      split
      · exact .inl ⟨_, rfl, .inr ⟨_, rfl⟩⟩
      · exact .inr ⟨_, List.mem_append_right _ (List.mem_singleton_self _)⟩
    · exact .inr (fanOut_answers e k b event).2

namespace World

/-- A provider opens the consumer of a binding, and whoever does holds its lock. -/
def Opening (w : World) (b : BindingId) : Prop :=
  w.state.isLocked b = true ∧ ∃ call s due, .openSource call b s due ∈ w.pending

def withConnections (w : World) (cs : List Connection) : World :=
  w.map fun e => { e with connections := cs }

end World

theorem held_opening (held : Held w.state w.pending) (locked : w.state.isLocked b = true) :
    w.Opening b := by
  obtain ⟨a, member, opens⟩ := List.mem_filterMap.mp (held b locked)
  cases a with
  | openSource call b' s due =>
    obtain rfl : b' = b := by simpa [Action.opens?] using opens
    exact ⟨locked, call, s, due, member⟩
  | _ => simp [Action.opens?] at opens

theorem fanOut_ready {call? : Option CallId} (headed : Headed w.tasks)
    (held : Held w.state w.pending) (member : .fanOut call? b event ∈ w.pending) :
    w.Opening b ∨ ∀ cs, ∃ place,
      (w.withConnections cs).actionAt machine place = some (.fanOut call? b event) := by
  cases locked : w.state.isLocked b with
  | true => exact .inl (held_opening held locked)
  | false =>
    right
    intro cs
    obtain ⟨place, todo, there⟩ := headed_place headed member rfl
    have ready : machine.ready (w.withConnections cs).state (.fanOut call? b event) = true := by
      have same : (w.withConnections cs).state.isLocked b = w.state.isLocked b := rfl
      simp [machine, Engine.ready, same, locked]
    have here : (w.withConnections cs).tasks[place]? = some (.fanOut call? b event :: todo) := there
    exact ⟨place, by simp [Running.actionAt, here, ready]⟩

theorem fanOut_unlocked (there : w.tasks[place]? = some (.fanOut (some k) b event :: todo))
    (unlocked : w.state.isLocked b = false) :
    ((w.move (.step place)).state.reply? k).isSome = true := by
  have ready : w.state.ready (.fanOut (some k) b event) = true := by simp [ready, unlocked]
  obtain ⟨_, _, turn⟩ := head_turn there ready
  have after : (w.move (.step place)).state =
      (w.state.perform (.fanOut (some k) b event)).engine := turn.state
  rw [after]
  obtain ⟨r, replied⟩ := (fanOut_answers w.state k b event).2
  exact reply_of_mem replied

/-- Whatever connections there are, a dispatch ends by its own steps. -/
theorem dispatching_ends (headed : Headed w.tasks) (held : Held w.state w.pending)
    (underway : Underway (Dispatching k event) k w.state w.pending)
    (unanswered : w.state.reply? k = none) :
    ∃ a ∈ w.pending, a.ticket? = some k ∧
      ((∃ b, a.fansTo? w.state = some b ∧ w.Opening b) ∨ ∀ cs, ∃ p q,
        (((w.withConnections cs).play [.step p, .step q]).state.reply? k).isSome = true) := by
  obtain ⟨a, member, whose, own⟩ := pending_of_unanswered underway unanswered
  refine ⟨a, member, whose, ?_⟩
  by_cases locked : ∃ b, a.fansTo? w.state = some b ∧ w.state.isLocked b = true
  · obtain ⟨b, goal, locked⟩ := locked
    exact .inl ⟨b, goal, held_opening held locked⟩
  right
  intro cs
  have free (b : BindingId) (goal : a.fansTo? w.state = some b) : w.state.isLocked b = false :=
    Bool.eq_false_iff.mpr fun held => locked ⟨b, goal, held⟩
  let w' := w.withConnections cs
  rcases own with rfl | ⟨b, rfl⟩
  · obtain ⟨p, todo, there⟩ := headed_place headed member rfl
    have here : w'.tasks[p]? = some (.dispatch k event :: todo) := there
    obtain ⟨_, _, turn⟩ := head_turn here rfl
    have after : (w'.move (.step p)).state = (w'.state.perform (.dispatch k event)).engine :=
      turn.state
    have listed : w'.state.bindingFor? event.key = w.state.bindingFor? event.key := rfl
    cases found : w.state.bindingFor? event.key with
    | none =>
      refine ⟨p, (w'.move (.step p)).tasks.length, ?_⟩
      rw [World.play_cons, World.play_cons, step_beyond (w'.move (.step p))]
      change ((w'.move (.step p)).state.reply? k).isSome = true
      rw [after]
      simp only [perform, listed, found]
      exact reply_of_mem (List.mem_append_right _ (List.mem_singleton_self _))
    | some b =>
      have goes : w'.state.perform (.dispatch k event) =
          ⟨w'.state, [.fanOut (some k) b event], []⟩ := by
        simp only [perform, listed, found]
      obtain ⟨q, todo', there'⟩ := turn_next turn (x := .fanOut (some k) b event) (by rw [goes])
      refine ⟨p, q, fanOut_unlocked (w := w'.move (.step p)) there' ?_⟩
      rw [after, goes]
      exact free b found
  · obtain ⟨p, todo, there⟩ := headed_place headed member rfl
    refine ⟨w'.tasks.length, p, ?_⟩
    rw [World.play_cons, step_beyond w']
    exact fanOut_unlocked (w := w') there (free b rfl)

/-! ## All or nothing -/

/-- What holds of a call that hands a frame over to a connection, whatever happens after it has been
made. -/
structure AllOrNothing (w : World) (c : ConnectionId) (f : Frame) (later : List Move) : Prop where
  done : ((w.input (.call (.deliver c f))).play later).state.reply? w.state.calls = some .done →
    handed w.state.calls ((w.input (.call (.deliver c f))).steps later) = [(c, f)] ∧
    countedBy w.state.calls ((w.input (.call (.deliver c f))).steps later) =
      if f.isMessage then 1 else 0
  failed : ∀ fault, ((w.input (.call (.deliver c f))).play later).state.reply? w.state.calls =
      some (.failed fault) →
    fault ∈ deliveryTroubles ∧
    handed w.state.calls ((w.input (.call (.deliver c f))).steps later) = [] ∧
    countedBy w.state.calls ((w.input (.call (.deliver c f))).steps later) = 0 ∧
    ((w.input (.call (.deliver c f))).play later).state.isClosed c = true ∧
    ((w.input (.call (.deliver c f))).play later).state.isCancelled c = true
  answers : ∀ r, ((w.input (.call (.deliver c f))).play later).state.reply? w.state.calls = some r →
    r = .done ∨ ∃ fault, r = .failed fault
  closed : w.state.isClosed c = true →
    handed w.state.calls ((w.input (.call (.deliver c f))).steps later) = []
  /-- It is answered when its time is up, and it takes nobody else for that. -/
  within : Prompt (w.input (.call (.deliver c f))) later →
    ((w.input (.call (.deliver c f))).play later).state.reply? w.state.calls = none →
    ∃ p ms q, ((w.input (.call (.deliver c f))).play later).state.now + ms ≤
        w.state.now + w.state.setup.graceMs ∧
      ((((w.input (.call (.deliver c f))).play later).play
        [.step p, .input (.pass ms), .step q]).state.reply? w.state.calls).isSome = true
  /-- That much is so, from then on, in every play. -/
  free : ((w.input (.call (.deliver c f))).play later).state.reply? w.state.calls = none →
    ∃ p ms q, ms ≤ w.state.setup.graceMs ∧
      ((((w.input (.call (.deliver c f))).play later).play
        [.step p, .input (.pass ms), .step q]).state.reply? w.state.calls).isSome = true

variable {setup : Setup} {hub : Hub} {moves later : List Move}

theorem begun_reliable (setup : Setup) (hub : Hub) (moves : List Move) (i : Input) :
    Always (((World.start setup hub).play moves).input i) Reliable := by
  have whole := (start_reliable setup hub).later (P := fun e ts => Reliable e ts [])
    (moves ++ [.input i])
  rwa [World.play_append] at whole

theorem play_headed (setup : Setup) (hub : Hub) (moves : List Move) :
    Headed ((World.start setup hub).play moves).tasks := (start_headed setup hub).throughout moves

theorem begun_headed (setup : Setup) (hub : Hub) (moves : List Move) (i : Input)
    (later : List Move) :
    Headed ((((World.start setup hub).play moves).input i).play later).tasks := by
  have whole := play_headed setup hub (moves ++ .input i :: later)
  rwa [World.play_append] at whole

theorem play_paced (prompt : Prompt (World.start setup hub) moves) :
    Paced ((World.start setup hub).play moves).state
      ((World.start setup hub).play moves).pending := by
  refine prompt_keeps (P := fun w => Paced w.state w.pending) prompt ?_ ?_
  · intro c f due r member
    simp [World.start, Running.pending] at member
  · intro before v timely paced
    exact timely_paced (play_headed setup hub before) timely paced

theorem play_allotted (setup : Setup) (hub : Hub) (moves : List Move) :
    Allotted ((World.start setup hub).play moves).state
      ((World.start setup hub).play moves).pending := by
  have upheld : Upheld Reliable fun e ts _ => Allotted e ts.flatten := allotted_upheld
  refine (((start_reliable setup hub).and upheld ?_).throughout moves).2
  intro c f due r member
  simp [World.start] at member

theorem begun_punctual (honored : Honored w.state w.pending) (c : ConnectionId) (f : Frame) :
    Punctual w.state.calls w.state.now (w.input (.call (.deliver c f))).state
      (w.input (.call (.deliver c f))).pending := by
  rw [World.input_state, World.input_pending]
  refine ⟨fun _ _ _ => rfl, fun c' f' due member => ?_⟩
  have old := (List.mem_append.mp member).resolve_right (task_waits w.state _)
  have known := honored.known _ (List.mem_append_right _ (mem_tickets old rfl))
  exact absurd known (Nat.lt_irrefl _)

theorem begun_underway (honored : Honored w.state w.pending) (c : ConnectionId) (f : Frame) :
    Underway (Delivering w.state.calls c f) w.state.calls (w.input (.call (.deliver c f))).state
      (w.input (.call (.deliver c f))).pending := by
  refine underway_begun (.deliver c f) honored (fun a member => ?_) ?_
  · exact .inl (List.mem_singleton.mp member)
  · exact List.mem_singleton_self _

theorem deliver_cases (setup : Setup) (hub : Hub) (moves : List Move) (c : ConnectionId) (f : Frame)
    (later : List Move)
    (there : c < ((World.start setup hub).play moves).state.connections.length) :
    AllOrNothing ((World.start setup hub).play moves) c f later := by
  let w := (World.start setup hub).play moves
  let begun := w.input (.call (.deliver c f))
  obtain ⟨⟨-, honored⟩, -⟩ := (start_reliable setup hub).throughout moves
  have always : Always begun fun e ts log =>
      Reliable e ts log ∧ Underway (Delivering w.state.calls c f) w.state.calls e ts.flatten :=
    (begun_reliable setup hub moves _).and (delivering_underway _ c f) (begun_underway honored c f)
  obtain ⟨⟨⟨-, dismissed, -⟩, underway⟩, delivers⟩ :=
    (always.and (delivers_upheld _ c f) (delivers_begun honored there)).throughout later
  have headed := begun_headed setup hub moves (.call (.deliver c f)) later
  have setups : (begun.play later).state.setup = w.state.setup := play_setup begun later
  refine ⟨fun answer => ?_, fun fault answer => ?_, fun r answer => ?_, fun shut => ?_,
    fun prompt unanswered => ?_, fun unanswered => ?_⟩
  · exact delivers.answered _ (mem_of_reply answer)
  · obtain ⟨known, none, nought, closed⟩ := delivers.answered _ (mem_of_reply answer)
    exact ⟨known, none, nought, closed, dismissed_cancelled dismissed closed⟩
  · have acquits := delivers.answered _ (mem_of_reply answer)
    cases r with
    | done => exact .inl rfl
    | failed fault => exact .inr ⟨fault, rfl⟩
    | subscribed | scheduled => exact acquits.elim
  · have belated := belated_begun (f := f) honored there shut
    exact ((always.and (belated_upheld _ c f) belated).throughout later).2.none
  · have punctual : Punctual w.state.calls w.state.now (begun.play later).state
        (begun.play later).pending := by
      refine prompt_keeps (P := fun u => Punctual w.state.calls w.state.now u.state u.pending)
        prompt (begun_punctual honored c f) fun before v timely punctual => ?_
      exact timely_punctual (begun_headed setup hub moves _ before)
        (always.throughout before).2.made timely punctual
    refine delivering_ends _ headed underway unanswered (fun member => ?_) fun due member => ?_
    · rw [setups, punctual.looks c f member]
    · obtain ⟨whole, left⟩ := punctual.waits c f due member
      rw [setups] at whole
      exact Nat.max_le.mpr ⟨Nat.le_trans left (Nat.le_of_eq whole), Nat.le_of_eq whole⟩
  · have allotted := play_allotted setup hub (moves ++ .input (.call (.deliver c f)) :: later)
    rw [World.play_append] at allotted
    obtain ⟨p, ms, q, bound, answered⟩ := delivering_ends
      ((begun.play later).state.now + w.state.setup.graceMs) headed underway unanswered
      (fun _ => Nat.le_of_eq (by rw [setups])) fun due member => by
        have bound : due ≤ (begun.play later).state.now + (begun.play later).state.setup.graceMs :=
          allotted c f due _ member
        rw [setups] at bound
        exact Nat.max_le.mpr ⟨Nat.le_add_right .., bound⟩
    exact ⟨p, ms, q, Nat.le_of_add_le_add_left bound, answered⟩

/-- No queue ever holds more than there is room for. Of every frame that is handed over, for a call
or for a subscription, either the queue of its connection has taken it once, and it has been counted
once if it is a message; or nothing has been taken nor counted, and the connection is closed and
whoever serves it told to stop. That is settled when the time of grace is up, at the latest, and
before anything is taken if the connection had been closed. A dispatch waits for a provider that
opens a consumer and for nothing else, whatever connections there are. -/
theorem deliver_all_or_nothing (setup : Setup) (hub : Hub) (moves : List Move) :
    let w := (World.start setup hub).play moves
    (∀ c, (w.state.queueOf c).length ≤ max setup.queueCapacity 1) ∧
    Dealings ((World.start setup hub).steps moves) ∧
    (Prompt (World.start setup hub) moves → ∀ c f due r, .enqueue c f due r ∈ w.pending →
      w.state.now ≤ due ∧ due ≤ w.state.now + setup.graceMs ∧
      ∃ (place : Nat) (todo : List Action), w.tasks[place]? = some (.enqueue c f due r :: todo)) ∧
    (∀ c f later, c < w.state.connections.length → AllOrNothing w c f later) ∧
    (∀ event later, let after := (w.input (.call (.dispatch event))).play later
      after.state.reply? w.state.calls = none →
        ∃ a ∈ after.pending, a.ticket? = some w.state.calls ∧
        ((∃ b, a.fansTo? after.state = some b ∧ after.Opening b) ∨ ∀ cs, ∃ p q,
          (((after.withConnections cs).play [.step p, .step q]).state.reply? w.state.calls).isSome =
            true)) ∧
    ∀ call? b event, .fanOut call? b event ∈ w.pending → w.Opening b ∨ ∀ cs, ∃ place,
      (w.withConnections cs).actionAt machine place = some (.fanOut call? b event) := by
  intro w
  have reliable := (start_reliable setup hub).throughout moves
  have setups : w.state.setup = setup := play_setup _ moves
  have headed : Headed w.tasks := play_headed setup hub moves
  refine ⟨fun c => ?_, ?_, fun prompt c f due r member => ?_, fun c f later there => ?_,
    fun event later => ?_, fun call? b event member => ?_⟩
  · have roomy := reliable.2.2 c
    rwa [setups] at roomy
  · exact (((start_reliable setup hub).and dealings_upheld fun p member => by
      simp at member).throughout moves).2
  · have allotted := play_allotted setup hub moves c f due r member
    rw [setups] at allotted
    exact ⟨play_paced prompt c f due r member, allotted, headed_place headed member rfl⟩
  · exact deliver_cases setup hub moves c f later there
  · intro after unanswered
    obtain ⟨⟨-, honored⟩, -⟩ := reliable
    let made := w.input (.call (.dispatch event))
    have begun : Underway (Dispatching w.state.calls event) w.state.calls made.state made.pending :=
      underway_begun (.dispatch event) honored (fun a member => .inl (List.mem_singleton.mp member))
        (List.mem_singleton_self _)
    have underway := (((begun_reliable setup hub moves _).and
      (dispatching_underway w.state.calls event) begun).throughout later).2
    have held :=
      (start_held setup hub).throughout (moves ++ .input (.call (.dispatch event)) :: later)
    rw [World.play_append] at held
    exact dispatching_ends (begun_headed setup hub moves _ later) held underway unanswered
  · exact fanOut_ready headed ((start_held setup hub).throughout moves) member

def staffNotice : Frame := .next "1" .null

def staffLine : List Move := [.input (.connect .webSocket)]

def staffHandover : Move := .input (.call (.deliver 0 staffNotice))

def staffFull : List Move := staffLine ++ [staffHandover, .step 0, .step 0]

def staffJam : List Move := staffFull ++ [staffHandover, .step 0, .input (.pass 5000), .step 0]

def staffFanOut : List Move := staffMoves ++ [.input (.call (.dispatch staffEvent)), .step 2]

/-- The first of three calls hands its frame over. Nobody reads, so the second one waits for as long
as it may and fails, and the third one comes too late. No dispatch waits for any of that. -/
theorem staff_all_or_nothing :
    let line := (World.start crampedSetup staffHub).play staffLine
    let full := (World.start crampedSetup staffHub).play staffFull
    let jam := (World.start crampedSetup staffHub).play staffJam
    let fanning := (World.start crampedSetup staffHub).play staffFanOut
    let waiting := full.input (.call (.deliver 0 staffNotice))
    let asked := jam.input (.call (.dispatch staffEvent))
    let wait : List Move := [.step 0, .input (.pass 5000), .step 0]
    handed 0 ((line.input (.call (.deliver 0 staffNotice))).steps [.step 0, .step 0]) =
      [(0, staffNotice)] ∧
    countedBy 0 ((line.input (.call (.deliver 0 staffNotice))).steps [.step 0, .step 0]) = 1 ∧
    (∃ p ms q, ((waiting.play [.step 0]).state.now + ms ≤ 5000) ∧
      (((waiting.play [.step 0]).play [.step p, .input (.pass ms), .step q]).state.reply? 1).isSome
        =
        true) ∧
    handed 1 (waiting.steps wait) = [] ∧ countedBy 1 (waiting.steps wait) = 0 ∧
    (waiting.play wait).state.isCancelled 0 = true ∧
    handed 2 ((jam.input (.call (.deliver 0 staffNotice))).steps [.step 0]) = [] ∧
    (∃ (place : Nat) (todo : List Action), (waiting.play [.step 0]).tasks[place]? =
      some (.enqueue 0 staffNotice 5000 (.call 1) :: todo)) ∧
    ((∃ b, asked.Opening b) ∨ ∀ cs, ∃ p q,
        (((asked.withConnections cs).play [.step p, .step q]).state.reply? 2).isSome = true) ∧
    ∃ call? b event, .fanOut call? b event ∈ fanning.pending ∧ (fanning.Opening b ∨ ∀ cs, ∃ place,
      (fanning.withConnections cs).actionAt machine place = some (.fanOut call? b event)) := by
  intro line full jam fanning waiting asked wait
  obtain ⟨-, -, -, first, -, -⟩ := deliver_all_or_nothing crampedSetup staffHub staffLine
  obtain ⟨-, -, -, second, -, -⟩ := deliver_all_or_nothing crampedSetup staffHub staffFull
  obtain ⟨-, -, -, third, dispatch, -⟩ := deliver_all_or_nothing crampedSetup staffHub staffJam
  obtain ⟨-, -, waits, -, -, -⟩ :=
    deliver_all_or_nothing crampedSetup staffHub (staffFull ++ [staffHandover, .step 0])
  obtain ⟨-, -, -, -, -, fanOut⟩ := deliver_all_or_nothing crampedSetup staffHub staffFanOut
  obtain ⟨whole, counted⟩ := (first 0 staffNotice [.step 0, .step 0] (by decide)).done rfl
  have prompt : Prompt waiting [.step 0] := ⟨trivial, trivial⟩
  have within := (second 0 staffNotice [.step 0] (by decide)).within prompt rfl
  obtain ⟨-, none, nought, -, cancelled⟩ :=
    (second 0 staffNotice wait (by decide)).failed Trouble.tooSlow rfl
  have late := (third 0 staffNotice [.step 0] (by decide)).closed rfl
  have begun : Prompt (World.start crampedSetup staffHub) (staffFull ++ [staffHandover, .step 0]) :=
    ⟨trivial, trivial, trivial, trivial, trivial, trivial, trivial⟩
  obtain ⟨-, -, heads⟩ := waits begun 0 staffNotice 5000 (.call 1) (List.mem_cons_self ..)
  obtain ⟨a, -, -, free⟩ := dispatch staffEvent [] rfl
  have some : fanning.pending.any (fun a => match a with
    | .fanOut .. => true
    | _ => false) = true := by decide +kernel
  obtain ⟨x, member, fans⟩ := List.any_eq_true.mp some
  refine ⟨whole, counted, within, none, nought, cancelled, late, heads, ?_, ?_⟩
  · exact free.imp_left fun ⟨b, _, opening⟩ => ⟨b, opening⟩
  · cases x with
    | fanOut call? b event => exact ⟨call?, b, event, member, fanOut call? b event member⟩
    | _ => simp at fans

end Engine

end SubscriptionGateway
