import SubscriptionGateway.Proofs.Engine.Calls

/-!
What is outside an engine: its brokers and its clock. An action does nothing to the brokers but open
consumers, poll them and close them. None moves the clock, so time passes by inputs only. In a
prompt play it passes when nobody can go on, and never beyond the next time at which somebody can.
Whatever waits for a queue or belongs to a dispatch is the head of its task, so nothing but itself
keeps it from going on.
-/
namespace SubscriptionGateway

open Broker

namespace Running

theorem earliest_le {t : Nat} {l : List (Option Nat)} (member : some t ∈ l) :
    ∃ u, earliest l = some u ∧ u ≤ t := by
  induction l with
  | nil => simp at member
  | cons head l ih =>
    rcases List.mem_cons.mp member with rfl | later
    · simp only [earliest]
      cases earliest l with
      | none => exact ⟨t, rfl, Nat.le_refl t⟩
      | some u => exact ⟨min t u, rfl, Nat.min_le_left t u⟩
    · obtain ⟨u, found, bound⟩ := ih later
      cases head with
      | none => exact ⟨u, found, bound⟩
      | some v =>
        refine ⟨min v u, ?_, Nat.le_trans (Nat.min_le_right v u) bound⟩
        simp only [earliest, found]

end Running

namespace Engine

variable {e e' : Engine} {a : Action} {b : BindingId} {s : SubscriptionId}

/-! ## What is outside -/

theorem enter_outer (e : Engine) (call : CallId) (b : BindingId) (s : SubscriptionId)
    (started : List (List Action)) : Outer e (e.enter call b s started).engine := by
  obtain ⟨replies, deliveries, more, eq, -⟩ := enter_branches e call b s started
  rw [eq]
  exact outer_trans (records_register e b s).inward.toOuter ⟨rfl, rfl⟩

theorem receipt_outer (e : Engine) (result : Except Fault Unit) (r : Receipt) :
    Outer e (e.receipt result r).engine := by
  cases r <;> cases result <;> exact ⟨rfl, rfl⟩

def Action.outward : Action → Bool
  | .openSource .. | .consume .. | .closeConsumer _ => true
  | _ => false

theorem perform_outer (e : Engine) (a : Action) (within : a.outward = false) :
    Outer e (e.perform a).engine := by
  cases a with
  | openSource | consume | closeConsumer => simp [Action.outward] at within
  | subscribe call c clientId r =>
    rcases subscribe_cases e call c clientId r with ⟨fault, eq⟩ | ⟨compiled, -, -, eq⟩ <;> rw [eq]
    · exact ⟨rfl, rfl⟩
    · refine outer_trans ?_ (inward_seek _ call _ _).toOuter
      exact ⟨rfl, rfl⟩
  | join call b s =>
    rcases joinBinding_branches e call b s with eq | ⟨key, eq⟩ | eq | eq | ⟨due, eq⟩ <;>
    rw [perform, eq]
    · exact outer_refl e
    · refine outer_trans ?_ (inward_seek _ call s _).toOuter
      exact ⟨rfl, rfl⟩
    · exact enter_outer e call b s []
    · exact ⟨rfl, rfl⟩
    · exact ⟨rfl, rfl⟩
  | dispatch call event =>
    simp only [perform]
    split <;> exact ⟨rfl, rfl⟩
  | fanOut call? b event =>
    obtain ⟨replies, eq⟩ := fanOut_engine e call? b event
    rw [eq]
    exact outer_trans (inward_scheduleAll event (e.targets b) e).toOuter ⟨rfl, rfl⟩
  | offer c f r =>
    rcases offer_cases e c f r with ⟨-, eq⟩ | ⟨-, eq⟩ <;> rw [perform, eq]
    · exact receipt_outer ..
    · exact outer_refl e
  | enqueue c f due r =>
    rcases enqueue_cases e c f r with ⟨-, eq⟩ | ⟨-, e', fault, eq, rfl | rfl⟩ <;>
    rw [perform, eq] <;>
    refine outer_trans ?_ (receipt_outer _ _ r) <;>
    exact ⟨rfl, rfl⟩
  | shutdown | answer => exact ⟨rfl, rfl⟩
  | _ => exact (perform_inward e _ rfl).toOuter

theorem perform_brokers {P : Hub → Prop}
    (opens : ∀ h p key, P h → P (h.openConsumer p key).2)
    (polls : ∀ h now c w, P h → P (h.poll now c w).2)
    (closes : ∀ h c, P h → P (h.closeConsumer c))
    (e : Engine) (a : Action) (before : P e.hub) : P (e.perform a).engine.hub := by
  cases outward : a.outward with
  | false => exact (perform_outer e a outward).hub ▸ before
  | true =>
    cases a with
    | openSource call b s due =>
      simp only [perform, openBinding]
      split
      · exact before
      rename_i x _
      split
      · exact before
      rename_i p _
      have opened := opens e.hub p x.key before
      split
      · rename_i answer
        rw [answer] at opened
        exact opened
      · rename_i c hub answer
        rw [answer] at opened
        split
        · rw [(enter_outer _ call b s _).hub]
          exact opened
        · exact closes hub c opened
    | consume b c w =>
      have polled := polls e.hub e.now c w before
      simp only [perform, consumeNext]
      split
      · exact before
      split
      · exact before
      split <;> exact polled
    | closeConsumer c => exact closes e.hub c before
    | _ => simp [Action.outward] at outward

/-! ## No action takes time -/

theorem perform_now (e : Engine) (a : Action) : (e.perform a).engine.now = e.now := by
  cases outward : a.outward with
  | false => exact (perform_outer e a outward).now
  | true =>
    cases a with
    | openSource call b s due =>
      rcases openBinding_branches e call b s with eq | ⟨hub, fault, eq⟩ | ⟨hub, c, eq⟩ <;>
      rw [perform, eq]
      · rfl
      · exact (enter_outer _ call b s _).now
    | consume b c w =>
      obtain ⟨hub, next, eq, -⟩ := consumeNext_cases e b c w
      rw [perform, eq]
    | closeConsumer c => rfl
    | _ => simp [Action.outward] at outward

theorem input_now (i : Input) (e : Engine) (still : ∀ ms, i ≠ .pass ms) :
    (i.apply e).now = e.now := by
  cases i with
  | pass ms => exact absurd rfl (still ms)
  | take c most =>
    simp only [Input.apply, takeFrames]
    split <;> rfl
  | _ => rfl

/-! ## Heads of tasks -/

/-- What waits for a queue, hands a frame over for a call, or dispatches. -/
def Action.heads : Action → Bool
  | .enqueue .. | .offer _ _ (.call _) | .dispatch .. | .fanOut .. => true
  | _ => false

def Headed (ts : List (List Action)) : Prop := ∀ task ∈ ts, ∀ x ∈ task.tail, x.heads = false

/-- Nobody but these three goes on with it, and with one at a time. -/
theorem brings_heads {x : Action} (brought : a.Brings x) (heads : x.heads = true) :
    (∃ c f r, a = .offer c f r) ∨ (∃ call event, a = .dispatch call event) ∨
      ∃ b c w, a = .consume b c w := by
  cases a with
  | offer c f r => exact .inl ⟨c, f, r, rfl⟩
  | dispatch call event => exact .inr (.inl ⟨call, event, rfl⟩)
  | consume b c w => exact .inr (.inr ⟨b, c, w, rfl⟩)
  | _ =>
    simp only [Action.Brings] at brought <;>
    grind [Action.heads]

theorem receipt_heads (result : Except Fault Unit) (r : Receipt) :
    (∀ x ∈ (e.receipt result r).next, x.heads = false) ∧ (e.receipt result r).started = [] := by
  cases r with
  | call call => cases result <;> simp [receipt]
  | event s => cases result <;> simp [receipt, Action.heads]
  | ending s => cases result <;> simp [receipt]

theorem perform_heads (e : Engine) (a : Action) :
    (∀ x ∈ (e.perform a).next.tail, x.heads = false) ∧
      ∀ task ∈ (e.perform a).started, ∀ x ∈ task, x.heads = false := by
  by_cases brings : (∃ c f r, a = .offer c f r) ∨ (∃ call event, a = .dispatch call event) ∨
      ∃ b c w, a = .consume b c w
  · rcases brings with ⟨c, f, r, rfl⟩ | ⟨call, event, rfl⟩ | ⟨b, c, w, rfl⟩
    · simp only [perform, offer]
      split
      · obtain ⟨next, started⟩ := receipt_heads (e := e) (.error Trouble.closed) r
        rw [started]
        exact ⟨fun x member => next x (List.mem_of_mem_tail member), by simp⟩
      · simp
    · simp only [perform]
      split <;> simp
    · simp only [perform, consumeNext]
      split
      · simp
      split
      · simp
      split <;> simp [Action.heads]
  · have none (x : Action) (member : x ∈ (e.perform a).sequel) : x.heads = false := by
      cases heads : x.heads with
      | false => rfl
      | true => exact absurd (brings_heads (perform_brings e a x member) heads) brings
    exact ⟨fun x member => none x (List.mem_append_left _ (List.mem_of_mem_tail member)),
      fun task started x member => none x
        (List.mem_append_right _ (List.mem_flatten.mpr ⟨task, started, member⟩))⟩

theorem perform_headed {todo : List Action} {others : List (List Action)}
    (headed : Headed ((a :: todo) :: others)) :
    Headed (((e.perform a).next ++ todo) :: ((e.perform a).started ++ others)) := by
  obtain ⟨next, started⟩ := perform_heads e a
  have after (x : Action) (member : x ∈ todo) : x.heads = false :=
    headed _ (List.mem_cons_self ..) x member
  intro task member x inside
  rcases List.mem_cons.mp member with rfl | member
  · cases goes : (e.perform a).next with
    | nil =>
      rw [goes, List.nil_append] at inside
      exact after x (List.mem_of_mem_tail inside)
    | cons x' more =>
      rw [goes] at inside next
      exact (List.mem_append.mp inside).elim (next x) (after x)
  rcases List.mem_append.mp member with new | old
  · exact started task new x (List.mem_of_mem_tail inside)
  · exact headed task (List.mem_cons_of_mem _ old) x inside

theorem task_heads (call : Call) (n : CallId) : ∀ x ∈ (call.task n).tail, x.heads = false := by
  cases call <;> simp [Call.task, World.subscribe, World.unsubscribe, World.release, World.dispatch,
    World.deliver, World.shutdown, World.shutdownAll, Action.heads]

theorem start_headed (setup : Setup) (hub : Hub) :
    Always (World.start setup hub) fun _ ts _ => Headed ts := by
  have upheld : Upheld Accounted fun _ ts _ => Headed ts := by
    refine ⟨fun perm headed task member => headed task (perm.mem_iff.mpr member),
      fun headed task member => headed task (List.mem_cons_of_mem _ member),
      fun {e ts log} i _ headed task member => ?_, fun _ _ headed => perform_headed headed⟩
    rcases List.mem_cons.mp member with rfl | old
    · cases i with
      | call call => exact task_heads call e.calls
      | _ => simp [Input.task]
    · exact headed task old
  exact ((start_accounted setup hub).and upheld fun task member => by
    simp [World.start] at member).imp
      (fun perm headed task member => headed task (perm.mem_iff.mpr member)) (·.2)

theorem headed_place {w : World} {x : Action} (headed : Headed w.tasks) (member : x ∈ w.pending)
    (heads : x.heads = true) : ∃ (place : Nat) (todo : List Action),
      w.tasks[place]? = some (x :: todo) := by
  obtain ⟨task, among, inside⟩ := List.mem_flatten.mp member
  obtain ⟨place, there⟩ := List.getElem?_of_mem among
  cases task with
  | nil => simp at inside
  | cons y todo =>
    rcases List.mem_cons.mp inside with rfl | later
    · exact ⟨place, todo, there⟩
    · simp [headed _ among x later] at heads

/-! ## Prompt plays -/

/-- Time passes when nobody can go on, until somebody can and no longer. -/
def Timely (w : World) : Move → Prop
  | .input (.pass ms) => (∀ place, w.actionAt machine place = none) ∧
      ∀ t, w.nextDue? machine = some t → w.state.now + ms ≤ t
  | _ => True

def Prompt (w : World) : List Move → Prop
  | [] => True
  | v :: moves => Timely w v ∧ Prompt (w.move v) moves

theorem prompt_append (w : World) (before later : List Move) :
    Prompt w (before ++ later) ↔ Prompt w before ∧ Prompt (w.play before) later := by
  induction before generalizing w with
  | nil => exact (and_iff_right trivial).symm
  | cons v before ih =>
    simp only [List.cons_append, Prompt, and_assoc, ih (w.move v), World.play_cons]

theorem prompt_keeps {P : World → Prop} {w : World} {moves : List Move} (prompt : Prompt w moves)
    (first : P w)
    (keeps : ∀ before v, Timely (w.play before) v → P (w.play before) →
      P ((w.play before).move v)) : P (w.play moves) := by
  induction moves using List.reverseRecOn with
  | nil => exact first
  | append_singleton before v ih =>
    obtain ⟨earlier, last⟩ := (prompt_append w before [v]).mp prompt
    have whole : w.play (before ++ [v]) = (w.play before).move v := World.play_append w before [v]
    rw [whole]
    exact keeps before v last.1 (ih earlier)

theorem timely_pass {w : World} {ms : Nat} {x : Action} (timely : Timely w (.input (.pass ms)))
    (headed : Headed w.tasks) (member : x ∈ w.pending) (heads : x.heads = true) :
    w.state.ready x = false ∧
      ∀ due, x.due? = some due → w.state.now < due → w.state.now + ms ≤ due := by
  obtain ⟨place, todo, there⟩ := headed_place headed member heads
  obtain ⟨idle, until'⟩ := timely
  have unready : w.state.ready x = false := by
    have nobody := idle place
    simp only [Running.actionAt, there] at nobody
    cases ready : w.state.ready x with
    | false => rfl
    | true =>
      have goes : machine.ready w.state x = true := ready
      simp [goes] at nobody
  refine ⟨unready, fun due waits later => ?_⟩
  have listed : some due ∈ w.tasks.map fun task =>
      (task.head?.bind machine.due?).filter (machine.now w.state < ·) := by
    refine List.mem_map.mpr ⟨x :: todo, List.mem_of_getElem? there, ?_⟩
    have same : machine.due? x = some due := waits
    have ahead : machine.now w.state < due := later
    simp [same, ahead]
  obtain ⟨t, found, bound⟩ := Running.earliest_le listed
  exact Nat.le_trans (until' t found) bound

/-- What is kept by turns, by inputs, and by time as it passes for those that wait. -/
theorem timely_keeps {P : Engine → List Action → Prop} {w : World} {v : Move}
    (headed : Headed w.tasks) (timely : Timely w v)
    (shuffle : ∀ {e p q}, p.Perm q → P e p → P e q)
    (turn : ∀ {a rest}, w.pending.Perm (a :: rest) → P w.state (a :: rest) →
      P (w.state.perform a).engine ((w.state.perform a).sequel ++ rest))
    (outside : ∀ i : Input, (∀ ms, i ≠ .pass ms) → P w.state w.pending →
      P (i.apply w.state) (w.pending ++ i.task w.state))
    (pass : ∀ ms, (∀ x ∈ w.pending, x.heads = true → w.state.ready x = false ∧
        ∀ due, x.due? = some due → w.state.now < due → w.state.now + ms ≤ due) →
      P w.state w.pending → P { w.state with now := w.state.now + ms } w.pending)
    (before : P w.state w.pending) : P (w.move v).state (w.move v).pending := by
  rcases World.move_cases w v with ⟨i, rfl, eq⟩ | ⟨place, a, rest, rfl, -, exchange⟩ |
    ⟨place, rfl, -, eq⟩
  · rw [eq, World.input_state, World.input_pending]
    by_cases passing : ∃ ms, i = .pass ms
    · obtain ⟨ms, rfl⟩ := passing
      have none : Input.task w.state (.pass ms) = [] := rfl
      rw [none, List.append_nil]
      exact pass ms (fun x member heads => timely_pass timely headed member heads) before
    · exact outside i (fun ms same => passing ⟨ms, same⟩) before
  · rw [exchange.state]
    exact shuffle exchange.after.symm (turn exchange.before (shuffle exchange.before before))
  · rwa [eq]

end Engine

end SubscriptionGateway
