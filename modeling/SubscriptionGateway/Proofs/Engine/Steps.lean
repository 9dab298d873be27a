import SubscriptionGateway.Proofs.Engine.Upkeep
import Mathlib.Data.List.Induction

/-!
The steps of a play: which actions it performs and in which states. Every record of a play is read
off its steps. A fact that the turn of any one task upholds holds throughout every play, and a fact
that holds throughout may be used where the next one is shown to be upheld. The first of them is
that the books are sound.
-/
namespace SubscriptionGateway

open Broker

namespace Engine

abbrev Steps := List (Engine × Action)

inductive Begins (call : CallId) : Action → Prop
  | subscribe (c : ConnectionId) (clientId : String) (r : Request) :
    Begins call (.subscribe call c clientId r)
  | unsubscribe (s : SubscriptionId) : Begins call (.unsubscribe s)
  | release (c : ConnectionId) : Begins call (.release c)
  | dispatch (event : BrokerEvent) : Begins call (.dispatch call event)
  | deliver (c : ConnectionId) (f : Frame) : Begins call (.offer c f (.call call))
  | shutdown (drainMs : Nat) : Begins call (.shutdown drainMs)
  | releaseAll : Begins call .releaseAll
  | answer : Begins call (.answer call .done)

theorem task_begins {e : Engine} {i : Input} {a : Action} (member : a ∈ i.task e) :
    Begins e.calls a := by
  cases i with
  | call k =>
    cases k <;> simp only [Input.task, Call.task, World.subscribe, World.unsubscribe, World.release,
      World.dispatch, World.deliver, World.shutdown, World.shutdownAll, List.mem_cons,
      List.not_mem_nil, or_false] at member <;>
    rcases member with rfl | rfl | rfl <;> constructor
  | _ => simp [Input.task] at member

namespace World

variable {α : Type}

def steps (w : World) (moves : List Move) : Steps := Running.steps machine input w moves

theorem record_steps (note : Engine → Action → List α) (w : World) (moves : List Move) :
    w.record note moves = (w.steps moves).flatMap fun p => note p.1 p.2 := Running.record_steps ..

theorem record_append (note : Engine → Action → List α) (w : World) (before later : List Move) :
    w.record note (before ++ later) = w.record note before ++
        (w.play before).record note later := Running.record_append ..

theorem move_turns (w : World) (v : Move) :
    (∃ i, v = .input i ∧ w.move v = w.input i) ∨
    (∃ place a todo others, v = .step place ∧ w.actionAt machine place = some a ∧
      Running.Turn machine w (w.move v) a todo others) ∨
    (∃ place, v = .step place ∧ w.actionAt machine place = none ∧ w.move v = w) :=
  Running.move_turns w v

theorem input_tasks (w : World) (i : Input) :
    (w.input i).tasks = w.tasks ++ [i.task w.state] ∨
      i.task w.state = [] ∧ (w.input i).tasks = w.tasks := by
  simp only [input]
  split
  · rename_i none
    exact .inr ⟨List.isEmpty_iff.mp none, rfl⟩
  · exact .inl rfl

theorem turn_pending (a : Action) (e : Engine) (todo : List Action) (others : List (List Action)) :
    ((((e.perform a).next ++ todo) :: ((e.perform a).started ++ others)).flatten).Perm
      ((e.perform a).next ++ (e.perform a).started.flatten ++ (todo ++ others.flatten)) := by
  simp only [List.flatten_cons, List.flatten_append, List.append_assoc]
  refine List.Perm.append_left _ ?_
  rw [← List.append_assoc, ← List.append_assoc]
  exact List.perm_append_comm.append_right _

theorem steps_append (w : World) (before later : List Move) :
    w.steps (before ++ later) = w.steps before ++ (w.play before).steps later :=
  Running.record_append ..

end World

/-! ## Facts -/

/-- What may be said of an engine, its tasks and the steps that have led to them. -/
abbrev Fact := Engine → List (List Action) → Steps → Prop

/-- A fact that every turn upholds, as far as another one is known. -/
structure Upheld (known holds : Fact) : Prop where
  shuffle : ∀ {e ts us log}, ts.Perm us → holds e ts log → holds e us log
  /-- A task with nothing left to do may go. -/
  idle : ∀ {e ts log}, holds e ([] :: ts) log → holds e ts log
  outside : ∀ {e ts log} (i : Input), known e ts log → holds e ts log →
    holds (i.apply e) (i.task e :: ts) log
  inside : ∀ {e a todo others log}, e.ready a = true → known e ((a :: todo) :: others) log →
    holds e ((a :: todo) :: others) log →
    holds (e.perform a).engine (((e.perform a).next ++ todo) :: ((e.perform a).started ++ others))
      (log ++ [(e, a)])

/-- A fact that does not depend on the order of tasks, after every play from a world. -/
structure Always (w : World) (fact : Fact) : Prop where
  loose : ∀ {e ts us log}, ts.Perm us → fact e ts log → fact e us log
  throughout : ∀ moves, fact (w.play moves).state (w.play moves).tasks (w.steps moves)

variable {w : World} {known holds : Fact}

theorem move_upholds (upheld : Upheld known holds)
    (loose : ∀ {e ts us log}, ts.Perm us → known e ts log → known e us log) {l : Steps} (v : Move)
    (given : known w.state w.tasks l) (before : holds w.state w.tasks l) :
    holds (w.move v).state (w.move v).tasks (l ++ w.noted (fun e a => [(e, a)]) v) := by
  rcases World.move_turns w v with ⟨i, rfl, eq⟩ | ⟨place, a, todo, others, rfl, found, turn⟩ |
    ⟨place, rfl, nothing, eq⟩
  · have after := upheld.outside i given before
    rw [eq, World.input_state, World.noted, Running.noted, List.append_nil]
    rcases World.input_tasks w i with more | ⟨none, same⟩
    · rw [more]
      exact upheld.shuffle (List.perm_append_singleton ..).symm after
    · rw [same]
      exact upheld.idle (none ▸ after)
  · have after := upheld.inside turn.ready (loose turn.before given)
      (upheld.shuffle turn.before before)
    simp only [World.noted, Running.noted, found]
    rw [turn.state]
    rcases turn.after with all | ⟨done, rest⟩
    · exact upheld.shuffle all.symm after
    · exact upheld.shuffle rest.symm (upheld.idle (done ▸ after))
  · simpa [World.noted, Running.noted, nothing, eq] using before

/-- More may be known. -/
theorem Upheld.given {more : Fact} (upheld : Upheld known holds)
    (known_of : ∀ {e ts log}, more e ts log → known e ts log) : Upheld more holds where
  shuffle := upheld.shuffle
  idle := upheld.idle
  outside i given := upheld.outside i (known_of given)
  inside ready given := upheld.inside ready (known_of given)

theorem Always.and (always : Always w known) (upheld : Upheld known holds)
    (first : holds w.state w.tasks []) :
    Always w fun e ts log => known e ts log ∧ holds e ts log where
  loose perm both := ⟨always.loose perm both.1, upheld.shuffle perm both.2⟩
  throughout moves := by
    refine ⟨always.throughout moves, ?_⟩
    induction moves using List.reverseRecOn with
    | nil => exact first
    | append_singleton before v ih =>
      have onward := move_upholds upheld always.loose v (always.throughout before) ih
      have last : (w.play before).steps [v] =
          (w.play before).noted (fun e a => [(e, a)]) v := List.append_nil _
      rw [World.play_append, World.steps_append, last]
      exact onward

theorem Always.imp {fact : Fact} (always : Always w known)
    (loose : ∀ {e ts us log}, ts.Perm us → fact e ts log → fact e us log)
    (follows : ∀ {e ts log}, known e ts log → fact e ts log) : Always w fact where
  loose := loose
  throughout moves := follows (always.throughout moves)

theorem Always.both {fact : Fact} (always : Always w known) (also : Always w fact) :
    Always w fun e ts log => known e ts log ∧ fact e ts log where
  loose perm holds := ⟨always.loose perm holds.1, also.loose perm holds.2⟩
  throughout moves := ⟨always.throughout moves, also.throughout moves⟩

/-- Facts that do not speak of the steps hold from any later world on. -/
theorem Always.later {P : Engine → List (List Action) → Prop}
    (always : Always w fun e ts _ => P e ts) (moves : List Move) :
    Always (w.play moves) fun e ts _ => P e ts where
  loose {_ _ _ log} perm before := @Always.loose _ _ always _ _ _ log perm before
  throughout further := by
    have whole := always.throughout (moves ++ further)
    rwa [World.play_append] at whole

/-- Of what all tasks have still to do together, whichever task it is in. -/
theorem upheld_pending {P : Engine → List Action → Steps → Prop}
    (shuffle : ∀ {e p q log}, p.Perm q → P e p log → P e q log)
    (outside : ∀ {e ts log} (i : Input), known e ts log → P e ts.flatten log →
      P (i.apply e) (i.task e ++ ts.flatten) log)
    (inside : ∀ {e a rest ts log}, e.ready a = true → ts.flatten = a :: rest → known e ts log →
      P e (a :: rest) log →
      P (e.perform a).engine ((e.perform a).next ++ (e.perform a).started.flatten ++ rest)
        (log ++ [(e, a)])) :
    Upheld known fun e ts log => P e ts.flatten log where
  shuffle perm before := shuffle perm.flatten before
  idle before := before
  outside i given before := outside i given before
  inside {e a todo others log} ready given before := by
    refine shuffle (World.turn_pending a e todo others).symm ?_
    exact inside ready (List.cons_append ..) given before

/-! ## The books -/

def Accounted : Fact := fun e ts _ => e.books.Sound (duties ts.flatten)

theorem Accounted.sound {e : Engine} {ts : List (List Action)} {pool : List Action} {log : Steps}
    (accounted : Accounted e ts log) (pending : ts.flatten = pool) :
    e.books.Sound (duties pool) := pending ▸ accounted

theorem accounted_always {w : World} (sound : w.state.books.Sound (duties w.pending)) :
    Always w Accounted where
  loose perm before := sound_shuffle perm.flatten before
  throughout moves := (World.play_sound moves sound).1

theorem start_accounted (setup : Setup) (hub : Hub) :
    Always (World.start setup hub) Accounted := accounted_always (start_sound setup hub)

end Engine

end SubscriptionGateway
