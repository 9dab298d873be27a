import SubscriptionGateway.Engine.Machine
import SubscriptionGateway.Proofs.Scheduling.Play

/-!
Plays of an engine: every order in which it may be asked for things and its tasks may go on.
-/
namespace SubscriptionGateway

open Broker

namespace Engine

inductive Call where
  | subscribe (c : ConnectionId) (clientId : String) (r : Request)
  | unsubscribe (s : SubscriptionId)
  | release (c : ConnectionId)
  | dispatch (event : BrokerEvent)
  | deliver (c : ConnectionId) (f : Frame)
  | shutdown (drainMs : Nat)
  /-- The connections are released after it. -/
  | shutdownAll (drainMs : Nat)

def Call.task : Call → CallId → List Action
  | .subscribe c clientId r => World.subscribe c clientId r
  | .unsubscribe s => World.unsubscribe s
  | .release c => World.release c
  | .dispatch event => World.dispatch event
  | .deliver c f => World.deliver c f
  | .shutdown drainMs => World.shutdown drainMs
  | .shutdownAll drainMs => World.shutdownAll drainMs

inductive Input where
  | call (k : Call)
  | connect (t : Transport)
  | close (c : ConnectionId)
  /-- A writer gives up. -/
  | cancel (c : ConnectionId)
  | take (c : ConnectionId) (most : Nat)
  | stopReading (c : ConnectionId)
  /-- Anything at all happens to the brokers. -/
  | brokers (hub : Hub)
  | pass (ms : Nat)

def Input.apply (e : Engine) : Input → Engine
  | .call _ => e.newCall.2
  | .connect t => (e.openConnection t).2
  | .close c => (e.closeConnection c).2
  | .cancel c => e.cancelConnection c
  | .take c most => (e.takeFrames c most).2
  | .stopReading c => e.stopReading c
  | .brokers hub => { e with hub := hub }
  | .pass ms => { e with now := e.now + ms }

def Input.task (e : Engine) : Input → List Action
  | .call k => k.task e.calls
  | _ => []

abbrev Move := Running.Move Input

namespace World

def start (setup : Setup) (hub : Hub) : World := ⟨Engine.start setup hub, []⟩

def input (w : World) (i : Input) : World :=
  let task := i.task w.state
  if task.isEmpty then w.map i.apply else (w.map i.apply).spawn task

def move (w : World) (v : Move) : World := Running.move machine input w v

def play (w : World) (moves : List Move) : World := Running.play machine input w moves

theorem play_cons (w : World) (v : Move) (moves : List Move) :
    w.play (v :: moves) = (w.move v).play moves := rfl

theorem play_append (w : World) (before later : List Move) :
    w.play (before ++ later) = (w.play before).play later := Running.play_append ..

theorem input_state (w : World) (i : Input) : (w.input i).state = i.apply w.state := by
  simp only [input]
  split <;> rfl

theorem input_pending (w : World) (i : Input) :
    (w.input i).pending = w.pending ++ i.task w.state := by
  simp only [input]
  split
  · rename_i none
    rw [List.isEmpty_iff.mp none, List.append_nil]
    rfl
  · exact Running.pending_spawn ..

theorem move_cases (w : World) (v : Move) :
    (∃ i, v = .input i ∧ w.move v = w.input i) ∨
    (∃ place a rest, v = .step place ∧ w.actionAt machine place = some a ∧
      Running.Exchange machine w (w.move v) a rest) ∨
    (∃ place, v = .step place ∧ w.actionAt machine place = none ∧ w.move v = w) :=
  Running.move_cases w v

/-! ## Records -/

section Records

variable {α : Type} (note : Engine → Action → List α)

def noted (w : World) (v : Move) : List α := Running.noted machine note w v

def record (w : World) (moves : List Move) : List α := Running.record machine input note w moves

/-- What inputs and exchanges keep is kept by every play, together with what is noted of it. -/
theorem play_records (holds : Engine → List Action → List α → Prop)
    (shuffle : ∀ {e p q log}, p.Perm q → holds e p log → holds e q log)
    (outside : ∀ {e p log} (i : Input), holds e p log → holds (i.apply e) (p ++ i.task e) log)
    (inside : ∀ {e a rest log}, e.ready a = true → holds e (a :: rest) log →
      holds (e.perform a).engine ((e.perform a).next ++ (e.perform a).started.flatten ++ rest)
        (log ++ note e a))
    {w : World} {l : List α} (moves : List Move) (first : holds w.state w.pending l) :
    holds (w.play moves).state (w.play moves).pending (l ++ w.record note moves) := by
  induction moves generalizing w l with
  | nil => simpa [record, Running.record, play, Running.play] using first
  | cons v moves ih =>
    have onward := ih (w := w.move v) (l := l ++ w.noted note v)
    simp only [record, Running.record, ← List.append_assoc] at onward ⊢
    apply onward
    rcases move_cases w v with ⟨i, rfl, eq⟩ | ⟨place, a, rest, rfl, found, exchange⟩ |
      ⟨place, rfl, idle, eq⟩
    · rw [eq, input_state, input_pending, noted, Running.noted, List.append_nil]
      exact outside i first
    · simp only [noted, Running.noted, found]
      rw [exchange.state]
      exact shuffle exchange.after.symm
        (inside exchange.ready (shuffle exchange.before first))
    · simpa [noted, Running.noted, idle, eq] using first

end Records

theorem play_keeps (holds : Engine → List Action → Prop)
    (shuffle : ∀ {e p q}, p.Perm q → holds e p → holds e q)
    (outside : ∀ {e p} (i : Input), holds e p → holds (i.apply e) (p ++ i.task e))
    (inside : ∀ {e a rest}, e.ready a = true → holds e (a :: rest) →
      holds (e.perform a).engine ((e.perform a).next ++ (e.perform a).started.flatten ++ rest))
    {w : World} (moves : List Move) (first : holds w.state w.pending) :
    holds (w.play moves).state (w.play moves).pending :=
  play_records (fun _ _ => ([] : List Unit)) (fun e p _ => holds e p) shuffle outside inside
    (l := []) moves first

/-! ## The executor plays -/

theorem begin_is_input (w : World) (k : Call) : (w.begin k.task).2 = w.input (.call k) := by
  cases k <;> rfl

theorem time_passes : Running.Passes machine input := by
  intro w time later
  have reached : w.state.now + (time - w.state.now) = time := Nat.add_sub_cancel' later
  refine ⟨.pass (time - w.state.now), ?_⟩
  simp [input, Input.task, Input.apply, map, Running.atTime, machine, reached]

/-- Whatever is asked of an engine, the executor that sees to it makes a play. -/
theorem call_plays (w : World) (k : Call) : ∃ moves, w.play moves = (w.call k.task).2 := by
  obtain ⟨moves, reached⟩ := Running.await_plays time_passes
    (fun e => (e.reply? (w.begin k.task).1).isSome) (w.begin k.task).2
  have served : (w.call k.task).2 = Running.await machine
      (fun e => (e.reply? (w.begin k.task).1).isSome) (w.begin k.task).2 := rfl
  refine ⟨.input (.call k) :: moves, ?_⟩
  rw [served, ← reached, begin_is_input]
  rfl

end World

end Engine

end SubscriptionGateway
