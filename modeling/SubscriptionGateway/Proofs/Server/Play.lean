import SubscriptionGateway.Server.Calls
import SubscriptionGateway.Proofs.Scheduling.Play

/-!
Plays of a server: every order in which clients, brokers and the clock may do something and its
tasks may go on. What such a play comes to is reached by turns of single tasks in between; which
task goes first is left out of that, so whatever every turn keeps holds of every play.
-/
namespace SubscriptionGateway

open Broker

namespace Server

inductive Input where
  /-- A WebSocket client comes, with the protocols it offers. -/
  | join (header : Option String) (capacity : Nat) (stalled : Bool)
  | say (k : PeerId) (i : Incoming)
  | drop (k : PeerId)
  | resume (k : PeerId)
  | request (accept : List String) (body : List UInt8)
  | abandon (k : StreamId)
  | shutdown (drainMs : Nat)
  /-- What a client has read is shown. -/
  | receive (k : PeerId)
  | receiveChunks (k : StreamId)
  | brokers (hub : Hub)
  | pass (ms : Nat)

def Input.act (w : World) : Input → World
  | .join header capacity stalled => (w.openSocket header capacity stalled).2
  | .say k i => (w.send k i).2
  | .drop k => w.dropPeer k
  | .resume k => w.resumePeer k
  | .request accept body => (w.requestStream accept body).2.2
  | .abandon k => w.dropStream k
  | .shutdown drainMs => (w.beginShutdown drainMs).2
  | .receive k => (w.received k).2
  | .receiveChunks k => (w.receivedChunks k).2
  | .brokers hub => w.map (·.mapEngine fun e => { e with hub := hub })
  | .pass ms => w.map (·.mapEngine fun e => { e with now := e.now + ms })

abbrev Move := Running.Move Input

abbrev Steps := List (Server × Action)

namespace World

def start (first : Server) : World := ⟨first, []⟩

def move (w : World) (v : Move) : World := Running.move machine Input.act w v

def play (w : World) (moves : List Move) : World := Running.play machine Input.act w moves

def noted (w : World) (v : Move) : Steps := Running.noted machine (fun s a => [(s, a)]) w v

def steps (w : World) (moves : List Move) : Steps := Running.steps machine Input.act w moves

theorem play_append (w : World) (before later : List Move) :
    w.play (before ++ later) = (w.play before).play later := Running.play_append ..

theorem steps_append (w : World) (before later : List Move) :
    w.steps (before ++ later) = w.steps before ++ (w.play before).steps later :=
  Running.record_append ..

theorem steps_cons (w : World) (v : Move) (moves : List Move) :
    w.steps (v :: moves) = w.noted v ++ (w.move v).steps moves := rfl

theorem step_turn {w : World} {place : Nat} {a : Action}
    (goes : w.actionAt machine place = some a) :
    ∃ todo others, Running.Turn machine w (w.move (.step place)) a todo others :=
  Running.turn_of_actionAt goes

theorem mem_steps {w : World} {moves : List Move} {q : Server × Action}
    (member : q ∈ w.steps moves) : ∃ before place later,
      moves = before ++ [.step place] ++ later ∧ (w.play before).state = q.1 ∧
        (w.play before).actionAt machine place = some q.2 := Running.mem_steps member

end World

/-! ## What is reached -/

/-- How a server and its tasks may have come about, and the steps that have led there. -/
inductive Reached (w : World) : Server → List (List Action) → Steps → Prop where
  | start : Reached w w.state w.tasks []
  | shuffle {s : Server} {ts us : List (List Action)} {log : Steps} (perm : ts.Perm us) :
    Reached w s ts log → Reached w s us log
  | idle {s : Server} {ts : List (List Action)} {log : Steps} :
    Reached w s ([] :: ts) log → Reached w s ts log
  | outside {s : Server} {ts : List (List Action)} {log : Steps} (i : Input) :
    Reached w s ts log → Reached w (i.act ⟨s, []⟩).state ((i.act ⟨s, []⟩).tasks ++ ts) log
  | inside {s : Server} {a : Action} {todo : List Action} {others : List (List Action)}
    {log : Steps} (ready : s.ready a = true) : Reached w s ((a :: todo) :: others) log →
      Reached w (s.perform a).server
        (((s.perform a).next ++ todo) :: ((s.perform a).started ++ others)) (log ++ [(s, a)])

theorem Reached.trans {w : World} {s s' : Server} {ts ts' : List (List Action)} {log more : Steps}
    (reached : Reached w s ts log) (onward : Reached ⟨s, ts⟩ s' ts' more) :
    Reached w s' ts' (log ++ more) := by
  induction onward with
  | start => rwa [List.append_nil]
  | shuffle perm _ ih => exact ih.shuffle perm
  | idle _ ih => exact ih.idle
  | outside i _ ih => exact ih.outside i
  | inside ready _ ih =>
    rw [← List.append_assoc]
    exact ih.inside ready

/-- Tasks that are there already do not matter to what comes from outside. -/
theorem act_fresh (w : World) (i : Input) :
    (i.act w).state = (i.act ⟨w.state, []⟩).state ∧
      (i.act w).tasks = w.tasks ++ (i.act ⟨w.state, []⟩).tasks := by
  cases i with
  | join header capacity stalled =>
    simp only [Input.act, World.openSocket]
    split <;> simp [Running.spawn, World.map]
  | say k i =>
    have can : World.canSend ⟨w.state, []⟩ k = w.canSend k := rfl
    simp only [Input.act, World.send, can]
    split <;> simp [World.map]
  | request accept body =>
    simp only [Input.act, World.requestStream]
    split
    · simp
    split
    · simp
    split <;> simp [Running.spawn, World.map]
  | shutdown drainMs => simp [Input.act, World.beginShutdown, Running.spawn]
  | receive k =>
    simp only [Input.act, World.received]
    split <;> simp [World.map]
  | receiveChunks k =>
    simp only [Input.act, World.receivedChunks]
    split <;> simp [World.map]
  | drop | resume | abandon | brokers | pass => exact ⟨rfl, (List.append_nil _).symm⟩

variable {w₀ : World}

theorem reached_move {w : World} {log : Steps} (reached : Reached w₀ w.state w.tasks log)
    (v : Move) : Reached w₀ (w.move v).state (w.move v).tasks (log ++ w.noted v) := by
  cases v with
  | input i =>
    obtain ⟨state, tasks⟩ := act_fresh w i
    simp only [World.move, World.noted, Running.move, Running.noted, List.append_nil, state, tasks]
    exact (reached.outside i).shuffle List.perm_append_comm
  | step place =>
    cases stepped : w.step? machine place with
    | none =>
      have nothing := (Running.step_eq_none_iff w place).mp stepped
      simpa [World.move, World.noted, Running.move, Running.noted, stepped, nothing] using reached
    | some w' =>
      obtain ⟨a, todo, others, found, turn⟩ := Running.step_turn stepped
      simp only [World.move, World.noted, Running.move, Running.noted, stepped, found,
        Option.getD_some, turn.state]
      have after := (reached.shuffle turn.before).inside turn.ready
      rcases turn.after with all | ⟨finished, rest⟩
      · exact after.shuffle all.symm
      · have finished : (w.state.perform a).next ++ todo = [] := finished
        rw [finished] at after
        exact after.idle.shuffle rest.symm

theorem reached_play {w : World} {log : Steps} (reached : Reached w₀ w.state w.tasks log)
    (moves : List Move) :
    Reached w₀ (w.play moves).state (w.play moves).tasks (log ++ w.steps moves) := by
  induction moves generalizing w log with
  | nil => simpa [World.play, World.steps, Running.play, Running.steps,
      Running.record] using reached
  | cons v moves ih =>
    have onward := ih (reached_move reached v)
    rwa [List.append_assoc] at onward

theorem play_reached (w : World) (moves : List Move) :
    Reached w (w.play moves).state (w.play moves).tasks (w.steps moves) := by
  have reached := reached_play (w := w) (Reached.start (w := w)) moves
  rwa [List.nil_append] at reached

/-! ## The executor plays -/

theorem time_passes : Running.Passes machine Input.act := by
  intro w time later
  have reached : w.state.engine.now + (time - w.state.engine.now) = time :=
    Nat.add_sub_cancel' later
  refine ⟨.pass (time - w.state.engine.now), ?_⟩
  simp [Input.act, World.map, mapEngine, Running.atTime, machine, reached]

theorem await_plays (done : Server → Bool) (w : World) :
    ∃ moves, w.play moves = w.await machine done := Running.await_plays time_passes done w

end Server

end SubscriptionGateway
