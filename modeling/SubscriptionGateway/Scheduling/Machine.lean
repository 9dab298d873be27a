/-!
Tasks that share a state. A task is the list of what it has still to do, and only its head can
wait. `step?` lets any task go on that may; every order of steps is a run. `settle` is the run
that an executor makes: the task that has waited longest goes first and keeps its turn until it
has to wait. When nobody can go on the clock moves to the next time at which somebody can.
-/
namespace SubscriptionGateway

structure Machine (σ α : Type) where
  ready : σ → α → Bool
  /-- Whether a task gives up its turn before this. -/
  inTurn : α → Bool
  due? : α → Option Nat
  /-- The state after it, what its task does next and the tasks it starts. -/
  perform : σ → α → σ × List α × List (List α)
  now : σ → Nat
  setNow : σ → Nat → σ

structure Running (σ α : Type) where
  state : σ
  tasks : List (List α) := []

namespace Running

variable {σ α : Type}

def spawn (w : Running σ α) (task : List α) : Running σ α := { w with tasks := w.tasks ++ [task] }

def keepsTurn (m : Machine σ α) (s : σ) : List α → Bool
  | [] => false
  | a :: _ => m.ready s a && !m.inTurn a

def proceed (m : Machine σ α) (s : σ) (a : α) (rest : List α) (others : List (List α)) :
    Running σ α :=
  let (s, next, started) := m.perform s a
  let todo := next ++ rest
  if keepsTurn m s todo then ⟨s, todo :: others ++ started⟩
  else ⟨s, others ++ (if todo.isEmpty then [] else [todo]) ++ started⟩

def step? (m : Machine σ α) (w : Running σ α) (place : Nat) : Option (Running σ α) :=
  match w.tasks[place]? with
  | some (a :: rest) =>
    if m.ready w.state a then some (proceed m w.state a rest (w.tasks.eraseIdx place)) else none
  | _ => none

def firstReady? (m : Machine σ α) (s : σ) (tasks : List (List α)) : Option Nat :=
  tasks.findIdx? fun
    | a :: _ => m.ready s a
    | [] => false

def settleFuel (m : Machine σ α) : Nat → Running σ α → Running σ α
  | 0, w => w
  | fuel + 1, w =>
    match firstReady? m w.state w.tasks with
    | none => w
    | some place =>
      match w.step? m place with
      | some w => settleFuel m fuel w
      | none => w

/-- More steps than an instant ever takes. -/
def patience : Nat := 10000000

def settle (m : Machine σ α) (w : Running σ α) : Running σ α := settleFuel m patience w

def earliest : List (Option Nat) → Option Nat
  | [] => none
  | none :: rest => earliest rest
  | some t :: rest => match earliest rest with
    | some u => some (min t u)
    | none => some t

def nextDue? (m : Machine σ α) (w : Running σ α) : Option Nat :=
  earliest (w.tasks.map fun task => (task.head?.bind m.due?).filter (m.now w.state < ·))

def atTime (m : Machine σ α) (w : Running σ α) (t : Nat) : Running σ α :=
  { w with state := m.setNow w.state t }

def advanceFuel (m : Machine σ α) (target : Nat) : Nat → Running σ α → Running σ α
  | 0, w => w
  | fuel + 1, w =>
    let w := w.settle m
    match w.nextDue? m with
    | some t => if t ≤ target then advanceFuel m target fuel (w.atTime m t) else w.atTime m target
    | none => w.atTime m target

def advance (m : Machine σ α) (w : Running σ α) (ms : Nat) : Running σ α :=
  advanceFuel m (m.now w.state + ms) (ms + 1) w

def awaitFuel (m : Machine σ α) (done : σ → Bool) : Nat → Running σ α → Running σ α
  | 0, w => w
  | fuel + 1, w =>
    let w := w.settle m
    if done w.state then w
    else match w.nextDue? m with
      | some t => awaitFuel m done fuel (w.atTime m t)
      | none => w

def await (m : Machine σ α) (done : σ → Bool) (w : Running σ α) : Running σ α :=
  awaitFuel m done patience w

end Running

end SubscriptionGateway
