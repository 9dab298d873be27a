import SubscriptionGateway.Proofs.Scheduling.Tasks

/-!
Plays: every order in which something may come to a machine from outside and its tasks may go on. A
play is a list of moves, each of them an input or a step of the task at a place. The executor makes
one of these plays, so what holds of every play holds of it.
-/
namespace SubscriptionGateway

namespace Running

inductive Move (ι : Type) where
  | input (i : ι)
  | step (place : Nat)

variable {σ α ι β : Type}

section Plays

variable (m : Machine σ α) (act : Running σ α → ι → Running σ α)

/-- A step of a task that may not go on is no step. -/
def move (w : Running σ α) : Move ι → Running σ α
  | .input i => act w i
  | .step place => (w.step? m place).getD w

def play (w : Running σ α) (moves : List (Move ι)) : Running σ α := moves.foldl (move m act) w

def noted (note : σ → α → List β) (w : Running σ α) : Move ι → List β
  | .input _ => []
  | .step place =>
    match w.actionAt m place with
    | some a => note w.state a
    | none => []

def record (note : σ → α → List β) (w : Running σ α) : List (Move ι) → List β
  | [] => []
  | v :: moves => w.noted m note v ++ record note (w.move m act v) moves

def steps (w : Running σ α) (moves : List (Move ι)) : List (σ × α) :=
  w.record m act (fun s a => [(s, a)]) moves

end Plays

variable {m : Machine σ α} {act : Running σ α → ι → Running σ α} {note : σ → α → List β}

theorem play_append (w : Running σ α) (before later : List (Move ι)) :
    w.play m act (before ++ later) = (w.play m act before).play m act later := List.foldl_append

theorem record_append (w : Running σ α) (before later : List (Move ι)) :
    w.record m act note (before ++ later) =
      w.record m act note before ++ (w.play m act before).record m act note later := by
  induction before generalizing w with
  | nil => rfl
  | cons v before ih =>
    have onward := ih (w.move m act v)
    simp only [play, List.foldl_cons, List.cons_append, record, List.append_assoc] at onward ⊢
    rw [onward]

theorem record_steps (note : σ → α → List β) (w : Running σ α) (moves : List (Move ι)) :
    w.record m act note moves = (w.steps m act moves).flatMap fun p => note p.1 p.2 := by
  induction moves generalizing w with
  | nil => rfl
  | cons v moves ih =>
    have first : w.noted m note v =
        (w.noted m (fun s a => [(s, a)]) v).flatMap fun p => note p.1 p.2 := by
      cases v with
      | input i => rfl
      | step place =>
        simp only [noted]
        cases w.actionAt m place <;> simp
    simp only [steps, record, List.flatMap_append] at ih ⊢
    rw [first, ih]

theorem steps_cons (w : Running σ α) (v : Move ι) (moves : List (Move ι)) :
    w.steps m act (v :: moves) =
      w.noted m (fun s a => [(s, a)]) v ++ (w.move m act v).steps m act moves := rfl

theorem move_turns (w : Running σ α) (v : Move ι) :
    (∃ i, v = .input i ∧ w.move m act v = act w i) ∨
    (∃ place a todo others, v = .step place ∧ w.actionAt m place = some a ∧
      Turn m w (w.move m act v) a todo others) ∨
    (∃ place, v = .step place ∧ w.actionAt m place = none ∧ w.move m act v = w) := by
  cases v with
  | input i => exact .inl ⟨i, rfl, rfl⟩
  | step place =>
    cases stepped : w.step? m place with
    | some w' =>
      obtain ⟨a, todo, others, found, turn⟩ := step_turn stepped
      exact .inr (.inl ⟨place, a, todo, others, rfl, found, by simpa [move, stepped] using turn⟩)
    | none =>
      have idle := (step_eq_none_iff w place).mp stepped
      exact .inr (.inr ⟨place, rfl, idle, by simp [move, stepped]⟩)

/-- What a move does to all that tasks have still to do together: something from outside, one step,
or nothing. -/
theorem move_cases (w : Running σ α) (v : Move ι) :
    (∃ i, v = .input i ∧ w.move m act v = act w i) ∨
    (∃ place a rest, v = .step place ∧ w.actionAt m place = some a ∧
      Exchange m w (w.move m act v) a rest) ∨
    (∃ place, v = .step place ∧ w.actionAt m place = none ∧ w.move m act v = w) := by
  cases v with
  | input i => exact .inl ⟨i, rfl, rfl⟩
  | step place =>
    cases stepped : w.step? m place with
    | some w' =>
      obtain ⟨a, rest, found, exchange⟩ := step_exchange stepped
      exact .inr (.inl ⟨place, a, rest, rfl, found, by simpa [move, stepped] using exchange⟩)
    | none =>
      have idle := (step_eq_none_iff w place).mp stepped
      exact .inr (.inr ⟨place, rfl, idle, by simp [move, stepped]⟩)

theorem turn_of_actionAt {w : Running σ α} {place : Nat} {a : α}
    (goes : w.actionAt m place = some a) :
    ∃ todo others, Turn m w (w.move m act (.step place)) a todo others := by
  rcases @move_turns _ _ _ m act w (.step place) with ⟨i, other, -⟩ |
    ⟨place', a', todo, others, same, found, turn⟩ | ⟨place', same, idle, -⟩
  · nomatch other
  · cases same
    obtain rfl : a = a' := by simpa [goes] using found
    exact ⟨todo, others, turn⟩
  · cases same
    simp [goes] at idle

theorem mem_steps {w : Running σ α} {moves : List (Move ι)} {q : σ × α}
    (member : q ∈ w.steps m act moves) : ∃ before place later,
      moves = before ++ [.step place] ++ later ∧ (w.play m act before).state = q.1 ∧
        (w.play m act before).actionAt m place = some q.2 := by
  induction moves generalizing w with
  | nil => exact absurd member List.not_mem_nil
  | cons v moves ih =>
    rw [steps_cons] at member
    rcases List.mem_append.mp member with now | later
    · cases v with
      | input i => exact absurd now List.not_mem_nil
      | step place =>
        simp only [noted] at now
        split at now
        · rename_i found
          obtain rfl := List.mem_singleton.mp now
          exact ⟨[], place, moves, rfl, rfl, found⟩
        · exact absurd now List.not_mem_nil
    · obtain ⟨before, place, rest, rfl, state, found⟩ := ih later
      exact ⟨v :: before, place, rest, rfl, state, found⟩

/-! ## The executor plays -/

theorem settle_plays (w : Running σ α) :
    ∃ moves : List (Move ι), w.play m act moves = w.settle m := by
  have all (fuel : Nat) : ∃ moves : List (Move ι), w.play m act moves = settleFuel m fuel w := by
    induction fuel generalizing w with
    | zero => exact ⟨[], rfl⟩
    | succ fuel ih =>
      simp only [settleFuel]
      split
      · exact ⟨[], rfl⟩
      rename_i place _
      split
      · rename_i w' stepped
        obtain ⟨moves, reached⟩ := ih w'
        refine ⟨.step place :: moves, ?_⟩
        simpa [play, move, stepped] using reached
      · exact ⟨[], rfl⟩
  exact all patience

def Passes (m : Machine σ α) (act : Running σ α → ι → Running σ α) : Prop :=
  ∀ (w : Running σ α) (time : Nat), m.now w.state ≤ time → ∃ i, act w i = w.atTime m time

theorem earliest_mem {times : List (Option Nat)} {time : Nat}
    (least : earliest times = some time) : some time ∈ times := by
  induction times generalizing time with
  | nil => cases least
  | cons t times ih =>
    cases t with
    | none => exact List.mem_cons_of_mem _ (ih least)
    | some t =>
      simp only [earliest] at least
      split at least
      · rename_i u rest
        rcases Nat.le_total t u with first | first
        · simp_all
        · rw [Option.some.injEq, Nat.min_eq_right first] at least
          exact List.mem_cons_of_mem _ (ih (least ▸ rest))
      · simp_all

theorem nextDue_later {w : Running σ α} {time : Nat} (next : w.nextDue? m = some time) :
    m.now w.state ≤ time := by
  obtain ⟨task, -, due⟩ := List.mem_map.mp (earliest_mem next)
  have later := (Option.filter_eq_some_iff.mp due).2
  exact Nat.le_of_lt (of_decide_eq_true later)

theorem await_plays (passes : Passes m act) (done : σ → Bool) (w : Running σ α) :
    ∃ moves : List (Move ι), w.play m act moves = w.await m done := by
  have all (fuel : Nat) :
      ∃ moves : List (Move ι), w.play m act moves = awaitFuel m done fuel w := by
    induction fuel generalizing w with
    | zero => exact ⟨[], rfl⟩
    | succ fuel ih =>
      obtain ⟨moves, settled⟩ : ∃ moves : List (Move ι), w.play m act moves = w.settle m :=
        settle_plays w
      simp only [awaitFuel]
      split
      · exact ⟨moves, settled⟩
      split
      · rename_i time next
        obtain ⟨i, passed⟩ := passes (w.settle m) time (nextDue_later next)
        obtain ⟨further, reached⟩ := ih ((w.settle m).atTime m time)
        refine ⟨moves ++ .input i :: further, ?_⟩
        rw [play_append, settled]
        simpa [play, move, passed] using reached
      · exact ⟨moves, settled⟩
  exact all patience

end Running

end SubscriptionGateway
