import SubscriptionGateway.Scheduling.Machine
import Mathlib.Data.List.Perm.Basic

/-!
What a step does to the tasks of a machine. It takes the head of one task away; what this goes on
with stands before the rest of the same task, and the tasks it starts join the others. Which task
goes first is left out, so whatever is kept by one such turn is kept under every schedule.
-/
namespace SubscriptionGateway

theorem perm_few {α : Type} {l m : List α} (perm : l.Perm m) (few : l.length ≤ 1) : m = l := by
  match l, few with
  | [], _ => exact List.nil_perm.mp perm
  | [_], _ => exact (List.singleton_perm.mp perm).symm

namespace Running

variable {σ α : Type} {m : Machine σ α}

def pending (w : Running σ α) : List α := w.tasks.flatten

def actionAt (m : Machine σ α) (w : Running σ α) (place : Nat) : Option α :=
  match w.tasks[place]? with
  | some (a :: _) => if m.ready w.state a then some a else none
  | _ => none

/-- What one step does to the actions pending: `a` goes, `rest` stays. -/
structure Exchange (m : Machine σ α) (w w' : Running σ α) (a : α) (rest : List α) : Prop where
  ready : m.ready w.state a = true
  state : w'.state = (m.perform w.state a).1
  before : w.pending.Perm (a :: rest)
  after : w'.pending.Perm
    ((m.perform w.state a).2.1 ++ (m.perform w.state a).2.2.flatten ++ rest)

theorem pending_spawn (w : Running σ α) (task : List α) :
    (w.spawn task).pending = w.pending ++ task := by
  simp [pending, spawn]

theorem proceed_state (s : σ) (a : α) (rest : List α) (others : List (List α)) :
    (proceed m s a rest others).state = (m.perform s a).1 := by
  simp only [proceed]
  split <;> rfl

theorem proceed_pending (s : σ) (a : α) (rest : List α) (others : List (List α)) :
    (proceed m s a rest others).pending.Perm
      ((m.perform s a).2.1 ++ (m.perform s a).2.2.flatten ++ (rest ++ others.flatten)) := by
  have parked (todo : List α) :
      (if todo.isEmpty then [] else [todo]).flatten = todo := by
    cases todo <;> simp
  simp only [proceed]
  split
  · simp only [pending, List.cons_append, List.flatten_cons, List.flatten_append, List.append_assoc]
    refine List.Perm.append_left _ ?_
    rw [← List.append_assoc]
    exact List.perm_append_comm
  · simp only [pending, List.flatten_append, parked, List.append_assoc]
    refine (List.perm_append_comm_assoc ..).trans ?_
    refine List.Perm.append_left _ ?_
    refine List.perm_append_comm.trans ?_
    rw [← List.append_assoc]
    exact List.perm_append_comm.append_right _

theorem flatten_eraseIdx_perm {tasks : List (List α)} {place : Nat} {task : List α}
    (h : tasks[place]? = some task) :
    tasks.flatten.Perm (task ++ (tasks.eraseIdx place).flatten) := by
  obtain ⟨bound, eq⟩ := List.getElem?_eq_some_iff.mp h
  subst eq
  simpa using (List.getElem_cons_eraseIdx_perm bound).symm.flatten

theorem step_eq_none_iff (w : Running σ α) (place : Nat) :
    w.step? m place = none ↔ w.actionAt m place = none := by
  simp only [step?, actionAt]
  cases w.tasks[place]? with
  | none => simp only
  | some task =>
    cases task with
    | nil => simp only
    | cons a rest => cases m.ready w.state a <;> simp

theorem step_exchange {w w' : Running σ α} {place : Nat} (h : w.step? m place = some w') :
    ∃ a rest, w.actionAt m place = some a ∧ Exchange m w w' a rest := by
  simp only [step?] at h
  split at h
  · rename_i a rest found
    split at h
    · rename_i allowed
      injection h with h
      subst h
      refine ⟨a, rest ++ (w.tasks.eraseIdx place).flatten, ?_, allowed, proceed_state .., ?_,
        proceed_pending ..⟩
      · simp [actionAt, found, allowed]
      · simpa [pending] using flatten_eraseIdx_perm found
    · simp at h
  · simp at h

end Running

namespace Running

variable {σ α : Type} {m : Machine σ α}

/-- What one step does to the tasks: `a` was the head of one of them and `todo` the rest of it. -/
structure Turn (m : Machine σ α) (w w' : Running σ α) (a : α) (todo : List α)
    (others : List (List α)) : Prop where
  ready : m.ready w.state a = true
  state : w'.state = (m.perform w.state a).1
  before : w.tasks.Perm ((a :: todo) :: others)
  after : (w'.tasks.Perm
      (((m.perform w.state a).2.1 ++ todo) :: ((m.perform w.state a).2.2 ++ others))) ∨
    (m.perform w.state a).2.1 ++ todo = [] ∧
      w'.tasks.Perm ((m.perform w.state a).2.2 ++ others)

theorem proceed_tasks (s : σ) (a : α) (todo : List α) (others : List (List α)) :
    ((proceed m s a todo others).tasks.Perm
      (((m.perform s a).2.1 ++ todo) :: ((m.perform s a).2.2 ++ others))) ∨
    (m.perform s a).2.1 ++ todo = [] ∧
      (proceed m s a todo others).tasks.Perm ((m.perform s a).2.2 ++ others) := by
  simp only [proceed]
  split
  · left
    rw [List.cons_append]
    exact (List.perm_append_comm).cons _
  · cases left : (m.perform s a).2.1 ++ todo with
    | nil =>
      right
      refine ⟨rfl, ?_⟩
      simpa using List.perm_append_comm
    | cons b more =>
      left
      simp only [List.isEmpty_cons, Bool.false_eq_true, ↓reduceIte, List.append_assoc]
      refine List.perm_middle.trans (List.Perm.cons _ ?_)
      exact List.perm_append_comm

theorem step_turn {w w' : Running σ α} {place : Nat} (h : w.step? m place = some w') :
    ∃ a todo others, w.actionAt m place = some a ∧ Turn m w w' a todo others := by
  simp only [step?] at h
  split at h
  · rename_i a todo found
    split at h
    · rename_i allowed
      injection h with h
      subst h
      refine ⟨a, todo, w.tasks.eraseIdx place, ?_, allowed, proceed_state .., ?_,
        proceed_tasks ..⟩
      · simp [actionAt, found, allowed]
      · obtain ⟨bound, eq⟩ := List.getElem?_eq_some_iff.mp found
        rw [← eq]
        exact (List.getElem_cons_eraseIdx_perm bound).symm
    · simp at h
  · simp at h

/-- Two machines that let the same tasks go on, and have them do the same, take the same steps;
their states need not be one. -/
theorem step?_map {m' : Machine σ α} (w : Running σ α) (s : σ) (place : Nat) (f : σ → σ)
    (ready : ∀ a, m'.ready s a = m.ready w.state a) (later : ∀ s a, m'.ready (f s) a = m.ready s a)
    (inTurn : m'.inTurn = m.inTurn)
    (deed : ∀ a, w.actionAt m place = some a →
      m'.perform s a = (f (m.perform w.state a).1, (m.perform w.state a).2)) :
    step? m' ⟨s, w.tasks⟩ place = (w.step? m place).map fun w' => ⟨f w'.state, w'.tasks⟩ := by
  have keeps (s : σ) (todo : List α) : keepsTurn m' (f s) todo = keepsTurn m s todo := by
    cases todo with
    | nil => rfl
    | cons a todo => simp only [keepsTurn, later, inTurn]
  unfold step? actionAt at *
  dsimp only
  cases found : w.tasks[place]? with
  | none => rfl
  | some task =>
    cases task with
    | nil => rfl
    | cons a rest =>
      dsimp only
      rw [ready]
      split
      · rename_i goes
        unfold proceed
        rw [deed a (by simp [found, goes])]
        dsimp only
        rw [keeps]
        split <;> rfl
      · rfl

end Running

end SubscriptionGateway
