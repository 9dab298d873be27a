import SubscriptionGateway.Proofs.Engine.Records

/-!
The delivery of a subscription is one task, and what that task has still to do is read off the
actions in it that are the delivery's own. While the delivery works it is one action, and when it
parts it is the last frames and its end. An action of somebody else leaves it alone.
-/
namespace SubscriptionGateway

open Broker

namespace Engine

variable {e : Engine} {a : Action} {s : SubscriptionId} {c : ConnectionId} {f : Effect}
  {p q task todo chain : List Action} {ts us others : List (List Action)}

/-! ## What frames were for -/

/-- All frames of a subscription that have entered a queue, in their order. -/
def spoken (s : SubscriptionId) (talk : List Happening) : List (ConnectionId × Frame) :=
  talk.filterMap fun
    | .queued c f (.event a) => if a = s then some (c, f) else none
    | .queued c f (.ending a) => if a = s then some (c, f) else none
    | _ => none

def answered (s : SubscriptionId) (talk : List Happening) : List (ConnectionId × Frame) :=
  talk.filterMap fun
    | .queued c f (.event a) => if a = s then some (c, f) else none
    | _ => none

/-- Of the frames of a subscription, those with which its delivery parts. -/
def parted (s : SubscriptionId) (talk : List Happening) : List (ConnectionId × Frame) :=
  talk.filterMap fun
    | .queued c f (.ending a) => if a = s then some (c, f) else none
    | _ => none

structure Silent (s : SubscriptionId) (talk : List Happening) : Prop where
  spoken : spoken s talk = []
  answered : answered s talk = []
  parted : parted s talk = []

theorem spoken_append (talk more : List Happening) :
    spoken s (talk ++ more) = spoken s talk ++ spoken s more := List.filterMap_append

theorem answered_append (talk more : List Happening) :
    answered s (talk ++ more) = answered s talk ++ answered s more := List.filterMap_append

theorem parted_append (talk more : List Happening) :
    parted s (talk ++ more) = parted s talk ++ parted s more := List.filterMap_append

theorem silent_nil : Silent s [] := ⟨rfl, rfl, rfl⟩

theorem silent_append {talk more : List Happening} (first : Silent s talk)
    (second : Silent s more) :
    Silent s (talk ++ more) where
  spoken := by rw [spoken_append, first.spoken, second.spoken, List.append_nil]
  answered := by rw [answered_append, first.answered, second.answered, List.append_nil]
  parted := by rw [parted_append, first.parted, second.parted, List.append_nil]

theorem silent_given (given : List (SubscriptionId × Bool)) (event : BrokerEvent) :
    Silent s (given.map fun t => .found t.1 event t.2) := by
  constructor <;>
  · refine List.filterMap_eq_nil_iff.mpr fun h member => ?_
    obtain ⟨t, -, rfl⟩ := List.mem_map.mp member
    rfl

theorem silent_other (e : Engine) (other : a.delivers? ≠ some s) : Silent s (e.happenings a) := by
  cases a with
  | fanOut call? b event => exact silent_given _ event
  | enqueue c f due r =>
    simp only [happenings]
    split
    · cases r with
      | call call => exact ⟨rfl, rfl, rfl⟩
      | event a | ending a =>
        have differ : a ≠ s := by simpa [Action.delivers?] using other
        constructor <;> simp [spoken, answered, parted, differ]
    · exact silent_nil
  | _ => exact silent_nil

/-! ## The actions of one delivery -/

def own (s : SubscriptionId) (task : List Action) : List Action :=
  task.filter fun a => a.delivers? == some s

theorem own_append (p q : List Action) : own s (p ++ q) = own s p ++ own s q :=
  List.filter_append ..

theorem own_cons (mine : a.delivers? = some s) : own s (a :: todo) = a :: own s todo :=
  List.filter_cons_of_pos (by simp [mine])

theorem own_cons_other (other : a.delivers? ≠ some s) : own s (a :: todo) = own s todo :=
  List.filter_cons_of_neg (by simpa using other)

theorem own_mute (others : ∀ a ∈ task, a.delivers? ≠ some s) : own s task = [] :=
  List.filter_eq_nil_iff.mpr fun a member => by simpa using others a member

def link (chain : List Action) : List (List Action) := if chain.isEmpty then [] else [chain]

/-- What the tasks have still to do for a delivery, those that have nothing left out. -/
def chains (s : SubscriptionId) (ts : List (List Action)) : List (List Action) :=
  ts.flatMap fun task => link (own s task)

theorem chains_cons (task : List Action) (ts : List (List Action)) :
    chains s (task :: ts) = link (own s task) ++ chains s ts := rfl

theorem mem_chains {ts : List (List Action)} {chain : List Action} (member : chain ∈ chains s ts)
    (inside : a ∈ chain) :
    a ∈ ts.flatten := by
  obtain ⟨task, there, linked⟩ := List.mem_flatMap.mp member
  have same : chain = own s task := by
    simp only [link] at linked
    split at linked
    · simp at linked
    · exact List.mem_singleton.mp linked
  rw [same] at inside
  exact List.mem_flatten.mpr ⟨task, there, (List.mem_filter.mp inside).1⟩

theorem chains_append (ts us : List (List Action)) :
    chains s (ts ++ us) = chains s ts ++ chains s us := List.flatMap_append

theorem chains_mute (mute : ∀ task ∈ ts, own s task = []) : chains s ts = [] := by
  refine List.flatMap_eq_nil_iff.mpr fun task member => ?_
  rw [mute task member]
  rfl

theorem chains_perm (perm : ts.Perm us) : (chains s ts).Perm (chains s us) :=
  perm.flatMap_right _

theorem chains_shuffle (perm : ts.Perm us) (few : (chains s ts).length ≤ 1) :
    chains s us = chains s ts := by
  have same : (chains s ts).Perm (chains s us) := chains_perm perm
  cases before : chains s ts with
  | nil =>
    rw [before] at same
    exact same.nil_eq.symm
  | cons chain more =>
    have alone : more = [] := by
      rw [before] at few
      exact List.eq_nil_of_length_eq_zero (by simpa using few)
    rw [before, alone] at same
    rw [alone]
    exact List.perm_singleton.mp same.symm

theorem chains_other (other : a.delivers? ≠ some s) (next : own s f.next = [])
    (started : chains s f.started = []) :
    chains s ((f.next ++ todo) :: (f.started ++ others)) = chains s ((a :: todo) :: others) := by
  rw [chains_cons, chains_cons, chains_append, own_append, own_cons_other other, next, started]
  simp

theorem chains_mine (mine : a.delivers? = some s)
    (single : chains s ((a :: todo) :: others) = [chain]) (started : chains s f.started = []) :
    chain = a :: own s todo ∧
      chains s ((f.next ++ todo) :: (f.started ++ others)) = link (own s f.next ++ own s todo) := by
  rw [chains_cons, own_cons mine] at single
  obtain ⟨rfl, none⟩ : a :: own s todo = chain ∧ chains s others = [] := by
    simpa [link] using single
  refine ⟨rfl, ?_⟩
  rw [chains_cons, chains_append, own_append, started, none]
  simp

/-- Only the delivery itself goes on with it, or the call that begins it. -/
theorem brings_own {b : Action} (brings : a.Brings b) (mine : b.delivers? = some s) :
    a.delivers? = some s ∨ a.enters? = some s := by
  rcases brings_delivers brings with none | enters | same
  · simp [none] at mine
  · exact .inr (enters ▸ mine)
  · exact .inl (same ▸ mine)

theorem sequel_other (e : Engine) (other : a.delivers? ≠ some s) (outside : a.enters? ≠ some s) :
    own s (e.perform a).next = [] ∧ chains s (e.perform a).started = [] := by
  have apart {b : Action} (member : b ∈ (e.perform a).sequel) : b.delivers? ≠ some s := fun mine =>
    (brings_own (perform_brings e a b member) mine).elim other outside
  refine ⟨own_mute fun b member => apart (List.mem_append_left _ member), ?_⟩
  refine chains_mute fun task started => own_mute fun b member => apart ?_
  exact List.mem_append_right _ (List.mem_flatten.mpr ⟨task, started, member⟩)

theorem started_mine (e : Engine) (mine : a.delivers? = some s) :
    chains s (e.perform a).started = [] := by
  have receipts (e' : Engine) (result : Except Fault Unit) (r : Receipt) :
      chains s (e'.receipt result r).started = [] := by
    obtain ⟨n, replies, next, eq, -⟩ := receipt_cases e' result r
    rw [eq]
    rfl
  cases a with
  | deliverNext s' =>
    obtain ⟨next, -, eq | ⟨rest, n, eq⟩⟩ := deliverNext_cases e s' <;> rw [perform, eq] <;> rfl
  | resolve s' event => rfl
  | deliverOutcome s' r =>
    rcases deliverOutcome_cases e s' r with ⟨c, f, eq⟩ | eq | eq <;> rw [perform, eq] <;> rfl
  | offer c f r =>
    rcases offer_cases e c f r with ⟨-, eq⟩ | ⟨-, eq⟩ <;> rw [perform, eq]
    · exact receipts _ _ r
    · rfl
  | enqueue c f due r =>
    rcases enqueue_cases e c f r with ⟨-, eq⟩ | ⟨-, e', fault, eq, -⟩ <;>
    rw [perform, eq] <;>
    exact receipts _ _ r
  | endDelivery s' => rfl
  | _ => simp [Action.delivers?] at mine

end Engine

end SubscriptionGateway
