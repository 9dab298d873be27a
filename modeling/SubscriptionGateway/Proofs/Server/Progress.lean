import SubscriptionGateway.Proofs.Engine.Locks
import SubscriptionGateway.Proofs.Server.Turns

/-!
A client that subscribes is never stuck. Wherever its reader is, the clock and the tasks alone may
take it to its answer: whoever opens a consumer is let through first, so that no lock is held any
more, and then each of its own steps brings it nearer.
-/
namespace SubscriptionGateway

open Broker

namespace Server

open Engine (Held duties)

variable {s : Server} {k : PeerId} {c : ConnectionId} {id : String} {a : Action} {b : Engine.Action}
  {call : CallId} {todo : List Action} {ts others : List (List Action)} {log : Steps}
  {setup : Setup} {hub : Hub} {first : Server} {w w' w'' : World}

/-! ## The clock and the tasks -/

def Move.isInner : Move → Bool
  | .step _ | .input (.pass _) => true
  | .input _ => false

/-- The clock and the tasks alone may lead from one world to another before a message is read for a
client. -/
def Onward (k : PeerId) (w w' : World) : Prop :=
  ∃ moves, (∀ v ∈ moves, v.isInner = true) ∧ Unheard k (w.turns k moves) ∧ w.play moves = w'

theorem Onward.refl (k : PeerId) (w : World) : Onward k w w :=
  ⟨[], by simp, by simp [World.turns, Unheard], rfl⟩

theorem Onward.trans (one : Onward k w w') (other : Onward k w' w'') : Onward k w w'' := by
  obtain ⟨moves, inner, unheard, rfl⟩ := one
  obtain ⟨more, inner', unheard', rfl⟩ := other
  refine ⟨moves ++ more, fun v member => ?_, fun q member => ?_, World.play_append w moves more⟩
  · exact (List.mem_append.mp member).elim (inner v) (inner' v)
  · rw [World.turns_append] at member
    exact (List.mem_append.mp member).elim (unheard q) (unheard' q)

theorem Onward.move {v : Move} (inner : v.isInner = true) (unheard : Unheard k (w.turns k [v])) :
    Onward k w (w.move v) := ⟨[v], by simpa using inner, unheard, rfl⟩

theorem Onward.reached (onward : Onward k w w')
    (reached : Reached (World.start first) w.state w.tasks log) :
    ∃ log, Reached (World.start first) w'.state w'.tasks log := by
  obtain ⟨moves, -, -, rfl⟩ := onward
  exact ⟨_, reached_play reached moves⟩

theorem Onward.sits (onward : Onward k w w') (sits : w.state.Sits k c) : w'.state.Sits k c := by
  obtain ⟨moves, -, -, rfl⟩ := onward
  exact reached_sits sits (play_reached w moves)

theorem onward_due (k : PeerId) (w : World) (due : Nat) : ∃ now, due ≤ now ∧
    Onward k w ⟨{ w.state with engine := { w.state.engine with now := now } }, w.tasks⟩ := by
  refine ⟨w.state.engine.now + (due - w.state.engine.now), by omega, ?_⟩
  exact .move (v := .input (.pass (due - w.state.engine.now))) rfl
    (by simp [World.turns, World.isTurn, Unheard])

/-! ## Who holds locks -/

theorem reached_held (begun : first.engine = Engine.start setup hub)
    (reached : Reached (World.start first) s ts log) : Held s.engine (inner ts.flatten) :=
  mirrored_pending (P := fun e pool _ => Held e pool) Engine.held_shuffle (by simp [World.start])
    (start_mirrored begun) (Engine.start_held setup hub) reached

theorem reached_leading (begun : first.engine = Engine.start setup hub)
    (reached : Reached (World.start first) s ts log) (pending : b ∈ inner ts.flatten)
    (asks : b.asks = true) : ∃ todo, .engine b :: todo ∈ ts := by
  obtain ⟨us, perm, leading⟩ := reached_always begun (Engine.start_leading setup hub) reached
  obtain ⟨a, among, own⟩ := List.mem_filterMap.mp pending
  obtain ⟨task, member, inside⟩ := List.mem_flatten.mp among
  have within : b ∈ inner task := List.mem_filterMap.mpr ⟨a, inside, own⟩
  have busy : inner task ∈ us := by
    have here : inner task ∈ innerTasks ts :=
      List.mem_filter.mpr ⟨List.mem_map_of_mem member, by
        simpa using List.ne_nil_of_mem within⟩
    exact List.mem_of_mem_filter (perm.mem_iff.mpr here)
  obtain ⟨es, rest, rfl, session⟩ := reached_fronted (by simp [World.start]) reached task member
  rw [inner_append, inner_map, session, List.append_nil] at within busy
  cases es with
  | nil => simp at within
  | cons b' es =>
    have head : b = b' := by
      refine (List.mem_cons.mp within).resolve_right fun later => ?_
      simp [leading _ busy b later] at asks
    exact ⟨es.map Action.engine ++ rest, head ▸ member⟩

theorem turn_inner (turn : Running.Turn machine w w' (.engine b) todo others) :
    (inner w.tasks.flatten).Perm (b :: (inner todo ++ inner others.flatten)) ∧
    (inner w'.tasks.flatten).Perm
      ((w.state.engine.perform b).sequel ++ (inner todo ++ inner others.flatten)) := by
  let f := w.state.engine.perform b
  have all : (inner ((f.next.map Action.engine ++ todo) ::
      (f.started.map (·.map Action.engine) ++ others)).flatten).Perm
        (f.sequel ++ (inner todo ++ inner others.flatten)) := by
    rw [List.flatten_cons, List.flatten_append, inner_append, inner_append, inner_append, inner_map,
      ← List.map_flatten, inner_map]
    simp only [Engine.Effect.sequel, List.append_assoc]
    exact (List.perm_append_comm_assoc ..).append_left _
  refine ⟨?_, ?_⟩
  · rw [← inner_pending]
    exact turn.before.flatten.filterMap _
  · rcases turn.after with same | ⟨finished, rest⟩
    · exact List.Perm.trans (same.flatten.filterMap _) all
    · have finished : f.next.map Action.engine ++ todo = [] := finished
      rw [finished, List.flatten_cons, List.nil_append] at all
      exact List.Perm.trans (rest.flatten.filterMap _) all

def opening (w : World) : List BindingId := (duties (inner w.tasks.flatten)).opening

theorem turn_opening (turn : Running.Turn machine w w' (.engine b) todo others) :
    (opening w).Perm (b.opens?.toList ++ (duties (inner todo ++ inner others.flatten)).opening) ∧
    (opening w').Perm ((duties (w.state.engine.perform b).sequel).opening ++
      (duties (inner todo ++ inner others.flatten)).opening) := by
  obtain ⟨before, after⟩ := turn_inner turn
  refine ⟨?_, ?_⟩
  · refine (before.filterMap Engine.Action.opens?).trans ?_
    rw [List.filterMap_cons]
    cases b.opens? <;> exact .refl _
  · refine (after.filterMap Engine.Action.opens?).trans ?_
    rw [List.filterMap_append]
    exact .refl _

/-- Whoever opens a consumer brings nobody who opens another. -/
theorem opens_once {e : Engine} {β : BindingId} (opens : b.opens? = some β) :
    (duties (e.perform b).sequel).opening = [] := by
  refine Engine.sequel_silent fun b' brings => ?_
  cases b with
  | openSource => rcases brings with ⟨-, rfl⟩ | rfl <;> rfl
  | _ => simp [Engine.Action.opens?] at opens

/-! ## Own steps -/

theorem own_onward (begun : first.engine = Engine.start setup hub) (nobody : first.peers = [])
    (reached : Reached (World.start first) w.state w.tasks log) (sits : w.state.Sits k c)
    (mine : readers k w.tasks = [a :: todo]) (ready : w.state.ready a = true)
    (silent : ∀ since before due?, a ≠ .read k since before due?) :
    ∃ w' others, Onward k w w' ∧ Running.Turn machine w w' a todo others ∧
      readers k w'.tasks = readers k [(w.state.perform a).next ++ todo] := by
  obtain ⟨place, found⟩ := reader_place mine
  obtain ⟨noted, turn⟩ := World.task_turn found ready
  have reads : readBy k (a :: todo) = true :=
    (List.mem_filter.mp (mine ▸ List.mem_cons_self .. : a :: todo ∈ readers k w.tasks)).2
  have taken : w.turns k [.step place] = [(w.state, a)] := by
    simp [World.turns, World.isTurn, found, reads, noted]
  refine ⟨_, _, .move rfl fun q member => ?_, turn, ?_⟩
  · rw [taken] at member
    rw [List.mem_singleton.mp member]
    exact silent
  · cases move_goes begun nobody reached sits (.step place) with
    | others turns => simp [turns] at taken
    | own a' todo' _ mine' _ _ _ _ same =>
      obtain ⟨rfl, rfl⟩ : a = a' ∧ todo = todo' := by simpa [mine] using mine'
      exact same

theorem Stage.asking {e : Engine} (stage : Stage k c e [[.engine b, .subscribed k id call]]) :
    b.ticket? = some call ∧ b.aim? e = some (c, id) := by
  generalize same : [[Action.engine b, .subscribed k id call]] = us at stage
  cases stage with
  | gone | waits | answered | ends => simp at same
  | asks b' call' id' whose aim =>
    obtain ⟨rfl, rfl, rfl⟩ : b = b' ∧ id = id' ∧ call = call' := by simpa using same
    exact ⟨whose, aim⟩
  | ended es id' =>
    cases es with
    | nil => simp at same
    | cons b' es => cases es <;> simp at same

theorem asking_asks (begun : first.engine = Engine.start setup hub) (nobody : first.peers = [])
    (reached : Reached (World.start first) s ts log) (sits : s.Sits k c)
    (mine : readers k ts = [[.engine b, .subscribed k id call]]) : b.asks = true := by
  have stage := ((reached_seated begun nobody reached).reading k c sits).stage
  exact Engine.aim_asks (mine ▸ stage).asking.2

theorem locks_go (begun : first.engine = Engine.start setup hub) (nobody : first.peers = [])
    (reached : Reached (World.start first) w.state w.tasks log) (sits : w.state.Sits k c)
    (mine : readers k w.tasks = [.engine b :: todo]) (other : b.opens? = none) :
    ∃ w', Onward k w w' ∧ readers k w'.tasks = readers k w.tasks ∧ opening w' = [] := by
  generalize count : (opening w).length = n
  induction n generalizing w log with
  | zero => exact ⟨w, .refl k w, rfl, List.length_eq_zero_iff.mp count⟩
  | succ n ih =>
    obtain ⟨β, member⟩ : ∃ β, β ∈ opening w :=
      List.exists_mem_of_length_pos (count ▸ Nat.succ_pos n)
    obtain ⟨b', pending, opens⟩ := List.mem_filterMap.mp member
    have asks :
      b'.asks = true := by cases b' <;> simp_all [Engine.Action.opens?, Engine.Action.asks]
    obtain ⟨todo', among⟩ := reached_leading begun reached pending asks
    obtain ⟨place, found⟩ := List.getElem?_of_mem among
    obtain ⟨now, due, passed⟩ := onward_due k w ((Engine.Action.due? b').getD 0)
    generalize state : ({ w.state with engine := { w.state.engine with now := now } } : Server) = s
      at passed
    have ready : s.ready (.engine b') = true := by
      subst state
      cases b' <;> simp_all [Engine.Action.opens?, ready, Engine.ready, Engine.Action.due?]
    obtain ⟨log', reached'⟩ := passed.reached reached
    obtain ⟨noted, turn⟩ := World.task_turn (w := ⟨s, w.tasks⟩) found ready
    obtain ⟨before, after⟩ := turn_opening turn
    cases move_goes begun nobody reached' (passed.sits sits) (.step place) with
    | own a todo'' _ mine' _ turns =>
      have same : a = .engine b' := by
        simp only [World.turns] at turns
        split at turns
        · simpa [noted, eq_comm] using turns
        · simp at turns
      obtain ⟨rfl, -⟩ : Action.engine b = a ∧ todo = todo'' := by
        simpa [mine] using (show readers k w.tasks = [a :: todo''] from mine')
      obtain rfl : b = b' := by simpa using same
      simp [other] at opens
    | others turns same =>
      have stepped : Onward k ⟨s, w.tasks⟩ (World.move ⟨s, w.tasks⟩ (.step place)) :=
        .move rfl (by simp [turns, Unheard])
      obtain ⟨log'', reached''⟩ := stepped.reached reached'
      have fewer : (opening (World.move ⟨s, w.tasks⟩ (.step place))).length = n := by
        have old : (opening w).length = _ := before.length_eq
        rw [after.length_eq, opens_once opens]
        simp only [opens, Option.toList_some, List.length_append, List.length_singleton] at old
        simp only [List.nil_append]
        omega
      obtain ⟨w', onward, readers', free⟩ := ih reached'' (stepped.sits (passed.sits sits))
        (same.trans mine) fewer
      exact ⟨w', passed.trans (stepped.trans onward), readers'.trans same, free⟩

theorem reads_subscribed (es : List Engine.Action) (k : PeerId) (id : String) (call : CallId) :
    readers k [es.map Action.engine ++ [.subscribed k id call]] =
      [es.map Action.engine ++ [.subscribed k id call]] := by
  simp [readers, readBy, Action.reads?]

/-- A call that subscribes and may go on has its answer then or is nearer to it. -/
theorem asks_step (begun : first.engine = Engine.start setup hub) (nobody : first.peers = [])
    (reached : Reached (World.start first) w.state w.tasks log) (sits : w.state.Sits k c)
    (mine : readers k w.tasks = [[.engine b, .subscribed k id call]])
    (free : b.opens? = none → opening w = []) (ready : w.state.engine.ready b = true) :
    ∃ w', Onward k w w' ∧ (readers k w'.tasks = [[.subscribed k id call]] ∨
      ∃ b', readers k w'.tasks = [[.engine b', .subscribed k id call]] ∧
        (b'.opens? = none → opening w' = []) ∧
        b'.stepsLeft w'.state.engine < b.stepsLeft w.state.engine) := by
  have asks := asking_asks begun nobody reached sits mine
  obtain ⟨w', others, stepped, turn, reads⟩ :=
    own_onward begun nobody reached sits mine ready (by simp)
  obtain ⟨before, after⟩ := turn_opening turn
  have sound := (reached_grounded begun (reached.shuffle turn.before)).sound
  rw [inner_pending] at sound
  replace reads := reads.trans (reads_subscribed _ k id call)
  refine ⟨w', stepped, ?_⟩
  rcases Engine.asks_nearer sound asks with last | ⟨b', next, started, other, nearer⟩
  · rw [last] at reads
    exact .inl reads
  · rw [next] at reads
    refine .inr ⟨b', reads, fun opens => ?_, turn.state ▸ nearer⟩
    rw [free other, other] at before
    have rest : (duties (inner [.subscribed k id call] ++ inner others.flatten)).opening = [] :=
      List.nil_perm.mp before
    rw [rest] at after
    refine List.perm_nil.mp (after.trans ?_)
    simp [duties, Engine.Effect.sequel, next, started, opens]

theorem asks_ready (held : Held w.state.engine (inner w.tasks.flatten)) (asks : b.asks = true)
    (free : b.opens? = none → opening w = []) {now : Nat} (due : b.due?.getD 0 ≤ now) :
    ({ w.state.engine with now := now } : Engine).ready b = true := by
  cases b with
  | subscribe => rfl
  | join call' β s' =>
    refine (Bool.not_eq_true' _).mpr (Bool.eq_false_iff.mpr fun locked => ?_)
    have member : β ∈ opening w := held β locked
    simp [free rfl] at member
  | openSource call' β s' d => simpa [Engine.ready, Engine.Action.due?] using due
  | _ => simp [Engine.Action.asks] at asks

theorem nearer_answered (begun : first.engine = Engine.start setup hub) (nobody : first.peers = [])
    (reached : Reached (World.start first) w.state w.tasks log) (sits : w.state.Sits k c)
    (mine : readers k w.tasks = [[.engine b, .subscribed k id call]])
    (free : b.opens? = none → opening w = []) :
    ∃ w', Onward k w w' ∧ readers k w'.tasks = [[.subscribed k id call]] := by
  generalize far : b.stepsLeft w.state.engine = n
  induction n using Nat.strongRecOn generalizing w log b with
  | ind n ih =>
    obtain ⟨now, due, passed⟩ := onward_due k w (b.due?.getD 0)
    have asks := asking_asks begun nobody reached sits mine
    have ready := asks_ready (reached_held begun reached) asks free due
    obtain ⟨log', reached'⟩ := passed.reached reached
    obtain ⟨w', stepped, answered | ⟨b', mine', free', nearer⟩⟩ :=
      asks_step begun nobody reached' (passed.sits sits) mine free ready
    · exact ⟨w', passed.trans stepped, answered⟩
    · obtain ⟨log'', reached''⟩ := stepped.reached reached'
      obtain ⟨w'', onward, answered⟩ := ih _ (far ▸ nearer) reached''
        (stepped.sits (passed.sits sits)) mine' free' rfl
      exact ⟨w'', passed.trans (stepped.trans onward), answered⟩

/-- Whatever has been done, a client that asks for a subscription may have its answer. -/
theorem asks_answered (begun : first.engine = Engine.start setup hub) (nobody : first.peers = [])
    (reached : Reached (World.start first) w.state w.tasks log) (sits : w.state.Sits k c)
    (mine : readers k w.tasks = [[.engine b, .subscribed k id call]]) :
    ∃ w', Onward k w w' ∧ readers k w'.tasks = [[.subscribed k id call]] := by
  cases opens : b.opens? with
  | some β => exact nearer_answered begun nobody reached sits mine (by simp [opens])
  | none =>
    obtain ⟨w', onward, same, free⟩ := locks_go begun nobody reached sits mine opens
    obtain ⟨log', reached'⟩ := onward.reached reached
    obtain ⟨w'', onward', answered⟩ := nearer_answered begun nobody reached' (onward.sits sits)
      (same.trans mine) fun _ => free
    exact ⟨w'', onward.trans onward', answered⟩

end Server

end SubscriptionGateway
