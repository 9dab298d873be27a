import SubscriptionGateway.Proofs.Engine.Rolls
import SubscriptionGateway.Proofs.Server.Readers
import SubscriptionGateway.Proofs.Server.Writers

/-!
What the reader of a client does itself in a play. Between two of its steps anything may happen, but
nobody else takes its task on, registers anything on its connection or answers its calls. So what
its own steps keep, and everybody spares, holds until it reads the next message.
-/
namespace SubscriptionGateway

open Broker

namespace Server

open Engine (Spared)

variable {s : Server} {k : PeerId} {c : ConnectionId} {a : Action} {todo task : List Action}
  {ts us others : List (List Action)} {log own : Steps} {setup : Setup} {hub : Hub} {first : Server}

namespace World

def isTurn (k : PeerId) (w : World) : Move → Bool
  | .input _ => false
  | .step place => w.tasks[place]?.any (readBy k)

def turns (k : PeerId) (w : World) : List Move → Steps
  | [] => []
  | v :: moves => (if w.isTurn k v then w.noted v else []) ++ turns k (w.move v) moves

theorem turns_append (k : PeerId) (w : World) (before later : List Move) :
    w.turns k (before ++ later) = w.turns k before ++ (w.play before).turns k later := by
  induction before generalizing w with
  | nil => rfl
  | cons v before ih =>
    have onward := ih (w.move v)
    simp only [List.cons_append, turns, List.append_assoc] at onward ⊢
    rw [onward]
    rfl

theorem task_turn {w : World} {place : Nat} (found : w.tasks[place]? = some (a :: todo))
    (ready : w.state.ready a = true) :
    w.noted (.step place) = [(w.state, a)] ∧
      Running.Turn machine w (w.move (.step place)) a todo (w.tasks.eraseIdx place) := by
  have goes : machine.ready w.state a = true := ready
  have stepped : w.step? machine place =
      some (Running.proceed machine w.state a todo (w.tasks.eraseIdx place)) := by
    simp only [Running.step?, found, goes, ↓reduceIte]
  obtain ⟨bound, here⟩ := List.getElem?_eq_some_iff.mp found
  refine ⟨by simp [noted, Running.noted, Running.actionAt, found, goes], goes, ?_, ?_, ?_⟩
  · rw [move, Running.move, stepped]
    exact Running.proceed_state ..
  · rw [← here]
    exact (List.getElem_cons_eraseIdx_perm bound).symm
  · rw [move, Running.move, stepped]
    exact Running.proceed_tasks ..

theorem actionAt_task {w : World} {place : Nat} (goes : w.actionAt machine place = some a) :
    w.state.ready a = true ∧ ∃ todo, w.tasks[place]? = some (a :: todo) := by
  simp only [Running.actionAt] at goes
  split at goes
  · rename_i b todo found
    split at goes
    · rename_i ready
      obtain rfl := Option.some.inj goes
      exact ⟨ready, todo, found⟩
    · simp at goes
  · simp at goes

end World

/-! ## Whose turn it is -/

theorem readers_none (none : ∀ task ∈ us, readBy k task = false) :
    readers k (us ++ ts) = readers k ts := by
  have nothing : readers k us = [] :=
    List.filter_eq_nil_iff.mpr fun task member => by simp [none task member]
  rw [readers, List.filter_append]
  exact (congrArg (· ++ readers k ts) nothing).trans (List.nil_append _)

theorem started_unread (s : Server) (a : Action) :
    ∀ task ∈ (s.perform a).started, readBy k task = false := by
  intro task member
  cases session : a.engine? with
  | none => exact session_started (perform_conduct s a session) member
  | some b =>
    obtain rfl := eq_engine session
    obtain ⟨es, -, rfl⟩ := List.mem_map.mp member
    exact readBy_engine es

theorem turn_unread (s : Server) (other : readBy k (a :: todo) = false) :
    readBy k ((s.perform a).next ++ todo) = false := by
  have both : a.reads? ≠ some k ∧ readBy k todo = false := by simpa [readBy] using other
  rw [readBy_append, both.2, Bool.or_false]
  cases session : a.engine? with
  | none =>
    exact Bool.eq_false_iff.mpr fun reads =>
      both.1 (session_reads (perform_conduct s a session) (List.mem_cons_self ..) reads)
  | some b =>
    obtain rfl := eq_engine session
    exact readBy_engine _

theorem inner_readers {b : Engine.Action} (member : b ∈ inner (readers k ts).flatten) :
    b ∈ inner ts.flatten := by
  obtain ⟨a, among, own⟩ := List.mem_filterMap.mp member
  obtain ⟨task, reads, inside⟩ := List.mem_flatten.mp among
  exact mem_inner_flatten (List.mem_filter.mp reads).1 (List.mem_filterMap.mpr ⟨a, inside, own⟩)

theorem other_turn (begun : first.engine = Engine.start setup hub) (nobody : first.peers = [])
    (reached : Reached (World.start first) s ((a :: todo) :: others) log) (sits : s.Sits k c)
    (other : readBy k (a :: todo) = false) :
    Spared c (inner (readers k ((a :: todo) :: others)).flatten) s.engine
      (s.perform a).server.engine := by
  have grounded := reached_grounded begun reached
  have reading := (reached_seated begun nobody reached).reading k c sits
  have aside : readers k ((a :: todo) :: others) = readers k others :=
    List.filter_cons_of_neg (by simp [other])
  rw [aside]
  cases session : a.engine? with
  | none => exact conduct_spared (perform_conduct s a session)
  | some b =>
    obtain rfl := eq_engine session
    have elsewhere (id : String) : b.aim? s.engine ≠ some (c, id) := fun aim =>
      reading.elsewhere _ (List.mem_cons_self ..) other id
        (by simp [aims, inner, Action.engine?, aim])
    rw [inner_pending] at grounded
    have spared := Engine.perform_spared grounded elsewhere
    exact ⟨spared.holds, fun b' member =>
      spared.aims b' (List.mem_append_right _ (inner_readers member)), spared.told, spared.made⟩

theorem reader_place {w : World} (mine : readers k w.tasks = [task]) :
    ∃ place : Nat, w.tasks[place]? = some task := by
  have member : task ∈ readers k w.tasks := mine ▸ List.mem_cons_self ..
  exact List.getElem?_of_mem (List.mem_of_mem_filter member)

theorem turn_readers {w w' : World} (turn : Running.Turn machine w w' a todo others) :
    (readers k w'.tasks).Perm
      (readers k [(w.state.perform a).next ++ todo] ++ readers k others) := by
  have calm : readers k ((w.state.perform a).started ++ others) = readers k others :=
    readers_none (started_unread w.state a)
  have split : readers k (((w.state.perform a).next ++ todo) ::
      ((w.state.perform a).started ++ others)) =
        readers k [(w.state.perform a).next ++ todo] ++ readers k others := by
    rw [← calm, readers, readers, readers, ← List.filter_append, List.singleton_append]
  rcases turn.after with all | ⟨finished, rest⟩
  · exact split ▸ all.filter _
  · have finished : (w.state.perform a).next ++ todo = [] := finished
    have same : (readers k w'.tasks).Perm (readers k ((w.state.perform a).started ++ others)) :=
      rest.filter _
    rw [finished, ← calm]
    exact same

inductive Goes (k : PeerId) (c : ConnectionId) (w : World) (v : Move) : Prop where
  | others (turns : w.turns k [v] = []) (same : readers k (w.move v).tasks = readers k w.tasks)
      (spared : Spared c (inner (readers k w.tasks).flatten) w.state.engine (w.move v).state.engine)
  | own (a : Action) (todo : List Action) (others : List (List Action))
      (mine : readers k w.tasks = [a :: todo]) (ready : w.state.ready a = true)
      (turns : w.turns k [v] = [(w.state, a)]) (before : w.tasks.Perm ((a :: todo) :: others))
      (state : (w.move v).state = (w.state.perform a).server)
      (same : readers k (w.move v).tasks = readers k [(w.state.perform a).next ++ todo])

theorem move_goes {w : World} (begun : first.engine = Engine.start setup hub)
    (nobody : first.peers = []) (reached : Reached (World.start first) w.state w.tasks log)
    (sits : w.state.Sits k c) (v : Move) : Goes k c w v := by
  have seated := reached_seated begun nobody reached
  have few := (seated.reading k c sits).stage.few
  cases v with
  | input i =>
    obtain ⟨state, tasks⟩ := act_fresh w i
    obtain ⟨-, reads⟩ := company_count (input_company w.state i)
    have strange : ∀ task ∈ (i.act ⟨w.state, []⟩).tasks, readBy k task = false := fun task member =>
      Bool.eq_false_iff.mpr fun mine => Nat.ne_of_lt sits.bound (reads task member k mine).1
    have spared : Spared c (inner (readers k w.tasks).flatten) w.state.engine
        (i.act ⟨w.state, []⟩).state.engine := arrival_spared (input_arrival w.state i)
    refine .others (by simp [World.turns, World.isTurn]) ?_ (state ▸ spared)
    rw [World.move, Running.move, tasks]
    exact (readers_perm List.perm_append_comm ((readers_none strange).symm ▸ few)).trans
      (readers_none strange)
  | step place =>
    cases goes : w.actionAt machine place with
    | none =>
      have stays : w.move (.step place) = w := by
        rw [World.move, Running.move, (Running.step_eq_none_iff w place).mpr goes, Option.getD_none]
      refine .others ?_ (by rw [stays]) (by rw [stays]; exact Engine.spared_refl _)
      simp [World.turns, World.noted, Running.noted, goes]
    | some a =>
      obtain ⟨ready, todo, found⟩ := World.actionAt_task goes
      obtain ⟨noted, turn⟩ := World.task_turn found ready
      have after := turn_readers (k := k) turn
      have here := readers_perm turn.before few
      have state : (w.move (.step place)).state = (w.state.perform a).server := turn.state
      cases mine : readBy k (a :: todo) with
      | false =>
        have idle : readers k [(w.state.perform a).next ++ todo] = [] :=
          List.filter_eq_nil_iff.mpr fun task member => by
            simp [List.mem_singleton.mp member, turn_unread w.state mine]
        have aside : readers k w.tasks = readers k (w.tasks.eraseIdx place) :=
          here.symm.trans (List.filter_cons_of_neg (by simp [mine]))
        rw [idle, List.nil_append, ← aside] at after
        have spared := other_turn begun nobody (reached.shuffle turn.before) sits mine
        exact .others (by simp [World.turns, World.isTurn, found, mine]) (perm_few after.symm few)
          (by rwa [state, ← here])
      | true =>
        obtain ⟨none, -⟩ := ((seated.shuffle turn.before).reading k c sits).alone mine
        refine .own a todo (w.tasks.eraseIdx place) ?_ ready ?_ turn.before state ?_
        · rw [← here]
          exact (List.filter_cons_of_pos mine).trans (congrArg _ none)
        · simp [World.turns, World.isTurn, found, mine, noted]
        · rw [none, List.append_nil] at after
          exact perm_few after.symm (List.length_filter_le ..)

/-! ## Until the next message -/

def Unheard (k : PeerId) (log : Steps) : Prop :=
  ∀ q ∈ log, ∀ since before due?, q.2 ≠ .read k since before due?

def Action.isReading (k : PeerId) : Action → Bool
  | .read k' .. => k' == k
  | _ => false

theorem Action.isReading_iff :
    a.isReading k = true ↔ ∃ since before due?, a = .read k since before due? := by
  constructor
  · intro reading
    cases a with
    | read k' since before due? =>
      obtain rfl : k' = k := eq_of_beq reading
      exact ⟨since, before, due?, rfl⟩
    | _ => simp [isReading] at reading
  · rintro ⟨since, before, due?, rfl⟩
    exact beq_self_eq_true k

instance : Decidable (Unheard k log) :=
  decidable_of_iff (∀ q ∈ log, ¬ q.2.isReading k = true) <| by
    simp only [Unheard, Action.isReading_iff, not_exists, ne_eq]

/-- What everybody spares, and the reader of a client keeps as long as it does not come to read,
holds as long. -/
theorem turns_keep {P : Engine → List (List Action) → Steps → Prop}
    (begun : first.engine = Engine.start setup hub) (nobody : first.peers = [])
    (spares : ∀ {e e' us own}, P e us own → Spared c (inner us.flatten) e e' → P e' us own)
    (keeps : ∀ {s a todo others log own}, Reached (World.start first) s
      ((a :: todo) :: others) log →
      s.Sits k c → s.ready a = true → (∀ since before due?, a ≠ .read k since before due?) →
      P s.engine [a :: todo] own →
      P (s.perform a).server.engine (readers k [(s.perform a).next ++ todo]) (own ++ [(s, a)]))
    {w : World} (reached : Reached (World.start first) w.state w.tasks log)
    (sits : w.state.Sits k c)
    (holds : P w.state.engine (readers k w.tasks) own) (moves : List Move)
    (unheard : Unheard k (w.turns k moves)) :
    P (w.play moves).state.engine (readers k (w.play moves).tasks) (own ++ w.turns k moves) := by
  induction moves generalizing w log own with
  | nil => simpa [World.turns, World.play, Running.play] using holds
  | cons v moves ih =>
    have apart : w.turns k (v :: moves) = w.turns k [v] ++ (w.move v).turns k moves :=
      World.turns_append k w [v] moves
    rw [apart] at unheard ⊢
    have later : Unheard k ((w.move v).turns k moves) := fun q member =>
      unheard q (List.mem_append_right _ member)
    have onward := reached_move reached v
    have sits' : (w.move v).state.Sits k c := reached_sits sits (reached_move .start v)
    have after : P (w.move v).state.engine (readers k (w.move v).tasks) (own ++ w.turns k [v]) := by
      cases move_goes begun nobody reached sits v with
      | others turns same spared =>
        rw [turns, List.append_nil, same]
        exact spares holds spared
      | own a todo others mine ready turns before state same =>
        rw [turns, same, state]
        refine keeps (reached.shuffle before) sits ready (fun since before due? => ?_)
          (mine ▸ holds)
        exact unheard _ (List.mem_append_left _ (turns ▸ List.mem_singleton.mpr rfl))
          since before due?
    rw [← List.append_assoc]
    exact ih onward sits' after later

def ReaderWaits (k : PeerId) (ts : List (List Action)) : Prop :=
  ∃ since before due?, readers k ts = [[.read k since before due?]]

/-- A reader that waits for a message or has ended does nothing until it reads, and nobody else
registers anything on its connection. -/
theorem idle_stays (begun : first.engine = Engine.start setup hub) (nobody : first.peers = [])
    {w : World} (reached : Reached (World.start first) w.state w.tasks log)
    (sits : w.state.Sits k c)
    (idle : readers k w.tasks = [] ∨ ReaderWaits k w.tasks) (later : List Move)
    (unheard : Unheard k (w.turns k later)) :
    readers k (w.play later).tasks = readers k w.tasks ∧ w.turns k later = [] ∧
      ∀ id i, (w.play later).state.engine.Holds c id i → w.state.engine.Holds c id i := by
  have stays : readers k (w.play later).tasks = readers k w.tasks ∧
      [] ++ w.turns k later = ([] : Steps) ∧
      ∀ id i, (w.play later).state.engine.Holds c id i → w.state.engine.Holds c id i := by
    refine turns_keep (c := c) (P := fun e us own => us = readers k w.tasks ∧ own = [] ∧
        ∀ id i, e.Holds c id i → w.state.engine.Holds c id i) begun nobody ?_ ?_ reached sits
      ⟨rfl, rfl, fun _ _ holds => holds⟩ later unheard
    · rintro e e' us own ⟨same, nothing, held⟩ spared
      exact ⟨same, nothing, fun id i holds => held id i (spared.holds id i holds)⟩
    · rintro s a todo others log own - - - silent ⟨same, -⟩
      rcases idle with gone | ⟨since, before, due?, waits⟩
      · simp [gone] at same
      · obtain ⟨rfl, -⟩ : a = .read k since before due? ∧ todo = [] := by simpa [waits] using same
        exact absurd rfl (silent since before due?)
  exact stays

theorem read_turn {w : World} {place : Nat} {since : Nat} {before : Bool} {due? : Option Nat}
    (begun : first.engine = Engine.start setup hub) (nobody : first.peers = [])
    (reached : Reached (World.start first) w.state w.tasks log) (sits : w.state.Sits k c)
    (goes : w.actionAt machine place = some (.read k since before due?)) :
    w.turns k [.step place] = [(w.state, .read k since before due?)] ∧
      (w.move (.step place)).state = (w.state.perform (.read k since before due?)).server ∧
      readers k (w.move (.step place)).tasks =
        readers k [(w.state.perform (.read k since before due?)).next] := by
  obtain ⟨ready, todo, found⟩ := World.actionAt_task goes
  have taken : w.turns k [.step place] = [(w.state, .read k since before due?)] := by
    simp [World.turns, World.isTurn, found, readBy, Action.reads?, (World.task_turn found ready).1]
  cases move_goes begun nobody reached sits (.step place) with
  | others turns => simp [turns] at taken
  | own a todo others mine _ turns before' state same =>
    obtain rfl : a = .read k since before due? := by simpa [turns] using taken
    have whole := reached.shuffle before'
    have reads : readBy k (.read k since before due? :: todo) = true := by
      simp [readBy, Action.reads?]
    obtain ⟨-, rfl⟩ :=
      (((reached_seated begun nobody whole).reading k c sits).alone reads).2.session rfl
    exact ⟨taken, state, by rw [same, List.append_nil]⟩

def World.heard? (w : World) (k : PeerId) (place : Nat) : Option (Peer × String) :=
  match w.actionAt machine place, w.state.peers[k]? with
  | some (.read k' since before _), some p =>
    match w.state.look p since before with
    | some (.item (.text t)) => if k' = k then some (p, t) else none
    | _ => none
  | _, _ => none

theorem World.of_heard {w : World} {place : Nat} {p : Peer} {t : String}
    (heard : w.heard? k place = some (p, t)) :
    w.state.peers[k]? = some p ∧ ∃ since before due?,
      w.actionAt machine place = some (.read k since before due?) ∧
      w.state.look p since before = some (.item (.text t)) := by
  unfold World.heard? at heard
  split at heard
  · rename_i k' since before due? p' goes here
    split at heard
    · rename_i t' message
      obtain ⟨rfl, rfl, rfl⟩ : k' = k ∧ p' = p ∧ t' = t := by simpa using heard
      exact ⟨here, since, before, due?, goes, message⟩
    · simp at heard
  · simp at heard

/-! ## What a step does to the rolls -/

/-- A step that leaves the rolls as they are. -/
def Neutral (q : Server × Action) : Prop :=
  Engine.SameRolls q.1.engine (q.1.perform q.2).server.engine

theorem sameRolls_input (e : Engine) (i : Engine.Input) : Engine.SameRolls e (i.apply e) where
  registered := (Engine.input_apart e i).registered
  owned := (Engine.input_apart e i).owned
  records _ _ := by rw [(Engine.input_spares e i).1]

theorem quiet_sameRolls {e e' : Engine} (quiet : Quiet e e') : Engine.SameRolls e e' := by
  induction quiet with
  | same => exact ⟨rfl, fun _ => rfl, fun _ _ => rfl⟩
  | @input e' i _ _ ih =>
    have last := sameRolls_input e' i
    exact ⟨last.registered.trans ih.registered, fun c => (last.owned c).trans (ih.owned c),
      fun s member => (last.records s (ih.registered ▸ member)).trans (ih.records s member)⟩

theorem session_neutral (s : Server) (session : a.engine? = none) : Neutral (s, a) := by
  have called {e' : Engine} (same : e' = s.engine.newCall.2) : Engine.SameRolls s.engine e' :=
    same ▸ ⟨rfl, fun _ => rfl, fun _ _ => rfl⟩
  cases perform_conduct s a session with
  | alone engine => exact quiet_sameRolls engine
  | waits _ _ _ _ _ engine => exact quiet_sameRolls (quiet_of_eq engine)
  | asks _ _ _ engine => exact called engine
  | subscribes _ _ _ _ _ _ _ _ _ _ _ _ _ _ _ engine => exact called engine
  | unsubscribes _ _ _ _ _ _ _ _ _ engine => exact called engine
  | sends _ engine => exact called engine

end Server

end SubscriptionGateway
