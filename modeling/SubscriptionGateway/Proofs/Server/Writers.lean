import SubscriptionGateway.Proofs.Engine.Queues
import SubscriptionGateway.Proofs.Server.Readers

/-!
The writer of a client. What the session says goes out in the order in which it is said, and what
the engine says in the order in which it has entered the queue. In a server nobody but deliveries
hands frames over, so every frame that goes out is one with which a delivery answers an event or
parts.
-/
namespace SubscriptionGateway

open Broker

namespace Server

open Engine (Drains happened_append)

variable {s s' : Server} {k : PeerId} {c : ConnectionId} {e e' : Engine} {a : Action}
  {ts : List (List Action)} {log : Steps} {setup : Setup} {hub : Hub} {first : Server} {w₀ : World}

def tellings (k : PeerId) (log : Steps) : List WebSocket.ServerMessage :=
  log.flatMap fun p => p.1.tells k p.2

def sendings (k : PeerId) (log : Steps) : List WebSocket.ServerMessage :=
  log.flatMap fun p => p.1.sends k p.2

def passings (k : PeerId) (log : Steps) : List Frame := log.flatMap fun p => p.1.passes k p.2

theorem tellings_more (k : PeerId) (log : Steps) (s : Server) (a : Action) :
    tellings k (log ++ [(s, a)]) = tellings k log ++ s.tells k a := by
  simp [tellings]

theorem sendings_more (k : PeerId) (log : Steps) (s : Server) (a : Action) :
    sendings k (log ++ [(s, a)]) = sendings k log ++ s.sends k a := by
  simp [sendings]

theorem tellings_append (k : PeerId) (log more : Steps) :
    tellings k (log ++ more) = tellings k log ++ tellings k more := List.flatMap_append

theorem passings_append (k : PeerId) (log more : Steps) :
    passings k (log ++ more) = passings k log ++ passings k more := List.flatMap_append

theorem passings_more (k : PeerId) (log : Steps) (s : Server) (a : Action) :
    passings k (log ++ [(s, a)]) = passings k log ++ s.passes k a := by
  simp [passings]

/-! ## What the session says -/

def unsent (s : Server) (k : PeerId) : List WebSocket.ServerMessage :=
  match s.peers[k]? with
  | some p => p.control
  | none => []

theorem Company.peer {w : World} {p : Peer} (company : Company s w) (here : s.peers[k]? = some p) :
    ∃ p', w.state.peers[k]? = some p' ∧ p'.connection? = p.connection? := by
  have more {q : Peer} (peers : w.state.peers = s.peers ++ [q]) :
      ∃ p', w.state.peers[k]? = some p' ∧ p'.connection? = p.connection? :=
    ⟨p, by rw [peers, List.getElem?_append_left (List.getElem?_eq_some_iff.mp here).1, here], rfl⟩
  cases company with
  | same follows =>
    obtain ⟨p', there, connection, -⟩ := (follows k).peer p here
    exact ⟨p', there, connection⟩
  | more q peers => exact more peers
  | joined q peers => exact more peers

theorem reached_peer {p : Peer} (here : w₀.state.peers[k]? = some p)
    (reached : Reached w₀ s ts log) :
    ∃ p', s.peers[k]? = some p' ∧ p'.connection? = p.connection? := by
  induction reached with
  | start => exact ⟨p, here, rfl⟩
  | shuffle _ _ ih => exact ih
  | idle _ ih => exact ih
  | outside i _ ih =>
    obtain ⟨p', there, same⟩ := ih
    obtain ⟨p'', there, same'⟩ := (input_company _ i).peer there
    exact ⟨p'', there, same'.trans same⟩
  | @inside s a _ _ _ _ _ ih =>
    obtain ⟨p', there, same⟩ := ih
    obtain ⟨p'', there, same', -⟩ := (perform_attends s k a).peer p' there
    exact ⟨p'', there, same'.trans same⟩

theorem reached_sits (sits : w₀.state.Sits k c) (reached : Reached w₀ s ts log) : s.Sits k c := by
  obtain ⟨p, here, connection⟩ := sits
  obtain ⟨p', there, same⟩ := reached_peer here reached
  exact ⟨p', there, same.trans connection⟩

theorem reached_sat (made : c < w₀.state.engine.connections.length)
    (reached : Reached w₀ s ts log) :
    c < s.engine.connections.length ∧ (s.Sits k c → w₀.state.Sits k c) := by
  induction reached with
  | start => exact ⟨made, id⟩
  | shuffle _ _ ih => exact ih
  | idle _ ih => exact ih
  | @outside s _ _ i _ ih =>
    obtain ⟨bound, sat⟩ := ih
    have spared : Engine.Spared c [] s.engine (i.act ⟨s, []⟩).state.engine :=
      arrival_spared (input_arrival s i)
    refine ⟨Nat.lt_of_lt_of_le bound spared.made, fun sits => ?_⟩
    rcases company_sits (input_company s i) sits with old | ⟨-, fresh, -⟩
    · exact sat old
    · exact absurd bound (Nat.not_lt.mpr (Nat.le_of_eq fresh.symm))
  | @inside s a _ _ _ _ _ ih =>
    obtain ⟨bound, sat⟩ := ih
    refine ⟨?_, fun sits => sat ((perform_sits s a).mp sits)⟩
    cases session : a.engine? with
    | none =>
      have spared : Engine.Spared c [] s.engine (s.perform a).server.engine :=
        conduct_spared (perform_conduct s a session)
      exact Nat.lt_of_lt_of_le bound spared.made
    | some b =>
      obtain rfl := eq_engine session
      exact Nat.lt_of_lt_of_le bound (Nat.le_of_eq (Engine.perform_setup s.engine b).2.symm)

theorem Company.unsent {w : World} (company : Company s w) : w.state.unsent k = s.unsent k := by
  have more {p : Peer} (peers : w.state.peers = s.peers ++ [p]) (silent : p.control = []) :
      w.state.unsent k = s.unsent k := by
    simp only [Server.unsent, peers]
    rcases Nat.lt_trichotomy k s.peers.length with old | rfl | beyond
    · rw [List.getElem?_append_left old]
    · simp [silent]
    · rw [List.getElem?_eq_none (Nat.le_of_lt beyond),
        List.getElem?_eq_none (by simp; omega)]
  cases company with
  | same follows =>
    cases here : s.peers[k]? with
    | none =>
      have absent := List.getElem?_eq_none_iff.mp here
      rw [← (follows k).count] at absent
      simp [Server.unsent, here, List.getElem?_eq_none absent]
    | some p =>
      obtain ⟨p', there, -, -, control⟩ := (follows k).peer p here
      simp [Server.unsent, here, there, control]
  | more p peers silent => exact more peers silent
  | joined p peers silent => exact more peers silent

theorem perform_unsent (sits : s.Sits k c) :
    s.unsent k ++ s.tells k a = s.sends k a ++ (s.perform a).server.unsent k := by
  obtain ⟨p, here, -⟩ := sits
  obtain ⟨p', there, -, -, control⟩ := (perform_attends s k a).peer p here
  simpa [unsent, here, there] using control

theorem reached_said (sits : w₀.state.Sits k c) (reached : Reached w₀ s ts log) :
    w₀.state.unsent k ++ tellings k log = sendings k log ++ s.unsent k := by
  induction reached with
  | start => exact List.append_nil _
  | shuffle _ _ ih => exact ih
  | idle _ ih => exact ih
  | outside i _ ih => rwa [(input_company _ i).unsent]
  | @inside s a _ _ log _ before ih =>
    rw [tellings_more, sendings_more, ← List.append_assoc, ih, List.append_assoc,
      perform_unsent (reached_sits sits before), List.append_assoc]

theorem reached_told (nobody : first.peers = []) (reached : Reached (World.start first) s ts log) :
    ∀ m ∈ sendings k log ++ s.unsent k, m ∈ tellings k log := by
  induction reached with
  | start => simp [sendings, unsent, World.start, nobody]
  | shuffle _ _ ih => exact ih
  | idle _ ih => exact ih
  | outside i _ ih => rwa [(input_company _ i).unsent]
  | @inside s a _ _ log _ _ ih =>
    have here : ∀ m ∈ s.sends k a ++ (s.perform a).server.unsent k,
        m ∈ s.unsent k ++ s.tells k a := by
      cases peer : s.peers[k]? with
      | none =>
        have absent := List.getElem?_eq_none_iff.mp peer
        rw [← (perform_attends s k a).count] at absent
        have silent : s.sends k a = [] := by cases a <;> simp [sends, peer]
        simp [silent, unsent, List.getElem?_eq_none absent]
      | some p =>
        obtain ⟨p', there, -, -, control⟩ := (perform_attends s k a).peer p peer
        simp [unsent, peer, there, control]
    rw [tellings_more, sendings_more]
    intro m member
    rw [List.append_assoc, List.mem_append] at member
    rw [List.mem_append]
    rcases member with old | new
    · exact .inl (ih m (List.mem_append_left _ old))
    · rcases List.mem_append.mp (here m new) with waits | fresh
      · exact .inl (ih m (List.mem_append_right _ waits))
      · exact .inr fresh

/-! ## What the engine says -/

theorem quiet_drains (quiet : Quiet e e') : Drains e e' := by
  induction quiet with
  | same => exact Engine.drains_refl e
  | input i _ _ ih => exact Engine.drains_trans ih (Engine.input_drains _ i)

theorem conduct_drains {f : Effect} (conduct : Conduct s a f) :
    Drains s.engine f.server.engine := by
  have called (same : f.server.engine = s.engine.newCall.2) : Drains s.engine f.server.engine :=
    same ▸ Engine.drains_same rfl
  cases conduct with
  | alone engine => exact quiet_drains engine
  | waits _ _ _ _ _ engine => exact quiet_drains (quiet_of_eq engine)
  | asks _ _ _ engine => exact called engine
  | subscribes _ _ _ _ _ _ _ _ _ _ _ _ _ _ _ engine => exact called engine
  | unsubscribes _ _ _ _ _ _ _ _ _ engine => exact called engine
  | sends _ engine => exact called engine

theorem arrival_drains {w : World} (arrival : Arrival s w) : Drains s.engine w.state.engine := by
  cases arrival with
  | quiet engine => exact quiet_drains engine
  | joins engine => exact engine ▸ Engine.input_drains s.engine (.connect .webSocket)
  | requests _ _ _ _ engine =>
    rw [engine]
    exact Engine.drains_trans (Engine.input_drains s.engine (.connect .eventStream))
      (Engine.drains_same rfl)
  | calls _ _ engine => exact engine ▸ Engine.drains_same rfl

theorem pick_passes (sits : s.Sits k c) :
    (s.passes k (.pick k) ++ (s.pickNext k).server.engine.queueOf c).Sublist
      (s.engine.queueOf c) := by
  obtain ⟨p, here, connection⟩ := sits
  simp only [passes, pickNext, here, ↓reduceIte]
  cases ended : p.ended with
  | true => simp
  | false =>
    cases control : p.control with
    | cons m rest =>
      simp only [Bool.false_eq_true, ↓reduceIte, sendMessage_server, List.nil_append]
      exact List.Sublist.refl _
    | nil =>
      simp only [Bool.false_eq_true, ↓reduceIte, connection, Engine.takeFrames]
      cases found : s.engine.connections[c]? with
      | none => simp [Engine.queueOf, found]
      | some x =>
        cases queue : x.queue with
        | nil => simp [queue]
        | cons f rest =>
          simp only [queue, List.take_succ_cons, List.take_zero, sendMessage_server]
          rw [Engine.queueOf_update, Engine.queueOf, found]
          simp [queue]

theorem perform_queueOf (s : Server) (a : Action) (c : ConnectionId) :
    ((s.perform a).server.engine.queueOf c).Sublist
      (s.engine.queueOf c ++ Engine.entered c (Engine.happened (innerSteps [(s, a)]))) := by
  cases session : a.engine? with
  | none =>
    exact (conduct_drains (perform_conduct s a session) c).trans (List.sublist_append_left ..)
  | some b =>
    obtain rfl := eq_engine session
    have one : Engine.happened (innerSteps [(s, .engine b)]) = s.engine.happenings b :=
      List.append_nil _
    rw [one]
    exact Engine.perform_queueOf s.engine b c ▸ List.Sublist.refl _

theorem perform_passes (sits : s.Sits k c) :
    (s.passes k a ++ (s.perform a).server.engine.queueOf c).Sublist
      (s.engine.queueOf c ++ Engine.entered c (Engine.happened (innerSteps [(s, a)]))) := by
  by_cases picks : a = .pick k
  · exact picks ▸ (pick_passes sits).trans (List.sublist_append_left ..)
  · have none : s.passes k a = [] := by
      cases a with
      | pick k' =>
        have differ : k' ≠ k := fun same => picks (same ▸ rfl)
        simp [passes, differ]
      | _ => rfl
    rw [none, List.nil_append]
    exact perform_queueOf s a c

/-- The frames that a writer takes have waited in the queue in this order or have entered it in this
order after that, and so have those that still wait. -/
theorem reached_passed (sits : w₀.state.Sits k c) (reached : Reached w₀ s ts log) :
    (passings k log ++ s.engine.queueOf c).Sublist
      (w₀.state.engine.queueOf c ++ Engine.entered c (Engine.happened (innerSteps log))) := by
  induction reached with
  | start => exact List.sublist_append_left ..
  | shuffle _ _ ih => exact ih
  | idle _ ih => exact ih
  | outside i _ ih => exact ((arrival_drains (input_arrival _ i) c).append_left _).trans ih
  | @inside s a _ _ log _ before ih =>
    have still := reached_sits sits before
    have taken := (perform_passes (a := a) still).append_left (passings k log)
    rw [← List.append_assoc (passings k log) (s.engine.queueOf c)] at taken
    have onward := taken.trans (ih.append_right _)
    rwa [List.append_assoc _ (Engine.entered c _), ← Engine.entered_append, ← happened_append,
      ← innerSteps_append, ← List.append_assoc, ← passings_more] at onward

theorem reached_queued (begun : first.engine = Engine.start setup hub)
    (reached : Reached (World.start first) s ts log) (c : ConnectionId) :
    (s.engine.queueOf c).Sublist (Engine.entered c (Engine.happened (innerSteps log))) := by
  induction reached with
  | start => simp [World.start, begun, Engine.start, Engine.queueOf]
  | shuffle _ _ ih => exact ih
  | idle _ ih => exact ih
  | outside i _ ih => exact (arrival_drains (input_arrival _ i) c).trans ih
  | @inside s a _ _ log _ _ ih =>
    rw [innerSteps_append, happened_append, Engine.entered_append]
    exact (perform_queueOf s a c).trans (ih.append_right _)

theorem passes_waits {f : Frame} (passed : f ∈ s.passes k a) :
    ∃ c, s.Sits k c ∧ f ∈ s.engine.queueOf c := by
  cases a with
  | pick k' =>
    simp only [passes] at passed
    split at passed
    · rename_i same
      subst same
      split at passed
      · simp at passed
      rename_i p peer
      split at passed
      · simp at passed
      split at passed
      · rename_i c _ connection
        refine ⟨c, ⟨p, peer, connection⟩, ?_⟩
        simp only [Engine.takeFrames] at passed
        cases found : s.engine.connections[c]? with
        | none => simp [found] at passed
        | some z =>
          simp only [found] at passed
          simp only [Engine.queueOf, found]
          exact List.mem_of_mem_take passed
      · simp at passed
    · simp at passed
  | _ => simp [passes] at passed

theorem reached_taken (begun : first.engine = Engine.start setup hub)
    (reached : Reached (World.start first) s ts log) :
    ∀ f ∈ passings k log, ∃ c, s.Sits k c ∧
      f ∈ Engine.entered c (Engine.happened (innerSteps log)) := by
  induction reached with
  | start => simp [passings]
  | shuffle _ _ ih => exact ih
  | idle _ ih => exact ih
  | outside i _ ih =>
    intro f passed
    obtain ⟨c, ⟨p, here, connection⟩, entered⟩ := ih f passed
    obtain ⟨p', there, same⟩ := (input_company _ i).peer here
    exact ⟨c, ⟨p', there, same.trans connection⟩, entered⟩
  | @inside s a _ _ log _ before ih =>
    intro f passed
    rw [passings_more] at passed
    have there : ∃ c, s.Sits k c ∧ f ∈ Engine.entered c (Engine.happened (innerSteps log)) := by
      rcases List.mem_append.mp passed with old | new
      · exact ih f old
      · obtain ⟨c, sits, waits⟩ := passes_waits new
        exact ⟨c, sits, (reached_queued begun before c).subset waits⟩
    obtain ⟨c, sits, entered⟩ := there
    refine ⟨c, (perform_sits s a).mpr sits, ?_⟩
    rw [innerSteps_append, happened_append, Engine.entered_append]
    exact List.mem_append_left _ entered

/-! ## Who hands frames over -/

def isDirect : Engine.Action → Bool
  | .offer _ _ (.call _) | .enqueue _ _ _ (.call _) => true
  | _ => false

theorem brings_delivered {b b' : Engine.Action} (delivered : isDirect b = false)
    (brings : b.Brings b') : isDirect b' = false := by
  cases b' with
  | offer c f r =>
    cases r with
    | call call => cases b <;> simp_all [Engine.Action.Brings]
    | _ => rfl
  | enqueue c f due r =>
    cases r with
    | call call =>
      cases b with
      | offer c' f' r' =>
        obtain ⟨-, -, rfl⟩ : c = c' ∧ f = f' ∧ .call call = r' := by
          simpa [Engine.Action.Brings] using brings
        simp [isDirect] at delivered
      | _ => simp [Engine.Action.Brings] at brings
    | _ => rfl
  | _ => rfl

theorem ending_delivered {call : Engine.Call} (ending : call.isEnding = true) (n : CallId) :
    ∀ b ∈ call.task n, isDirect b = false := by
  cases call <;> simp_all [Engine.Call.isEnding, Engine.Call.task, Engine.World.unsubscribe,
    Engine.World.release, Engine.World.shutdownAll, isDirect]

theorem conduct_delivered {f : Effect} (conduct : Conduct s a f) :
    ∀ b ∈ inner (f.next ++ f.started.flatten), isDirect b = false := by
  cases conduct with
  | alone _ next started =>
    rw [started, List.flatten_nil, List.append_nil, inner_aside next]
    simp
  | waits _ _ _ _ _ _ next started => simp [next, started, inner, Action.engine?]
  | asks call ending rest _ next session started =>
    rw [started, List.flatten_nil, List.append_nil, next, inner_append, inner_map,
      inner_aside session, List.append_nil]
    exact ending_delivered ending _
  | subscribes _ _ _ _ _ _ _ _ _ _ _ _ _ _ _ _ next started =>
    simp [next, started, inner, Action.engine?, isDirect]
  | unsubscribes _ _ _ _ _ _ _ _ _ _ next started =>
    simp [next, started, inner, Action.engine?, isDirect]
  | sends c _ next started =>
    rw [next, started, List.flatten_singleton, List.nil_append, inner_map]
    exact ending_delivered rfl _

theorem arrival_delivered {w : World} (arrival : Arrival s w) :
    ∀ b ∈ inner w.tasks.flatten, isDirect b = false := by
  cases arrival with
  | quiet _ tasks =>
    intro b member
    obtain ⟨a, among, own⟩ := List.mem_filterMap.mp member
    obtain ⟨task, inside, here⟩ := List.mem_flatten.mp among
    have none : b ∈ inner task := List.mem_filterMap.mpr ⟨a, here, own⟩
    rw [inner_aside (tasks task inside)] at none
    exact absurd none List.not_mem_nil
  | joins _ _ _ _ tasks => simp [tasks, inner, Action.engine?]
  | requests _ _ _ _ _ tasks => simp [tasks, inner, Action.engine?, isDirect]
  | calls call ending _ tasks =>
    rw [tasks, List.flatten_singleton, inner_map]
    exact ending_delivered ending _

theorem reached_delivered (reached : Reached (World.start first) s ts log) :
    (∀ b ∈ inner ts.flatten, isDirect b = false) ∧
      ∀ c f call, .queued c f (.call call) ∉ Engine.happened (innerSteps log) := by
  induction reached with
  | start => exact ⟨by simp [World.start, inner], fun _ _ _ => List.not_mem_nil⟩
  | shuffle perm _ ih =>
    exact ⟨fun b member => ih.1 b ((perm.flatten.filterMap _).mem_iff.mpr member), ih.2⟩
  | idle _ ih => exact ih
  | outside i _ ih =>
    refine ⟨fun b member => ?_, ih.2⟩
    rw [List.flatten_append, inner_append] at member
    exact (List.mem_append.mp member).elim (arrival_delivered (input_arrival _ i) b) (ih.1 b)
  | @inside s a todo others log _ _ ih =>
    obtain ⟨pending, past⟩ := ih
    have rest {b : Engine.Action} (member : b ∈ inner (todo ++ others.flatten)) :
        isDirect b = false := by
      refine pending b ?_
      rw [List.flatten_cons, List.cons_append, ← List.singleton_append, inner_append]
      exact List.mem_append_right _ member
    have split (b : Engine.Action) (member : b ∈ inner (((s.perform a).next ++ todo) ::
        ((s.perform a).started ++ others)).flatten) :
        b ∈ inner ((s.perform a).next ++ (s.perform a).started.flatten) ∨
          b ∈ inner (todo ++ others.flatten) := by
      simp only [List.flatten_cons, List.flatten_append, inner_append, List.mem_append] at member ⊢
      tauto
    rw [innerSteps_append]
    cases session : a.engine? with
    | none =>
      have nothing : innerSteps [(s, a)] = [] := by simp [innerSteps, session]
      rw [nothing, List.append_nil]
      refine ⟨fun b member => ?_, past⟩
      exact (split b member).elim (conduct_delivered (perform_conduct s a session) b) rest
    | some b =>
      obtain rfl := eq_engine session
      have own : isDirect b = false := pending b (by simp [inner, Action.engine?])
      refine ⟨fun b' member => ?_, fun c f call => ?_⟩
      · refine (split b' member).elim (fun new => ?_) rest
        have brought : b' ∈ (s.engine.perform b).sequel := by
          simpa [perform, ofEngine, inner, List.filterMap_append, Action.engine?,
            Engine.Effect.sequel, List.mem_filterMap] using new
        exact brings_delivered own (Engine.perform_brings s.engine b b' brought)
      · have one : innerSteps [(s, .engine b)] = [(s.engine, b)] := rfl
        rw [one, Engine.happened_more]
        intro member
        rcases List.mem_append.mp member with old | new
        · exact past c f call old
        · cases b with
          | enqueue c' f' due r =>
            simp only [Engine.happenings] at new
            split at new
            · obtain ⟨-, -, rfl⟩ : c = c' ∧ f = f' ∧ .call call = r := by simpa using new
              simp [isDirect] at own
            · exact absurd new List.not_mem_nil
          | fanOut call? b event => simp [Engine.happenings] at new
          | _ => exact absurd new List.not_mem_nil

/-- Every frame that has entered a queue is one that a delivery has handed over. -/
theorem reached_spoken {f : Frame} {r : Engine.Receipt}
    (reached : Reached (World.start first) s ts log)
    (queued : .queued c f r ∈ Engine.happened (innerSteps log)) :
    ∃ x, r = .event x ∨ r = .ending x := by
  cases r with
  | event x => exact ⟨x, .inl rfl⟩
  | ending x => exact ⟨x, .inr rfl⟩
  | call call => exact absurd queued ((reached_delivered reached).2 c f call)

end Server

end SubscriptionGateway
