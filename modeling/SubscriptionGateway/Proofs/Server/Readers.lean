import SubscriptionGateway.Proofs.Engine.Owners
import SubscriptionGateway.Proofs.Server.Clients

/-!
The reader of a client does one thing after the other: it waits for a message, asks for a
subscription and takes the answer, or ends a subscription and says so. Nobody else asks for
subscriptions on the client's connection, and as long as its reader asks for one nothing is
registered for its id. So a client never has two subscriptions for one id.
-/
namespace SubscriptionGateway

open Broker

namespace Server

open Engine (Holds Unheld Spared Grounded)

variable {s s' : Server} {k : PeerId} {c : ConnectionId} {id : String} {e e' : Engine}
  {a : Action} {task todo : List Action} {ts us new others : List (List Action)} {log : Steps}
  {setup : Setup} {hub : Hub} {first : Server}

/-! ## What tasks ask for -/

def readBy (k : PeerId) (task : List Action) : Bool := task.any fun a => a.reads? == some k

def readers (k : PeerId) (ts : List (List Action)) : List (List Action) := ts.filter (readBy k)

theorem readers_perm (perm : ts.Perm us) (few : (readers k ts).length ≤ 1) :
    readers k us = readers k ts := perm_few (perm.filter _) few

def aims (e : Engine) (task : List Action) : List (ConnectionId × String) :=
  (inner task).filterMap (·.aim? e)

theorem aims_append (p q : List Action) : aims e (p ++ q) = aims e p ++ aims e q := by
  simp only [aims, inner_append, List.filterMap_append]

theorem aims_aside (apart : aside task = true) : aims e task = [] := by
  simp only [aims, inner_aside apart, List.filterMap_nil]

theorem mem_aims_flatten {p : ConnectionId × String} :
    p ∈ aims e ts.flatten ↔ ∃ task ∈ ts, p ∈ aims e task := by
  induction ts with
  | nil => simp [aims, inner]
  | cons task ts ih => simp [aims_append, ih]

theorem aims_calm {es : List Engine.Action} (calm : ∀ b ∈ es, b.asks = false) :
    aims e (es.map Action.engine) = [] := by
  simp only [aims, inner_map]
  refine List.filterMap_eq_nil_iff.mpr fun b member => ?_
  refine Option.eq_none_iff_forall_ne_some.mpr fun p aim => ?_
  exact absurd (Engine.aim_asks aim) (by simp [calm b member])

theorem mem_inner_flatten {b : Engine.Action} (member : task ∈ ts) (inside : b ∈ inner task) :
    b ∈ inner ts.flatten := by
  obtain ⟨a, among, own⟩ := List.mem_filterMap.mp inside
  exact List.mem_filterMap.mpr ⟨a, List.mem_flatten.mpr ⟨task, member, among⟩, own⟩

theorem aims_same (same : ∀ b ∈ inner task, b.aim? e' = b.aim? e) : aims e' task = aims e task :=
  List.filterMap_congr same

theorem readBy_engine (es : List Engine.Action) : readBy k (es.map Action.engine) = false := by
  simp [readBy, Action.reads?]

theorem readBy_aside (apart : aside task = true) : readBy k task = false :=
  List.any_eq_false.mpr fun a member => by simp [aside_reads apart member]

theorem readBy_tail (reads : readBy k todo = true) : readBy k (a :: todo) = true := by
  rw [readBy, List.any_cons]
  exact Bool.or_eq_true _ _ ▸ .inr reads

theorem readBy_append (p q : List Action) : readBy k (p ++ q) = (readBy k p || readBy k q) :=
  List.any_append

theorem ending_calm {call : Engine.Call} (ending : call.isEnding = true) (n : CallId) :
    ∀ b ∈ call.task n, b.asks = false := by
  cases call <;> simp_all [Engine.Call.isEnding, Engine.Call.task, Engine.World.unsubscribe,
    Engine.World.release, Engine.World.shutdownAll, Engine.Action.asks]

/-! ## How far a reader is -/

inductive Stage (k : PeerId) (c : ConnectionId) (e : Engine) : List (List Action) → Prop where
  | gone : Stage k c e []
  | waits (since : Nat) (before : Bool) (due? : Option Nat) :
    Stage k c e [[.read k since before due?]]
  | asks (b : Engine.Action) (call : CallId) (id : String) (whose : b.ticket? = some call)
      (aim : b.aim? e = some (c, id)) (unheld : Unheld e c id) :
    Stage k c e [[.engine b, .subscribed k id call]]
  | answered (call : CallId) (id : String) (r : Reply) (told : (call, r) ∈ e.replies)
      (refused : ∀ fault, r = .failed fault → Unheld e c id) :
    Stage k c e [[.subscribed k id call]]
  /-- There is just one subscription for the id. -/
  | ends (sub : SubscriptionId) (id : String) (call : CallId)
      (sole : ∀ s, Holds e c id s → s = sub) :
    Stage k c e [[.engine (.unsubscribe sub), .engine (.answer call .done), .unsubscribed k id]]
  | ended (es : List Engine.Action) (id : String) (calm : ∀ b ∈ es, b.asks = false)
      (unheld : Unheld e c id) : Stage k c e [es.map .engine ++ [.unsubscribed k id]]

theorem Stage.few (stage : Stage k c e us) : us.length ≤ 1 := by cases stage <;> simp

theorem Stage.spared (stage : Stage k c e us) (spared : Spared c (inner us.flatten) e e') :
    Stage k c e' us := by
  cases stage with
  | gone => exact .gone
  | waits since before due? => exact .waits since before due?
  | asks b call id whose aim unheld =>
    have same := spared.aims b (by simp [inner, Action.engine?])
    exact .asks b call id whose (same.trans aim) (spared.unheld unheld)
  | answered call id r told refused =>
    exact .answered call id r (spared.told _ told) fun fault same =>
      spared.unheld (refused fault same)
  | ends sub id call sole =>
    exact .ends sub id call fun s holds => sole s (spared.holds id s holds)
  | ended es id calm unheld => exact .ended es id calm (spared.unheld unheld)

theorem Stage.unheld (stage : Stage k c e us) (asked : (c, id) ∈ aims e us.flatten) :
    Unheld e c id := by
  cases stage with
  | gone | waits | answered | ends =>
    simp [aims, inner, Action.engine?, Engine.Action.aim?] at asked
  | asks b call id' _ aim unheld =>
    obtain rfl : id = id' := by simpa [aims, inner, Action.engine?, aim] using asked
    exact unheld
  | ended es id' calm =>
    have none : aims e (es.map Action.engine ++ [.unsubscribed k id']) = [] := by
      rw [aims_append, aims_calm calm]
      rfl
    simp [none] at asked

structure Reading (k : PeerId) (c : ConnectionId) (e : Engine) (ts : List (List Action)) :
    Prop where
  stage : Stage k c e (readers k ts)
  elsewhere : ∀ task ∈ ts, readBy k task = false → ∀ id, (c, id) ∉ aims e task
  single : ∀ id s s', Holds e c id s → Holds e c id s' → s = s'

theorem Reading.unheld (reading : Reading k c e ts) (asked : (c, id) ∈ aims e ts.flatten) :
    Unheld e c id := by
  obtain ⟨task, member, aim⟩ := mem_aims_flatten.mp asked
  have mine : readBy k task = true :=
    Bool.not_eq_false _ |>.mp fun other => reading.elsewhere task member other id aim
  exact reading.stage.unheld
    (mem_aims_flatten.mpr ⟨task, List.mem_filter.mpr ⟨member, mine⟩, aim⟩)

theorem Reading.shuffle (reading : Reading k c e ts) (perm : ts.Perm us) : Reading k c e us where
  stage := readers_perm perm reading.stage.few ▸ reading.stage
  elsewhere task member := reading.elsewhere task (perm.mem_iff.mpr member)
  single := reading.single

theorem Reading.joined (reading : Reading k c e ts)
    (spared : Spared c (inner ts.flatten) e e')
    (fresh : ∀ task ∈ new, readBy k task = false ∧ ∀ id, (c, id) ∉ aims e' task) :
    Reading k c e' (new ++ ts) where
  stage := by
    have none : readers k new = [] :=
      List.filter_eq_nil_iff.mpr fun task member => by simp [(fresh task member).1]
    have same : readers k (new ++ ts) = readers k ts := by
      rw [readers, List.filter_append]
      exact (congrArg (· ++ readers k ts) none).trans (List.nil_append _)
    have fewer : ∀ b ∈ inner (readers k ts).flatten, b ∈ inner ts.flatten := by
      intro b member
      obtain ⟨a, among, own⟩ := List.mem_filterMap.mp member
      obtain ⟨task, reads, inside⟩ := List.mem_flatten.mp among
      exact mem_inner_flatten (List.mem_filter.mp reads).1
        (List.mem_filterMap.mpr ⟨a, inside, own⟩)
    rw [same]
    exact reading.stage.spared
      ⟨spared.holds, fun b member => spared.aims b (fewer b member), spared.told, spared.made⟩
  elsewhere task member other id := by
    rcases List.mem_append.mp member with recent | old
    · exact (fresh task recent).2 id
    · rw [aims_same fun b within => spared.aims b (mem_inner_flatten old within)]
      exact reading.elsewhere task old other id
  single id s s' one other := reading.single id s s' (spared.holds id s one)
    (spared.holds id s' other)

theorem Reading.dropped (reading : Reading k c e (task :: others))
    (other : readBy k task = false) : Reading k c e others where
  stage := by
    have same : readers k (task :: others) = readers k others :=
      List.filter_cons_of_neg (by simp [other])
    exact same ▸ reading.stage
  elsewhere u member := reading.elsewhere u (List.mem_cons_of_mem _ member)
  single := reading.single

/-- If the reader has something to do in a task it has nothing to do in any other. -/
theorem Reading.alone (reading : Reading k c e (task :: others)) (mine : readBy k task = true) :
    readers k others = [] ∧ Stage k c e [task] := by
  have same : readers k (task :: others) = task :: readers k others :=
    List.filter_cons_of_pos mine
  have stage := same ▸ reading.stage
  have none : readers k others = [] := by simpa using stage.few
  exact ⟨none, none ▸ stage⟩

theorem Reading.turned {turn : List Action} {started : List (List Action)}
    (reading : Reading k c e (task :: others)) (mine : readBy k task = true)
    (same : ∀ b ∈ inner others.flatten, b.aim? e' = b.aim? e)
    (stage : Stage k c e' (readers k [turn]))
    (own : readBy k turn = false → ∀ id, (c, id) ∉ aims e' turn)
    (calm : ∀ task ∈ started, readBy k task = false ∧ ∀ id, (c, id) ∉ aims e' task)
    (single : ∀ id s s', Holds e' c id s → Holds e' c id s' → s = s') :
    Reading k c e' (turn :: (started ++ others)) where
  stage := by
    have none : readers k started = [] :=
      List.filter_eq_nil_iff.mpr fun task member => by simp [(calm task member).1]
    have only : readers k (started ++ others) = [] := by
      rw [readers, List.filter_append]
      exact List.append_eq_nil_iff.mpr ⟨none, (reading.alone mine).1⟩
    have same : readers k (turn :: (started ++ others)) = readers k [turn] := by
      change readers k ([turn] ++ (started ++ others)) = _
      rw [readers, List.filter_append]
      exact (congrArg (readers k [turn] ++ ·) only).trans (List.append_nil _)
    exact same ▸ stage
  elsewhere task member other id := by
    rcases List.mem_cons.mp member with rfl | member
    · exact own other id
    rcases List.mem_append.mp member with new | old
    · exact (calm task new).2 id
    · rw [aims_same fun b within => same b (mem_inner_flatten old within)]
      exact reading.elsewhere task (List.mem_cons_of_mem _ old) other id
  single := single

/-! ## What the engine does -/

theorem mem_aims_map {es : List Engine.Action} {p : ConnectionId × String} :
    p ∈ aims e (es.map Action.engine) ↔ ∃ b ∈ es, b.aim? e = some p := by
  simp [aims, inner_map]

section Engine

variable {b : Engine.Action} {rest : List Engine.Action}

theorem brought_aims (grounded : Grounded e (b :: rest)) {es : List Engine.Action}
    {p : ConnectionId × String} (within : ∀ b' ∈ es, b' ∈ (e.perform b).sequel)
    (aim : p ∈ aims (e.perform b).engine (es.map Action.engine)) : b.aim? e = some p := by
  obtain ⟨b', member, aim⟩ := mem_aims_map.mp aim
  exact Engine.sequel_aims grounded (within b' member) aim

theorem mem_next : ∀ b' ∈ (e.perform b).next, b' ∈ (e.perform b).sequel :=
  fun _ member => List.mem_append_left _ member

theorem mem_started {es : List Engine.Action} (started : es ∈ (e.perform b).started) :
    ∀ b' ∈ es, b' ∈ (e.perform b).sequel :=
  fun _ member => List.mem_append_right _ (List.mem_flatten.mpr ⟨es, started, member⟩)

theorem other_reading (grounded : Grounded e (b :: (inner todo ++ inner others.flatten)))
    (other : readBy k (.engine b :: todo) = false)
    (reading : Reading k c e ((.engine b :: todo) :: others)) :
    Reading k c (e.perform b).engine (((e.perform b).next.map Action.engine ++ todo) ::
      ((e.perform b).started.map (·.map Action.engine) ++ others)) := by
  have elsewhere := reading.elsewhere _ (List.mem_cons_self ..) other
  have aims_todo : aims (e.perform b).engine todo = aims e todo :=
    aims_same fun b member => Engine.perform_aims grounded b (List.mem_append_left _ member)
  have own (id : String) : b.aim? e ≠ some (c, id) := fun aim =>
    elsewhere id (by simp [aims, inner, Action.engine?, aim])
  have spared := Engine.perform_spared grounded own
  have apart : Spared c (inner others.flatten) e (e.perform b).engine :=
    ⟨spared.holds, fun b member => spared.aims b (List.mem_append_right _ member), spared.told,
      spared.made⟩
  have rest (id : String) : (c, id) ∉ aims e todo := fun aim => by
    refine elsewhere id ?_
    obtain ⟨b', inside, aim⟩ := List.mem_filterMap.mp aim
    refine List.mem_filterMap.mpr ⟨b', ?_, aim⟩
    simp [inner, Action.engine?] at inside ⊢
    exact .inr inside
  rw [← List.cons_append]
  refine (reading.dropped other).joined apart fun task member => ?_
  rcases List.mem_cons.mp member with rfl | started
  · refine ⟨?_, fun id aim => ?_⟩
    · rw [readBy_append, readBy_engine]
      simpa [readBy, Action.reads?] using other
    · rw [aims_append, aims_todo] at aim
      rcases List.mem_append.mp aim with new | old
      · exact own id (brought_aims grounded mem_next new)
      · exact rest id old
  · obtain ⟨es, new, rfl⟩ := List.mem_map.mp started
    exact ⟨readBy_engine es, fun id aim => own id (brought_aims grounded (mem_started new) aim)⟩

theorem asks_reading {call : CallId} (ready : e.ready b = true)
    (grounded : Grounded e (b :: inner others.flatten)) (whose : b.ticket? = some call)
    (aim : b.aim? e = some (c, id)) (unheld : Unheld e c id)
    (reading : Reading k c e ([.engine b, .subscribed k id call] :: others)) :
    Reading k c (e.perform b).engine
      (((e.perform b).next.map Action.engine ++ [.subscribed k id call]) ::
        ((e.perform b).started.map (·.map Action.engine) ++ others)) := by
  have mine : readBy k [.engine b, .subscribed k id call] = true := by
    simp [readBy, Action.reads?]
  have after := grounded.onward ready
  -- At other ids nothing new is registered, and here one at most is.
  have old {id' : String} {s : SubscriptionId} (holds : Holds (e.perform b).engine c id' s)
      (other : id' ≠ id) : Holds e c id' s := by
    refine (Engine.perform_holds grounded.sound holds).resolve_right fun new => other ?_
    simpa [aim] using new.1.symm
  have sought {s : SubscriptionId} (holds : Holds (e.perform b).engine c id s) :
      ∃ b', b.seeks? = some (b', s) :=
    ((Engine.perform_holds grounded.sound holds).resolve_left (unheld s)).2
  have single (id' : String) (s s' : SubscriptionId) (one : Holds (e.perform b).engine c id' s)
      (other : Holds (e.perform b).engine c id' s') : s = s' := by
    by_cases same : id' = id
    · subst same
      obtain ⟨k₁, first⟩ := sought one
      obtain ⟨k₂, second⟩ := sought other
      have pair : (k₁, s) = (k₂, s') := Option.some.inj (first.symm.trans second)
      exact congrArg Prod.snd pair
    · exact reading.single id' s s' (old one same) (old other same)
  have started (calm : ∀ es ∈ (e.perform b).started, ∀ b' ∈ es, b'.asks = false) :
      ∀ task ∈ (e.perform b).started.map (·.map Action.engine),
        readBy k task = false ∧ ∀ id, (c, id) ∉ aims (e.perform b).engine task := by
    intro task member
    obtain ⟨es, started, rfl⟩ := List.mem_map.mp member
    exact ⟨readBy_engine es, fun id => by simp [aims_calm (calm es started)]⟩
  have reads (es : List Engine.Action) :
      readBy k (es.map Action.engine ++ [.subscribed k id call]) = true := by
    simp [readBy, Action.reads?]
  have alone (es : List Engine.Action) :
    readers k [es.map Action.engine ++ [.subscribed k id call]] =
      [es.map Action.engine ++ [.subscribed k id call]] := by simp [readers, reads]
  cases Engine.asks_pursues grounded.sound (Engine.aim_asks aim) whose with
  | onward b' next none _ whose' aim' =>
    have waiting : ¬ Engine.Granted call (e.perform b).engine := by
      rintro ⟨s, told⟩
      exact Engine.answered_over after.honored told
        (List.mem_append_left _ (mem_next b' (by simp [next]))) whose'
    refine reading.turned mine (Engine.perform_aims grounded) ?_ (by simp [reads])
      (started (by simp [none])) single
    rw [alone, next]
    exact .asks b' call id whose' (aim'.trans aim)
      (Engine.asks_unheld ready grounded.sound whose unheld waiting)
  | answered r next told calm =>
    refine reading.turned mine (Engine.perform_aims grounded) ?_ (by simp [reads])
      (started calm) single
    rw [alone, next]
    refine .answered call id r told fun fault same => ?_
    subst same
    exact Engine.asks_unheld ready grounded.sound whose unheld
      (Engine.ungranted after.honored told)

theorem ends_reading
    (grounded : Grounded e (b :: (inner todo ++ inner others.flatten)))
    (calm : b.asks = false) (es : List Engine.Action) (easy : ∀ b ∈ es, b.asks = false)
    (rest : todo = es.map Action.engine ++ [.unsubscribed k id])
    (unheld : Unheld (e.perform b).engine c id)
    (reading : Reading k c e ((.engine b :: todo) :: others)) :
    Reading k c (e.perform b).engine (((e.perform b).next.map Action.engine ++ todo) ::
      ((e.perform b).started.map (·.map Action.engine) ++ others)) := by
  subst rest
  have mine : readBy k (.engine b :: (es.map Action.engine ++ [.unsubscribed k id])) = true := by
    simp [readBy, Action.reads?]
  have brings : ∀ b' ∈ (e.perform b).sequel, b'.asks = false := fun b' member =>
    Engine.brings_calm calm (Engine.perform_brings e b b' member)
  have reads : readBy k ((e.perform b).next.map Action.engine ++
      (es.map Action.engine ++ [.unsubscribed k id])) = true := by
    simp [readBy, Action.reads?]
  have own (id' : String) : b.aim? e ≠ some (c, id') := fun aim => by
    simp [Engine.aim_asks aim] at calm
  have spared := Engine.perform_spared grounded own
  refine reading.turned mine (fun b member => spared.aims b (List.mem_append_right _ member)) ?_
    (by simp [reads]) ?_ fun id s s' one other =>
      reading.single id s s' (spared.holds id s one) (spared.holds id s' other)
  · have alone : readers k [(e.perform b).next.map Action.engine ++
        (es.map Action.engine ++ [.unsubscribed k id])] =
          [((e.perform b).next ++ es).map Action.engine ++ [.unsubscribed k id]] := by
      simp only [readers, List.filter_cons_of_pos reads, List.map_append, List.append_assoc,
        List.filter_nil]
    rw [alone]
    refine .ended _ id (fun b' member => ?_) unheld
    exact (List.mem_append.mp member).elim (fun new => brings b' (mem_next b' new)) (easy b')
  · intro task member
    obtain ⟨fs, started, rfl⟩ := List.mem_map.mp member
    have all : ∀ b' ∈ fs, b'.asks = false := fun b' inside =>
      brings b' (mem_started started b' inside)
    exact ⟨readBy_engine fs, fun id => by simp [aims_calm all]⟩

theorem engine_reading (ready : e.ready b = true)
    (grounded : Grounded e (b :: (inner todo ++ inner others.flatten)))
    (reading : Reading k c e ((.engine b :: todo) :: others)) :
    Reading k c (e.perform b).engine (((e.perform b).next.map Action.engine ++ todo) ::
      ((e.perform b).started.map (·.map Action.engine) ++ others)) := by
  cases mine : readBy k (.engine b :: todo) with
  | false => exact other_reading grounded mine reading
  | true =>
    have stage := (reading.alone mine).2
    generalize same : [Action.engine b :: todo] = us at stage
    cases stage with
    | gone | waits | answered => simp at same
    | asks b' call id whose aim unheld =>
      obtain ⟨rfl, rfl⟩ : b = b' ∧ todo = [.subscribed k id call] := by simpa using same
      exact asks_reading ready grounded whose aim unheld reading
    | ends sub id call sole =>
      obtain ⟨rfl, rfl⟩ : b = .unsubscribe sub ∧
        todo = [.engine (.answer call .done), .unsubscribed k id] := by simpa using same
      exact ends_reading grounded rfl [.answer call .done] (by simp [Engine.Action.asks]) rfl
        (Engine.unsubscribe_unheld grounded.sound sole) reading
    | ended es id calm unheld =>
      cases es with
      | nil => simp at same
      | cons b' es =>
        obtain ⟨rfl, rest⟩ : b = b' ∧ todo = es.map Action.engine ++ [.unsubscribed k id] := by
          simpa using same
        have first := calm b (List.mem_cons_self ..)
        have own (id' : String) : b.aim? e ≠ some (c, id') := fun aim => by
          simp [Engine.aim_asks aim] at first
        exact ends_reading grounded first es
          (fun b member => calm b (List.mem_cons_of_mem _ member))
          rest ((Engine.perform_spared grounded own).unheld unheld) reading

end Engine

/-! ## What a session does -/

theorem quiet_spared {pool : List Engine.Action} (quiet : Quiet e e') : Spared c pool e e' := by
  induction quiet with
  | same => exact Engine.spared_refl e
  | input i _ _ ih => exact Engine.spared_trans ih (Engine.input_spared _ i)

theorem conduct_spared {pool : List Engine.Action} {f : Effect} (conduct : Conduct s a f) :
    Spared c pool s.engine f.server.engine := by
  have called (call : Engine.Call) (same : f.server.engine = s.engine.newCall.2) :
      Spared c pool s.engine f.server.engine := same ▸ Engine.input_spared s.engine (.call call)
  cases conduct with
  | alone engine => exact quiet_spared engine
  | waits _ _ _ _ _ engine => exact quiet_spared (quiet_of_eq engine)
  | asks call _ _ engine => exact called call engine
  | subscribes _ _ _ _ _ c _ id r _ _ _ _ _ _ engine => exact called (.subscribe c id r) engine
  | unsubscribes _ _ _ _ sub _ _ _ _ engine => exact called (.unsubscribe sub) engine
  | sends c engine => exact called (.release c) engine

theorem session_reads {f : Effect} (conduct : Conduct s a f) (member : task ∈ f.next :: f.started)
    (mine : readBy k task = true) : a.reads? = some k := by
  have unread (es : List Engine.Action) (rest : List Action) (apart : aside rest = true) :
      readBy k (es.map Action.engine ++ rest) = false := by
    rw [readBy_append, readBy_engine, readBy_aside apart]
    rfl
  cases conduct with
  | alone _ next started =>
    obtain rfl : task = f.next := by simpa [started] using member
    simp [readBy_aside next] at mine
  | waits k' since before due? whose _ next started =>
    obtain rfl : task = _ := by simpa [started, next] using member
    obtain rfl : k' = k := by simpa [readBy, Action.reads?] using mine
    exact whose
  | asks call ending rest _ next session started =>
    obtain rfl : task = _ := by simpa [started, next] using member
    simp [unread _ rest session] at mine
  | subscribes k' _ _ _ _ _ _ _ _ same _ _ _ _ _ _ next started =>
    obtain rfl : task = _ := by simpa [started, next] using member
    obtain rfl : k' = k := by simpa [readBy, Action.reads?] using mine
    rw [same]
    rfl
  | unsubscribes k' _ _ id sub whose _ _ _ _ next started =>
    obtain rfl : task = _ := by simpa [started, next] using member
    obtain rfl : k' = k := by simpa [readBy, Action.reads?] using mine
    exact whose
  | sends c' _ next started =>
    have either : task = [] ∨
        task = ((Engine.Call.release c').task s.engine.calls).map Action.engine := by
      simpa [next, started] using member
    rcases either with rfl | rfl
    · simp [readBy] at mine
    · simp [readBy_engine] at mine

theorem session_started {f : Effect} (conduct : Conduct s a f) (member : task ∈ f.started) :
    readBy k task = false := by
  cases conduct with
  | sends c' _ _ started =>
    obtain rfl : task = ((Engine.Call.release c').task s.engine.calls).map Action.engine := by
      simpa [started] using member
    exact readBy_engine _
  | _ => simp_all

theorem session_aims {f : Effect} (conduct : Conduct s a f) (member : task ∈ f.next :: f.started)
    (aim : (c, id) ∈ aims f.server.engine task) :
    ∃ k, a.reads? = some k ∧ s.Sits k c ∧ s.asksFor? k a = some id ∧ readBy k task = true := by
  have calm {call : Engine.Call} (ending : call.isEnding = true) (rest : List Action)
      (apart : aside rest = true) : aims f.server.engine
        ((call.task s.engine.calls).map Action.engine ++ rest) = [] := by
    rw [aims_append, aims_calm (ending_calm ending _), aims_aside apart]
    rfl
  cases conduct with
  | alone _ next started =>
    obtain rfl : task = f.next := by simpa [started] using member
    simp [aims_aside next] at aim
  | waits k' since before due? _ _ next started =>
    obtain rfl : task = _ := by simpa [started, next] using member
    simp [aims, inner, Action.engine?] at aim
  | asks call ending rest _ next session started =>
    obtain rfl : task = _ := by simpa [started, next] using member
    simp [calm ending rest session] at aim
  | subscribes k since before due? p c' t id' r same peer connection message decoded _ _ next
      started =>
    obtain rfl : task = _ := by simpa [started, next] using member
    obtain ⟨rfl, rfl⟩ : c = c' ∧ id = id' := by
      simpa [aims, inner, Action.engine?, Engine.Action.aim?] using aim
    subst same
    refine ⟨k, rfl, ⟨p, peer, connection⟩, ?_, by simp [readBy, Action.reads?]⟩
    simp [asksFor?, peer, connection, message, WebSocket.Protocol.subscribes?, decoded]
  | unsubscribes k _ _ id' sub _ _ _ _ _ next started =>
    obtain rfl : task = _ := by simpa [started, next] using member
    simp [aims, inner, Action.engine?, Engine.Action.aim?] at aim
  | sends c' _ next started =>
    have either : task = [] ∨
        task = ((Engine.Call.release c').task s.engine.calls).map Action.engine ++ [] := by
      simpa [next, started] using member
    rcases either with rfl | rfl
    · simp [aims, inner] at aim
    · rw [calm rfl [] rfl] at aim
      exact absurd aim List.not_mem_nil

theorem Stage.session (stage : Stage k c e [a :: todo]) (session : a.engine? = none) :
    a.reads? = some k ∧ todo = [] := by
  generalize same : [a :: todo] = us at stage
  cases stage with
  | gone => simp at same
  | waits since before due? =>
    obtain ⟨rfl, rfl⟩ : a = .read k since before due? ∧ todo = [] := by simpa using same
    exact ⟨rfl, rfl⟩
  | asks b call id =>
    obtain ⟨rfl, -⟩ : a = .engine b ∧ todo = [.subscribed k id call] := by simpa using same
    simp [Action.engine?] at session
  | answered call id =>
    obtain ⟨rfl, rfl⟩ : a = .subscribed k id call ∧ todo = [] := by simpa using same
    exact ⟨rfl, rfl⟩
  | ends sub id call =>
    obtain ⟨rfl, -⟩ : a = .engine (.unsubscribe sub) ∧
      todo = [.engine (.answer call .done), .unsubscribed k id] := by simpa using same
    simp [Action.engine?] at session
  | ended es id =>
    cases es with
    | nil =>
      obtain ⟨rfl, rfl⟩ : a = .unsubscribed k id ∧ todo = [] := by simpa using same
      exact ⟨rfl, rfl⟩
    | cons b es =>
      obtain ⟨rfl, -⟩ : a = .engine b ∧ todo = es.map Action.engine ++ [.unsubscribed k id] := by
        simpa using same
      simp [Action.engine?] at session

/-- What the reader of a client comes to with what it does itself. -/
theorem session_stage {f : Effect} (conduct : Conduct s a f) {pool : List Engine.Action}
    (grounded : Grounded s.engine pool) (sits : s.Sits k c) (whose : a.reads? = some k)
    (single : ∀ id s' s'', Holds s.engine c id s' → Holds s.engine c id s'' → s' = s'') :
    Stage k c f.server.engine (readers k [f.next]) := by
  have spared : Spared c pool s.engine f.server.engine := conduct_spared conduct
  obtain ⟨p, peer, connection⟩ := sits
  have owned {id : String} {sub : SubscriptionId} :
      (sub, id) ∈ s.engine.owned c ↔ Holds s.engine c id sub :=
    Engine.owned_iff grounded.sound grounded.labelled
  have reads {next : List Action} (same : f.next = next) (mine : readBy k next = true) :
      readers k [f.next] = [next] := by simp [readers, same, mine]
  have done (unread : readBy k f.next = false) :
    Stage k c f.server.engine (readers k [f.next]) := by
    have none : readers k [f.next] = [] := by simp [readers, unread]
    rw [none]
    exact .gone
  cases conduct with
  | alone _ next => exact done (readBy_aside next)
  | asks call ending rest _ next session =>
    refine done ?_
    rw [next, readBy_append, readBy_engine, readBy_aside session]
    rfl
  | sends c' _ next => exact done (by simp [next, readBy])
  | waits k' since before due? whose' _ next =>
    obtain rfl : k' = k := by simpa [whose] using whose'.symm
    rw [reads next (by simp [readBy, Action.reads?])]
    exact .waits since before due?
  | subscribes k' _ _ _ p' c' _ id r same peer' connection' _ _ vacant _ next =>
    obtain rfl : k' = k := by simpa [same, Action.reads?] using whose
    obtain rfl : p' = p := by simpa [peer] using peer'.symm
    obtain rfl : c' = c := by simpa [connection] using connection'.symm
    rw [reads next (by simp [readBy, Action.reads?])]
    refine .asks _ s.engine.calls id rfl rfl (spared.unheld fun sub holds => ?_)
    exact vacant _ (owned.mpr holds) rfl
  | unsubscribes k' p' c' id sub whose' peer' connection' member _ next =>
    obtain rfl : k' = k := by simpa [whose] using whose'.symm
    obtain rfl : p' = p := by simpa [peer] using peer'.symm
    obtain rfl : c' = c := by simpa [connection] using connection'.symm
    rw [reads next (by simp [readBy, Action.reads?])]
    refine .ends sub id s.engine.calls fun s' holds => ?_
    exact single id s' sub (spared.holds id s' holds) (owned.mp member)

theorem session_reading {f : Effect} (session : a.engine? = none) (conduct : Conduct s a f)
    {pool : List Engine.Action} (grounded : Grounded s.engine pool) (calm : inner todo = [])
    (apart : ∀ k', s.Sits k' c → k' = k) (sits : s.Sits k c)
    (reading : Reading k c s.engine ((a :: todo) :: others)) :
    Reading k c f.server.engine ((f.next ++ todo) :: (f.started ++ others)) := by
  have spared : Spared c (inner others.flatten) s.engine f.server.engine := conduct_spared conduct
  cases mine : readBy k (a :: todo) with
  | false =>
    obtain ⟨other, rest⟩ : a.reads? ≠ some k ∧ readBy k todo = false := by
      simpa [readBy] using mine
    have fresh : ∀ task ∈ f.next :: f.started, readBy k task = false ∧
        ∀ id, (c, id) ∉ aims f.server.engine task := by
      intro task member
      refine ⟨Bool.eq_false_iff.mpr fun reads => other (session_reads conduct member reads),
        fun id aim => ?_⟩
      obtain ⟨k', whose, sits', -⟩ := session_aims conduct member aim
      exact other (apart k' sits' ▸ whose)
    rw [← List.cons_append]
    refine (reading.dropped mine).joined spared fun task member => ?_
    rcases List.mem_cons.mp member with rfl | started
    · obtain ⟨unread, unasked⟩ := fresh _ (List.mem_cons_self ..)
      refine ⟨by rw [readBy_append, unread, rest]; rfl, fun id => ?_⟩
      rw [aims_append, aims, aims, calm, List.filterMap_nil, List.append_nil]
      exact unasked id
    · exact fresh task (List.mem_cons_of_mem _ started)
  | true =>
    obtain ⟨whose, rfl⟩ := (reading.alone mine).2.session session
    have stage := session_stage conduct grounded sits whose reading.single
    rw [List.append_nil]
    refine reading.turned mine spared.aims stage ?_ ?_ fun id s s' one other =>
      reading.single id s s' (spared.holds id s one) (spared.holds id s' other)
    · intro unread id aim
      obtain ⟨k', -, sits', -, mine⟩ := session_aims conduct (List.mem_cons_self ..) aim
      simp [apart k' sits', unread] at mine
    · intro task started
      refine ⟨session_started conduct started, fun id aim => ?_⟩
      obtain ⟨k', -, -, -, mine⟩ := session_aims conduct (List.mem_cons_of_mem _ started) aim
      simp [session_started conduct started] at mine

/-! ## Every reached server -/

structure Seated (s : Server) (ts : List (List Action)) : Prop where
  apart : ∀ k k' c, s.Sits k c → s.Sits k' c → k' = k
  bounded : ∀ k c, s.Sits k c → c < s.engine.connections.length
  aimed : ∀ task ∈ ts, ∀ p ∈ aims s.engine task, p.1 < s.engine.connections.length
  present : ∀ task ∈ ts, ∀ k, readBy k task = true → k < s.peers.length
  reading : ∀ k c, s.Sits k c → Reading k c s.engine ts

theorem start_seated (nobody : first.peers = []) : Seated first [] := by
  have empty (k : PeerId) (c : ConnectionId) : ¬ first.Sits k c := by
    rintro ⟨p, here, -⟩
    simp [nobody] at here
  exact ⟨fun k _ c sits => absurd sits (empty k c), fun k c sits => absurd sits (empty k c),
    by simp, by simp, fun k c sits => absurd sits (empty k c)⟩

theorem Seated.shuffle (seated : Seated s ts) (perm : ts.Perm us) : Seated s us where
  apart := seated.apart
  bounded := seated.bounded
  aimed task member := seated.aimed task (perm.mem_iff.mpr member)
  present task member := seated.present task (perm.mem_iff.mpr member)
  reading k c sits := (seated.reading k c sits).shuffle perm

theorem Seated.idle (seated : Seated s ([] :: ts)) : Seated s ts where
  apart := seated.apart
  bounded := seated.bounded
  aimed task member := seated.aimed task (List.mem_cons_of_mem _ member)
  present task member := seated.present task (List.mem_cons_of_mem _ member)
  reading k c sits := (seated.reading k c sits).dropped rfl

/-! ### What comes from outside -/

theorem arrival_spared {w : World} {pool : List Engine.Action} (arrival : Arrival s w) :
    Spared c pool s.engine w.state.engine := by
  cases arrival with
  | quiet engine => exact quiet_spared engine
  | joins engine => exact engine ▸ Engine.input_spared s.engine (.connect .webSocket)
  | requests c' r _ _ engine =>
    rw [engine]
    exact Engine.spared_trans (Engine.input_spared s.engine (.connect .eventStream))
      (Engine.input_spared _ (.call (.subscribe c' EventStream.clientId r)))
  | calls call _ engine => exact engine ▸ Engine.input_spared s.engine (.call call)

theorem openConnection_length (e : Engine) (t : Transport) :
    (e.openConnection t).2.connections.length = e.connections.length + 1 := by
  simp [Engine.openConnection, Engine.count]

theorem arrival_aims {w : World} (arrival : Arrival s w) (member : task ∈ w.tasks)
    (aim : (c, id) ∈ aims w.state.engine task) :
    c = s.engine.connections.length ∧ c < w.state.engine.connections.length := by
  cases arrival with
  | quiet _ tasks =>
    rw [aims_aside (tasks task member)] at aim
    exact absurd aim List.not_mem_nil
  | joins _ since before due? tasks =>
    have either : task = [.pick s.peers.length] ∨
        task = [.read s.peers.length since before due?] := by simpa [tasks] using member
    rcases either with rfl | rfl <;> exact absurd aim List.not_mem_nil
  | requests c' r x fresh engine tasks =>
    obtain rfl : task = _ := by simpa [tasks] using member
    obtain ⟨rfl, -⟩ : c = c' ∧ id = EventStream.clientId := by
      simpa [aims, inner, Action.engine?, Engine.Action.aim?] using aim
    have made := openConnection_length s.engine .eventStream
    have same : w.state.engine.connections =
        (s.engine.openConnection .eventStream).2.connections := by rw [engine]; rfl
    exact ⟨fresh, by rw [same, made, fresh]; exact Nat.lt_succ_self _⟩
  | calls call ending _ tasks =>
    obtain rfl : task = _ := by simpa [tasks] using member
    rw [aims_calm (ending_calm ending _)] at aim
    exact absurd aim List.not_mem_nil

theorem company_sits {w : World} (company : Company s w) (sits : w.state.Sits k c) :
    s.Sits k c ∨ k = s.peers.length ∧ c = s.engine.connections.length ∧
      c < w.state.engine.connections.length ∧ ∃ since before due?, w.tasks =
        [[.pick s.peers.length], [.read s.peers.length since before due?]] := by
  have older {p : Peer} (peers : w.state.peers = s.peers ++ [p]) :
      s.Sits k c ∨ k = s.peers.length ∧ p.connection? = some c := by
    obtain ⟨q, here, connection⟩ := sits
    rw [peers] at here
    rcases Nat.lt_or_ge k s.peers.length with old | new
    · rw [List.getElem?_append_left old] at here
      exact .inl ⟨q, here, connection⟩
    · have bound : k < s.peers.length + 1 := by
        simpa using (List.getElem?_eq_some_iff.mp here).1
      obtain rfl := Nat.le_antisymm (Nat.le_of_lt_succ bound) new
      obtain rfl : p = q := by simpa using here
      exact .inr ⟨rfl, connection⟩
  cases company with
  | same follows => exact .inl ((follows k).sits.mp sits)
  | more p peers _ blocked =>
    exact (older peers).imp_right fun new => by simp [blocked] at new
  | joined p peers _ connection engine since before due? tasks =>
    refine (older peers).imp_right fun new => ?_
    obtain rfl : s.engine.connections.length = c := by simpa [connection] using new.2
    have made := openConnection_length s.engine .webSocket
    exact ⟨new.1, rfl, by rw [engine, made]; exact Nat.lt_succ_self _, since, before, due?, tasks⟩

theorem company_count {w : World} (company : Company s w) :
    s.peers.length ≤ w.state.peers.length ∧
      ∀ task ∈ w.tasks, ∀ k, readBy k task = true →
        k = s.peers.length ∧ k < w.state.peers.length := by
  have quiet (unread : ∀ a ∈ w.tasks.flatten, a.reads? = none) (task : List Action)
      (member : task ∈ w.tasks) (k : PeerId) : readBy k task = false :=
    List.any_eq_false.mpr fun a inside => by
      simp [unread a (List.mem_flatten.mpr ⟨task, member, inside⟩)]
  cases company with
  | same follows unread =>
    exact ⟨Nat.le_of_eq (follows 0).count.symm, fun task member k reads => by
      simp [quiet unread task member k] at reads⟩
  | more p peers _ _ unread =>
    exact ⟨by simp [peers], fun task member k reads => by
      simp [quiet unread task member k] at reads⟩
  | joined p peers _ _ _ since before due? tasks =>
    refine ⟨by simp [peers], fun task member k reads => ?_⟩
    have either : task = [.pick s.peers.length] ∨
        task = [.read s.peers.length since before due?] := by simpa [tasks] using member
    rcases either with rfl | rfl
    · simp [readBy, Action.reads?] at reads
    · obtain rfl : s.peers.length = k := by simpa [readBy, Action.reads?] using reads
      exact ⟨rfl, by simp [peers]⟩

theorem Sits.bound (sits : s.Sits k c) : k < s.peers.length := by
  obtain ⟨p, here, -⟩ := sits
  exact (List.getElem?_eq_some_iff.mp here).1

theorem joined_reading {w : World} (spared : Spared c (inner ts.flatten) s.engine w.state.engine)
    (grounded : Grounded s.engine (inner ts.flatten)) (seated : Seated s ts)
    (fresh : c = s.engine.connections.length) {since : Nat} {before : Bool} {due? : Option Nat}
    (tasks : w.tasks = [[.pick s.peers.length], [.read s.peers.length since before due?]]) :
    Reading s.peers.length c w.state.engine (w.tasks ++ ts) where
  stage := by
    have none : readers s.peers.length ts = [] :=
      List.filter_eq_nil_iff.mpr fun task member reads =>
        Nat.lt_irrefl _ (seated.present task member _ reads)
    have one : readers s.peers.length (w.tasks ++ ts) =
        [[.read s.peers.length since before due?]] := by
      rw [readers, List.filter_append]
      refine (congrArg (_ ++ ·) none).trans ?_
      simp [tasks, readBy, Action.reads?]
    exact one ▸ .waits since before due?
  elsewhere task member other id aim := by
    rcases List.mem_append.mp member with new | old
    · have either : task = [.pick s.peers.length] ∨
          task = [.read s.peers.length since before due?] := by simpa [tasks] using new
      rcases either with rfl | rfl <;> exact absurd aim List.not_mem_nil
    · rw [aims_same fun b within => spared.aims b (mem_inner_flatten old within)] at aim
      exact Nat.lt_irrefl _ (fresh ▸ seated.aimed task old _ aim)
  single id s' _ one _ := by
    have unheld : Unheld s.engine c id := Engine.fresh_unheld grounded (Nat.le_of_eq fresh.symm)
    exact absurd (spared.holds id s' one) (unheld s')

theorem outside_seated {w : World} (arrival : Arrival s w) (company : Company s w)
    (grounded : Grounded s.engine (inner ts.flatten)) (seated : Seated s ts) :
    Seated w.state (w.tasks ++ ts) := by
  have spared (c : ConnectionId) : Spared c (inner ts.flatten) s.engine w.state.engine :=
    arrival_spared arrival
  obtain ⟨more, reads⟩ := company_count company
  refine ⟨fun k k' c one other => ?_, fun k c sits => ?_, fun task member p aim => ?_,
    fun task member k mine => ?_, fun k c sits => ?_⟩
  · rcases company_sits company one with old | ⟨here, fresh, -⟩ <;>
    rcases company_sits company other with old' | ⟨here', fresh', -⟩
    · exact seated.apart k k' c old old'
    · exact absurd (seated.bounded k c old) (Nat.not_lt.mpr (Nat.le_of_eq fresh'.symm))
    · exact absurd (seated.bounded k' c old') (Nat.not_lt.mpr (Nat.le_of_eq fresh.symm))
    · exact here'.trans here.symm
  · rcases company_sits company sits with old | ⟨-, -, bound, -⟩
    · exact Nat.lt_of_lt_of_le (seated.bounded k c old) (spared c).made
    · exact bound
  · rcases List.mem_append.mp member with new | old
    · exact (arrival_aims arrival new aim).2
    · rw [aims_same fun b within => (spared p.1).aims b (mem_inner_flatten old within)] at aim
      exact Nat.lt_of_lt_of_le (seated.aimed task old p aim) (spared p.1).made
  · rcases List.mem_append.mp member with new | old
    · exact (reads task new k mine).2
    · exact Nat.lt_of_lt_of_le (seated.present task old k mine) more
  · rcases company_sits company sits with old | ⟨rfl, fresh, -, since, before, due?, tasks⟩
    · refine (seated.reading k c old).joined (spared c) fun task member => ⟨?_, fun id aim => ?_⟩
      · refine Bool.eq_false_iff.mpr fun mine => ?_
        exact absurd old.bound (Nat.not_lt.mpr (Nat.le_of_eq (reads task member k mine).1.symm))
      · exact absurd (seated.bounded k c old)
          (Nat.not_lt.mpr (Nat.le_of_eq (arrival_aims arrival member aim).1.symm))
    · exact joined_reading (spared c) grounded seated fresh tasks

/-! ### What is done -/

theorem Seated.turned {turn : List Action} {started : List (List Action)}
    (seated : Seated s (task :: others))
    (sits : ∀ k c, s'.Sits k c ↔ s.Sits k c) (count : s'.peers.length = s.peers.length)
    (made : s.engine.connections.length ≤ s'.engine.connections.length)
    (same : ∀ b ∈ inner others.flatten, b.aim? s'.engine = b.aim? s.engine)
    (aimed : ∀ u ∈ turn :: started, ∀ p ∈ aims s'.engine u, p.1 < s.engine.connections.length)
    (present : ∀ u ∈ turn :: started, ∀ k, readBy k u = true → k < s.peers.length)
    (reading : ∀ k c, s.Sits k c → Reading k c s'.engine (turn :: (started ++ others))) :
    Seated s' (turn :: (started ++ others)) where
  apart k k' c one other := seated.apart k k' c ((sits k c).mp one) ((sits k' c).mp other)
  bounded k c sits' := Nat.lt_of_lt_of_le (seated.bounded k c ((sits k c).mp sits')) made
  aimed u member p aim := by
    rw [← List.cons_append] at member
    refine Nat.lt_of_lt_of_le ?_ made
    rcases List.mem_append.mp member with new | old
    · exact aimed u new p aim
    · rw [aims_same fun b within => same b (mem_inner_flatten old within)] at aim
      exact seated.aimed u (List.mem_cons_of_mem _ old) p aim
  present u member k mine := by
    rw [← List.cons_append] at member
    rw [count]
    rcases List.mem_append.mp member with new | old
    · exact present u new k mine
    · exact seated.present u (List.mem_cons_of_mem _ old) k mine
  reading k c sits' := reading k c ((sits k c).mp sits')

theorem session_seated (session : a.engine? = none) (fronted : Fronted (a :: todo))
    (grounded : Grounded s.engine (inner ((a :: todo) :: others).flatten))
    (seated : Seated s ((a :: todo) :: others)) :
    Seated (s.perform a).server
      (((s.perform a).next ++ todo) :: ((s.perform a).started ++ others)) := by
  have conduct := perform_conduct s a session
  have calm := fronted_after session fronted
  have spared (c : ConnectionId) : Spared c (inner others.flatten) s.engine
      (s.perform a).server.engine := conduct_spared conduct
  have mine {k : PeerId} (whose : a.reads? = some k) : k < s.peers.length :=
    seated.present _ (List.mem_cons_self ..) k (by simp [readBy, whose])
  refine seated.turned (fun k c => perform_sits s a) (perform_attends s 0 a).count
    (spared 0).made (spared 0).aims (fun u member p aim => ?_) (fun u member k reads => ?_)
    fun k c sits => session_reading session conduct grounded calm
      (fun k' sits' => seated.apart k k' c sits sits') sits (seated.reading k c sits)
  · have asked {u : List Action} (member : u ∈ (s.perform a).next :: (s.perform a).started)
        (aim : p ∈ aims (s.perform a).server.engine u) : p.1 < s.engine.connections.length := by
      obtain ⟨k, -, sits, -⟩ := session_aims conduct member aim
      exact seated.bounded k p.1 sits
    rcases List.mem_cons.mp member with rfl | started
    · rw [aims_append, aims, aims, calm, List.filterMap_nil, List.append_nil] at aim
      exact asked (List.mem_cons_self ..) aim
    · exact asked (List.mem_cons_of_mem _ started) aim
  · rcases List.mem_cons.mp member with rfl | started
    · rw [readBy_append, Bool.or_eq_true] at reads
      rcases reads with next | rest
      · exact mine (session_reads conduct (List.mem_cons_self ..) next)
      · exact seated.present _ (List.mem_cons_self ..) k (readBy_tail rest)
    · exact mine (session_reads conduct (List.mem_cons_of_mem _ started) reads)

theorem engine_seated {b : Engine.Action} (ready : s.engine.ready b = true)
    (grounded : Grounded s.engine (b :: (inner todo ++ inner others.flatten)))
    (seated : Seated s ((.engine b :: todo) :: others)) :
    Seated (s.perform (.engine b)).server
      (((s.perform (.engine b)).next ++ todo) ::
        ((s.perform (.engine b)).started ++ others)) := by
  have made := (Engine.perform_setup s.engine b).2
  have old {p : ConnectionId × String} (aim : b.aim? s.engine = some p) :
      p.1 < s.engine.connections.length :=
    seated.aimed _ (List.mem_cons_self ..) p (by simp [aims, inner, Action.engine?, aim])
  refine seated.turned (fun k c => perform_sits s (.engine b)) rfl (Nat.le_of_eq made.symm)
    (fun b member => Engine.perform_aims grounded b (List.mem_append_right _ member))
    (fun u member p aim => ?_) (fun u member k reads => ?_)
    fun k c sits => engine_reading ready grounded (seated.reading k c sits)
  · rcases List.mem_cons.mp member with rfl | started
    · rw [aims_append] at aim
      rcases List.mem_append.mp aim with next | rest
      · exact old (brought_aims grounded mem_next next)
      · have same : aims (s.perform (.engine b)).server.engine todo = aims s.engine todo :=
          aims_same fun b member => Engine.perform_aims grounded b (List.mem_append_left _ member)
        rw [same] at rest
        refine seated.aimed _ (List.mem_cons_self ..) p ?_
        rw [← List.singleton_append, aims_append]
        exact List.mem_append_right _ rest
    · obtain ⟨es, new, rfl⟩ := List.mem_map.mp started
      exact old (brought_aims grounded (mem_started new) aim)
  · rcases List.mem_cons.mp member with rfl | started
    · refine seated.present _ (List.mem_cons_self ..) k (readBy_tail ?_)
      have next : readBy k ((s.engine.perform b).next.map Action.engine) = false :=
        readBy_engine _
      rw [readBy_append] at reads
      exact (Bool.or_eq_true _ _ ▸ reads).resolve_left (by simp [perform, ofEngine, next])
    · obtain ⟨es, -, rfl⟩ := List.mem_map.mp started
      simp [readBy_engine] at reads

theorem inside_seated (ready : s.ready a = true) (fronted : Fronted (a :: todo))
    (grounded : Grounded s.engine (inner ((a :: todo) :: others).flatten))
    (seated : Seated s ((a :: todo) :: others)) :
    Seated (s.perform a).server
      (((s.perform a).next ++ todo) :: ((s.perform a).started ++ others)) := by
  cases session : a.engine? with
  | none => exact session_seated session fronted grounded seated
  | some b =>
    obtain rfl := eq_engine session
    exact engine_seated ready (inner_pending b todo others ▸ grounded) seated

theorem reached_grounded (begun : first.engine = Engine.start setup hub)
    (reached : Reached (World.start first) s ts log) : Grounded s.engine (inner ts.flatten) :=
  mirrored_pending (P := fun e pool _ => Grounded e pool) Engine.grounded_shuffle
    (by simp [World.start])
    (start_mirrored begun) (Engine.start_grounded setup hub) reached

theorem reached_seated (begun : first.engine = Engine.start setup hub) (nobody : first.peers = [])
    (reached : Reached (World.start first) s ts log) : Seated s ts := by
  induction reached with
  | start => exact start_seated nobody
  | shuffle perm _ ih => exact ih.shuffle perm
  | idle _ ih => exact ih.idle
  | outside i before ih =>
    exact outside_seated (input_arrival _ i) (input_company _ i) (reached_grounded begun before) ih
  | inside ready before ih =>
    have fronted := reached_fronted (by simp [World.start]) before _ (List.mem_cons_self ..)
    exact inside_seated ready fronted (reached_grounded begun before) ih

end Server

end SubscriptionGateway
