import SubscriptionGateway.Proofs.Server.Greeting

/-!
What goes out on a client's socket. The client has one writer, which does one thing after the other:
it takes a message, writes it and waits until it is sent. So what has been written are the messages
that have been taken, in their order, until writing fails, and when it has written a close it writes
nothing more, nor does anybody else.
-/
namespace SubscriptionGateway

open Broker

namespace Server

open WebSocket

variable {s s' : Server} {k : PeerId} {c : ConnectionId} {a : Action} {p p' : Peer}
  {task todo : List Action} {ts us others : List (List Action)} {log : Steps} {setup : Setup}
  {hub : Hub} {first : Server} {ws : List Item} {i : Item}

/-! ## What is taken and written -/

def picks (s : Server) (k : PeerId) (a : Action) : List ServerMessage :=
  s.sends k a ++ (s.passes k a).map .ofFrame

def picked (k : PeerId) (log : Steps) : List ServerMessage := log.flatMap fun q => q.1.picks k q.2

def written (k : PeerId) (log : Steps) : List Item := log.flatMap fun q => q.1.writes k q.2

theorem picked_more (k : PeerId) (log : Steps) (s : Server) (a : Action) :
    picked k (log ++ [(s, a)]) = picked k log ++ s.picks k a := by
  simp [picked]

theorem written_more (k : PeerId) (log : Steps) (s : Server) (a : Action) :
    written k (log ++ [(s, a)]) = written k log ++ s.writes k a := by
  simp [written]

def Item.isWorded : Item → Bool
  | .text _ | .close (some _) => true
  | _ => false

theorem farewell_unworded (p : Peer) : p.farewell.filter (·.isWorded) = [] := by
  simp only [Peer.farewell]
  split <;> rfl

theorem lastly_unworded (p : Peer) : p.lastly.filter (·.isWorded) = [] := by
  simp only [Peer.lastly]
  split
  · exact farewell_unworded p
  · rfl

theorem itemOf_form {q : Protocol} {m : ServerMessage} (item : itemOf? q m = some i) :
    (∃ text, q.encode? m = some text ∧ i = .text text) ∨
      ∃ code reason, m = .close code reason ∧ i = .close (some (code, reason)) := by
  simp only [itemOf?] at item
  split at item
  · rename_i code reason
    exact .inr ⟨code, reason, rfl, (Option.some.inj item).symm⟩
  · obtain ⟨text, encoded, rfl⟩ := Option.map_eq_some_iff.mp item
    exact .inl ⟨text, encoded, rfl⟩

theorem itemOf_worded {q : Protocol} {m : ServerMessage} (item : itemOf? q m = some i) :
    i.isWorded = true := by
  rcases itemOf_form item with ⟨text, -, rfl⟩ | ⟨code, reason, -, rfl⟩ <;> rfl

/-! ## Writers -/

/-- Whose writer does it. A client of a server that is blocked has one task for everything. -/
def Action.writer? : Action → Option PeerId
  | .pick k | .write k _ | .writeClose k | .flush k _ _ => some k
  | .readBlocked k | .writeBlocked k _ | .writeCloseBlocked k | .flushBlocked k | .endBlocked k =>
    some k
  | _ => none

def writtenBy (k : PeerId) (task : List Action) : Bool := task.any fun a => a.writer? == some k

def writers (k : PeerId) (ts : List (List Action)) : List (List Action) := ts.filter (writtenBy k)

theorem writtenBy_append (q r : List Action) :
    writtenBy k (q ++ r) = (writtenBy k q || writtenBy k r) :=
  List.any_append

theorem writtenBy_tail (later : writtenBy k todo = true) : writtenBy k (a :: todo) = true := by
  rw [writtenBy, List.any_cons]
  exact Bool.or_eq_true _ _ ▸ .inr later

theorem writtenBy_engine (es : List Engine.Action) :
    writtenBy k (es.map Action.engine) = false := by
  simp [writtenBy, Action.writer?]

theorem writtenBy_false : writtenBy k task = false ↔ ∀ a ∈ task, a.writer? ≠ some k := by
  simp [writtenBy]

theorem readOn_unwritten (s : Server) (k' : PeerId) : writtenBy k (s.readOn k').next = false := by
  simp only [readOn]
  split <;> simp [writtenBy, Action.writer?]

theorem hangUp_unwritten (s : Server) (k' : PeerId) : writtenBy k (s.hangUp k').next = false := by
  simp only [hangUp]
  split
  · rfl
  split
  · simp [writtenBy, Action.writer?]
  · simp [ask, Engine.World.release, writtenBy, Action.writer?]

theorem react_unwritten (s : Server) (k' : PeerId) (c : ConnectionId) (r : Reaction) :
    writtenBy k (s.react k' c r).next = false := by
  cases r with
  | reply | acknowledge => exact readOn_unwritten _ k'
  | close | leave => exact hangUp_unwritten _ k'
  | subscribe | unsubscribe =>
    simp [react, ask, Engine.World.subscribe, Engine.World.unsubscribe, writtenBy, Action.writer?]

theorem readNext_unwritten (s : Server) (k' : PeerId) (since : Nat) (before : Bool) :
    writtenBy k (s.readNext k' since before).next = false := by
  simp only [readNext]
  split
  · rfl
  split
  · rename_i i _ _
    cases i with
    | text t => exact react_unwritten _ k' _ _
    | ping payload =>
      simp only [onItem]
      split
      · exact hangUp_unwritten _ k'
      · exact readOn_unwritten _ k'
    | pong payload =>
      simp only [onItem]
      split
      · exact hangUp_unwritten _ k'
      · exact readOn_unwritten _ k'
    | binary | close | lost => exact hangUp_unwritten _ k'
  · exact readOn_unwritten s k'
  · exact hangUp_unwritten s k'
  · exact hangUp_unwritten _ k'

theorem streamNext_unwritten (s : Server) (x : StreamId) :
    writtenBy k (s.streamNext x).next = false := by
  have ended (y : Streaming) : writtenBy k (s.endStream x y).next = false := by
    simp only [endStream]
    split <;> rfl
  have goes (t : Nat) : writtenBy k [.stream x t] = false := by simp [writtenBy, Action.writer?]
  simp only [streamNext]
  split
  · rfl
  split
  · exact ended _
  split
  · exact goes _
  split
  · exact ended _
  split
  · exact ended _
  split
  · exact goes _
  · split
    · exact ended _
    · exact goes _

theorem answerStream_unwritten (s : Server) (x : StreamId) (call : CallId) :
    writtenBy k (s.answerStream x call).next = false := by
  simp only [answerStream]
  split
  · split <;> simp [ask, Engine.World.release, writtenBy, Action.writer?]
  · simp [writtenBy, Action.writer?]

theorem perform_writer (s : Server) (whose : a.writer? = some k) :
    (∀ b ∈ (s.perform a).next, b.writer? = some k) ∧ (s.perform a).started = [] := by
  have sends (s : Server) (p : Peer) (m : ServerMessage) :
      (∀ b ∈ (s.sendMessage k p m).next, b.writer? = some k) ∧
        (s.sendMessage k p m).started = [] := by
    simp only [sendMessage]
    split <;> simp [Action.writer?]
  cases a with
  | pick k' =>
    obtain rfl : k' = k := by simpa [Action.writer?] using whose
    simp only [perform, pickNext]
    split
    · simp
    split
    · simp
    split
    · exact sends _ _ _
    split
    · simp
    split
    · exact sends _ _ _
    · simp [Action.writer?]
  | write k' i =>
    obtain rfl : k' = k := by simpa [Action.writer?] using whose
    simp only [perform, writeItem]
    split
    · simp
    split
    · simp
    split
    · split <;> simp [Action.writer?]
    · simp [Action.writer?]
  | writeClose k' =>
    obtain rfl : k' = k := by simpa [Action.writer?] using whose
    simp [perform, Action.writer?]
  | flush k' isLast due =>
    obtain rfl : k' = k := by simpa [Action.writer?] using whose
    simp only [perform, flush]
    split
    · simp
    split
    · simp
    split
    · split <;> simp [Action.writer?]
    split
    · split <;> simp [Action.writer?]
    · split <;> simp
  | readBlocked k' =>
    obtain rfl : k' = k := by simpa [Action.writer?] using whose
    simp only [perform, readBlocked, hangUpBlocked]
    split
    · simp
    split
    · simp [Action.writer?]
    · split
      · simp [Action.writer?]
      · refine ⟨fun b member => ?_, rfl⟩
        rcases List.mem_append.mp member with reply | last
        · obtain ⟨i, -, here⟩ := List.mem_flatMap.mp reply
          have either : b = .writeBlocked k' i ∨ b = .flushBlocked k' := by simpa using here
          rcases either with rfl | rfl <;> rfl
        · rw [List.mem_singleton.mp last]
          rfl
    · split <;> simp [Action.writer?]
    · split <;> simp [Action.writer?]
    · simp [Action.writer?]
    · simp [Action.writer?]
    · simp [Action.writer?]
  | writeBlocked | writeCloseBlocked | flushBlocked | endBlocked => simp [perform]
  | _ => simp [Action.writer?] at whose

theorem perform_unwritten (s : Server) (other : a.writer? ≠ some k) :
    writtenBy k (s.perform a).next = false := by
  cases whose : a.writer? with
  | some k' =>
    refine writtenBy_false.mpr fun b member => ?_
    rw [(perform_writer s whose).1 b member, ← whose]
    exact other
  | none =>
    cases a with
    | engine b => exact writtenBy_engine _
    | read k' since before due? => exact readNext_unwritten s k' since before
    | subscribed k' id call =>
      simp only [perform]
      split <;> exact readOn_unwritten _ k'
    | unsubscribed k' id =>
      simp only [perform]
      split
      · exact readOn_unwritten _ k'
      · rfl
    | waitForWriter k' => simp [perform, writtenBy, Action.writer?]
    | endSocket k' due => rfl
    | answerStream x call => exact answerStream_unwritten s x call
    | refuseStream x payload => simp [perform, refuseStream, writtenBy, Action.writer?]
    | stream x due => exact streamNext_unwritten s x
    | _ => simp [Action.writer?] at whose

theorem started_unwritten (s : Server) (a : Action) :
    ∀ u ∈ (s.perform a).started, writtenBy k u = false := by
  intro u member
  cases session : a.engine? with
  | some b =>
    obtain rfl := eq_engine session
    obtain ⟨es, -, rfl⟩ := List.mem_map.mp member
    exact writtenBy_engine es
  | none =>
    cases perform_conduct s a session with
    | sends c _ _ started =>
      obtain rfl : u = ((Engine.Call.release c).task s.engine.calls).map Action.engine := by
        simpa [started] using member
      exact writtenBy_engine _
    | _ => simp_all

/-! ## How far a writer is -/

/-- What the writer of a client does, and what it holds in its hands. After a close it only waits
until this is sent, unless the client has closed, so that nothing can be written. -/
inductive Pen (k : PeerId) (p : Peer) : List (List Action) → List Item → Prop where
  | through : Pen k p [] []
  | picks (fresh : p.hasClosed = true → p.closing = true) : Pen k p [[.pick k]] []
  | writes (i : Item) (worded : i.isWorded = true) (fresh : p.hasClosed = true → p.closing = true) :
    Pen k p [[.write k i]] [i]
  | parts : Pen k p [[.writeClose k]] []
  | flushes (due : Nat) (fresh : p.hasClosed = true → p.closing = true) :
    Pen k p [[.flush k false due]] []
  | rests (due : Nat) : Pen k p [[.flush k true due]] []

variable {ahead : List Item}

theorem Pen.few (pen : Pen k p us ahead) : us.length ≤ 1 := by cases pen <;> simp

theorem Pen.onward {g : Bool} (pen : Pen k p us ahead) (touched : p.Touched g ws p')
    (unclosed : ws.any Item.isClose = false) : Pen k p' us ahead := by
  have fresh (was : p.hasClosed = true → p.closing = true) (closed : p'.hasClosed = true) :
      p'.closing = true := by
    rw [touched.closed, unclosed, Bool.or_false] at closed
    exact touched.closing (was closed)
  cases pen with
  | through => exact .through
  | picks was => exact .picks (fresh was)
  | writes i worded was => exact .writes i worded (fresh was)
  | parts => exact .parts
  | flushes due was => exact .flushes due (fresh was)
  | rests due => exact .rests due

theorem writers_perm (perm : ts.Perm us) (few : (writers k ts).length ≤ 1) :
    writers k us = writers k ts := perm_few (perm.filter _) few

theorem Pen.alone (pen : Pen k p (writers k ((a :: todo) :: others)) ahead)
    (whose : a.writer? = some k) :
    todo = [] ∧ writers k others = [] ∧ Pen k p [[a]] ahead := by
  have mine : writtenBy k (a :: todo) = true := by simp [writtenBy, whose]
  have same : writers k ((a :: todo) :: others) = (a :: todo) :: writers k others :=
    List.filter_cons_of_pos mine
  rw [same] at pen
  have none : writers k others = [] := by simpa using pen.few
  rw [none] at pen
  have single : todo = [] := by
    generalize form : [a :: todo] = us at pen
    cases pen <;> simp_all
  subst single
  exact ⟨rfl, none, pen⟩

theorem writers_turned (whose : a.writer? = some k) (none : writers k others = []) :
    writers k (((s.perform a).next ++ []) :: ((s.perform a).started ++ others)) =
      writers k [(s.perform a).next] := by
  rw [(perform_writer s whose).2, List.append_nil, List.nil_append, ← List.singleton_append]
  exact (List.filter_append ..).trans ((congrArg _ none).trans (List.append_nil _))

theorem Pen.apart (pen : Pen k p (writers k ((a :: todo) :: others)) ahead)
    (other : a.writer? ≠ some k) :
    writers k (((s.perform a).next ++ todo) :: ((s.perform a).started ++ others)) =
      writers k ((a :: todo) :: others) := by
  have rest : writtenBy k todo = false := by
    refine Bool.eq_false_iff.mpr fun mine => ?_
    have same : writers k ((a :: todo) :: others) = (a :: todo) :: writers k others :=
      List.filter_cons_of_pos (writtenBy_tail mine)
    rw [same] at pen
    generalize form : (a :: todo) :: writers k others = us at pen
    cases pen <;> simp_all [Action.writer?]
  have before : writtenBy k (a :: todo) = false := by
    rw [writtenBy, List.any_cons, Bool.or_eq_false_iff]
    exact ⟨by simpa using other, rest⟩
  have next : writtenBy k ((s.perform a).next ++ todo) = false := by
    rw [writtenBy_append, perform_unwritten s other, rest]
    rfl
  have started : writers k (s.perform a).started = [] :=
    List.filter_eq_nil_iff.mpr fun u member => by simp [started_unwritten s a u member]
  simp only [writers] at started ⊢
  rw [List.filter_cons_of_neg (by simp [next]), List.filter_cons_of_neg (by simp [before]),
    List.filter_append, started, List.nil_append]

/-! ### The writer's own turn -/

theorem writers_next {b : Action} (whose : b.writer? = some k) : writers k [[b]] = [[b]] := by
  simp [writers, writtenBy, whose]

theorem sendMessage_pen (m : ServerMessage) (fresh : p.hasClosed = true → p.closing = true) :
    Pen k p (writers k [(s.sendMessage k p m).next]) ([m].filterMap (itemOf? p.protocol)) := by
  simp only [sendMessage]
  cases item : itemOf? p.protocol m with
  | some i =>
    rw [writers_next rfl, List.filterMap_cons_some item]
    exact .writes i (itemOf_worded item) fresh
  | none =>
    rw [writers_next rfl, List.filterMap_cons_none item]
    exact .picks fresh

theorem parts_pen : Pen k p (writers k [[.writeClose k]]) [] := by
  rw [writers_next rfl]
  exact .parts

theorem pick_pen (here : s.peers[k]? = some p) (connection : p.connection? = some c)
    (fresh : p.hasClosed = true → p.closing = true) :
    Pen k p (writers k [(s.pickNext k).next])
      ((s.picks k (.pick k)).filterMap (itemOf? p.protocol)) := by
  simp only [pickNext, picks, sends, passes, here, connection, ↓reduceIte]
  cases p.ended with
  | true => exact .through
  | false =>
    simp only [Bool.false_eq_true, ↓reduceIte]
    cases p.control with
    | cons m rest => exact sendMessage_pen m fresh
    | nil =>
      simp only [Engine.takeFrames]
      cases s.engine.connections[c]? with
      | none => exact parts_pen
      | some x =>
        cases queue : x.queue with
        | nil =>
          simp only [queue, List.take_nil]
          exact parts_pen
        | cons f rest =>
          simp only [queue, List.take_succ_cons, List.take_zero]
          exact sendMessage_pen (.ofFrame f) fresh

theorem own_unworded {k' : PeerId} {f : Peer → List Item}
    (unworded : ∀ p, (f p).filter (·.isWorded) = []) : (s.own k k' f).filter (·.isWorded) = [] :=
  own_holds (P := fun ws => ws.filter (·.isWorded) = []) rfl unworded

theorem flush_unworded (s : Server) (k k' : PeerId) (isLast : Bool) (due : Nat) :
    (s.writes k (.flush k' isLast due)).filter (·.isWorded) = [] :=
  own_unworded fun p => by
    split
    · rfl
    · exact lastly_unworded p

theorem writeClose_unworded (s : Server) (k k' : PeerId) :
    (s.writes k (.writeClose k')).filter (·.isWorded) = [] :=
  own_unworded fun p => by
    split
    · rfl
    · exact farewell_unworded p

theorem flush_pen {isLast : Bool} {due : Nat} (here : s.peers[k]? = some p)
    (fresh : isLast = false → p.hasClosed = true → p.closing = true)
    {g : Bool} (touched : p.Touched g (s.writes k (.flush k isLast due)) p') :
    Pen k p' (writers k [(s.flush k isLast).next]) [] := by
  -- Only a client that closes is told so before everything has been sent.
  have still (goes : isLast = false) (closed : p'.hasClosed = true) : p'.closing = true := by
    by_cases closing : p.closing = true
    · exact touched.closing closing
    · have quiet : s.writes k (.flush k isLast due) = [] := by
        simp [writes, own, here, Peer.lastly, closing]
      rw [touched.closed, quiet, List.any_nil, Bool.or_false] at closed
      exact absurd (fresh goes closed) closing
  simp only [flush, here]
  split
  · exact .through
  split
  · split
    · exact .through
    · exact parts_pen
  split
  · split
    · exact .through
    · rename_i goes
      rw [writers_next rfl]
      exact .picks (still (by simpa using goes))
  split <;> exact .through

/-- What the writer of a client has in its hands it writes, unless nothing can be written. -/
theorem Pen.turned (pen : Pen k p [[a]] ahead) (here : s.peers[k]? = some p)
    (connection : p.connection? = some c) {g : Bool} (touched : p.Touched g (s.writes k a) p') :
    ∃ ahead', Pen k p' (writers k [(s.perform a).next]) ahead' ∧
      ((∀ i, a = .write k i → p.stuck = false) →
        ahead ++ (s.picks k a).filterMap (itemOf? p.protocol) =
          (s.writes k a).filter (·.isWorded) ++ ahead') ∧
      (p.stuck = true → (s.writes k a).filter (·.isWorded) = []) := by
  generalize form : [[a]] = us at pen
  cases pen with
  | through => simp at form
  | picks fresh =>
    obtain rfl : a = .pick k := by simpa using form
    exact ⟨_, (pick_pen here connection fresh).onward touched rfl, fun _ => rfl, fun _ => rfl⟩
  | writes i worded fresh =>
    obtain rfl : a = .write k i := by simpa using form
    have laid : s.writes k (.write k i) = if p.stuck then [] else [i] := by
      simp [Server.writes, own, here, Peer.stuck, Bool.or_comm]
    rw [laid] at touched ⊢
    cases stuck : p.stuck with
    | true =>
      refine ⟨[], ?_, fun free => absurd (free i rfl) (by simp), fun _ => rfl⟩
      simp only [perform, writeItem, here]
      split
      · exact .through
      split
      · split
        · exact .through
        · exact parts_pen
      · simp_all [Peer.stuck]
    | false =>
      obtain ⟨open', going⟩ : p.broken = false ∧ p.ended = false := by
        simpa [Peer.stuck] using stuck
      refine ⟨[], ?_, fun _ => by simp [Server.picks, sends, passes, worded], by simp⟩
      simp only [perform, writeItem, here, open', going, Bool.false_eq_true, ↓reduceIte]
      rw [writers_next rfl]
      simp only [stuck, Bool.false_eq_true, ↓reduceIte] at touched
      cases closes : i.isClose with
      | true => exact .rests _
      | false => exact (Pen.flushes _ fresh).onward touched (by simp [closes])
  | parts =>
    obtain rfl : a = .writeClose k := by simpa using form
    have rests : Pen k p' (writers k [[.flush k true (s.now + s.grace)]]) [] := by
      rw [writers_next rfl]
      exact .rests _
    have unworded := writeClose_unworded s k k
    exact ⟨[], rests, fun _ => by rw [unworded]; rfl, fun _ => unworded⟩
  | flushes due fresh =>
    obtain rfl : a = .flush k false due := by simpa using form
    have unworded := flush_unworded s k k false due
    exact ⟨[], flush_pen here (fun _ => fresh) touched, fun _ => by rw [unworded]; rfl,
      fun _ => unworded⟩
  | rests due =>
    obtain rfl : a = .flush k true due := by simpa using form
    have unworded := flush_unworded s k k true due
    exact ⟨[], flush_pen here (by simp) touched, fun _ => by rw [unworded]; rfl, fun _ => unworded⟩

/-! ### What is written in all -/

theorem pongs_pong (p : Peer) (i : Incoming) : ∀ j ∈ p.pongs i, ∃ payload, j = .pong payload := by
  cases i with
  | ping payload =>
    simp only [Peer.pongs, Peer.answer]
    split
    · simp
    · split <;> simp
  | _ => simp [Peer.pongs]

theorem others_pong (other : a.writer? ≠ some k) :
    ∀ i ∈ s.writes k a, ∃ payload, i = .pong payload := by
  cases a with
  | read k' since before due? =>
    simp only [writes, own]
    split
    · split
      · split
        · exact pongs_pong _ _
        · simp
      · simp
    · simp
  | write k' | writeClose k' | flush k' | readBlocked k' | writeBlocked k' | writeCloseBlocked k'
  | flushBlocked k' =>
    have differ : k' ≠ k := fun same => other (same ▸ rfl)
    simp [writes, own, differ]
  | _ => simp [writes]

theorem others_unworded (other : a.writer? ≠ some k) : (s.writes k a).filter (·.isWorded) = [] :=
  List.filter_eq_nil_iff.mpr fun i member => by
    obtain ⟨payload, rfl⟩ := others_pong other i member
    simp [Item.isWorded]

theorem others_unclosed (other : a.writer? ≠ some k) : (s.writes k a).any Item.isClose = false :=
  List.any_eq_false.mpr fun i member => by
    obtain ⟨payload, rfl⟩ := others_pong other i member
    simp [Item.isClose]

theorem others_picks (other : a.writer? ≠ some k) : s.picks k a = [] := by
  cases a with
  | pick k' =>
    have differ : k' ≠ k := fun same => other (same ▸ rfl)
    simp [picks, sends, passes, differ]
  | _ => rfl

theorem own_few {k' : PeerId} {f : Peer → List Item} (few : ∀ p, (f p).length ≤ 1) :
    (s.own k k' f).length ≤ 1 :=
  own_holds (P := fun ws => ws.length ≤ 1) (Nat.zero_le 1) few

theorem farewell_few (p : Peer) : p.farewell.length ≤ 1 := by
  simp only [Peer.farewell]
  split <;> simp

theorem lastly_few (p : Peer) : p.lastly.length ≤ 1 := by
  simp only [Peer.lastly]
  split
  · exact farewell_few p
  · simp

theorem pongs_few (p : Peer) (i : Incoming) : (p.pongs i).length ≤ 1 := by
  cases i with
  | ping payload =>
    simp only [Peer.pongs, Peer.answer]
    split
    · simp
    · split <;> simp
  | _ => simp [Peer.pongs]

/-- Nothing is written along with something else. -/
theorem writes_few (s : Server) (k : PeerId) (a : Action) : (s.writes k a).length ≤ 1 := by
  cases a with
  | read k' since before due? =>
    refine own_few fun p => ?_
    split
    · exact pongs_few p _
    · simp
  | write k' i => exact own_few fun p => by split <;> simp
  | writeClose k' | writeCloseBlocked k' =>
    refine own_few fun p => ?_
    split
    · simp
    · exact farewell_few p
  | flush k' isLast due =>
    refine own_few fun p => ?_
    split
    · simp
    · exact lastly_few p
  | readBlocked k' =>
    refine own_few fun p => ?_
    cases p.incoming with
    | nil => simp
    | cons i rest => exact pongs_few p i
  | writeBlocked k' i => exact own_few fun p => by split <;> simp
  | flushBlocked k' =>
    refine own_few fun p => ?_
    split
    · simp
    · exact lastly_few p
  | _ => simp [writes]

theorem closed_silent (here : s.peers[k]? = some p) (closed : p.hasClosed = true)
    (pen : Pen k p (writers k ((a :: todo) :: others)) ahead) : s.writes k a = [] := by
  have farewell : p.farewell = [] := if_pos closed
  have lastly : p.lastly = [] := by simp [Peer.lastly, farewell]
  by_cases own : a.writer? = some k
  · have alone := (pen.alone own).2.2
    generalize form : [[a]] = us at alone
    cases alone with
    | through => simp at form
    | picks =>
      obtain rfl : a = .pick k := by simpa using form
      rfl
    | writes i worded fresh =>
      obtain rfl : a = .write k i := by simpa using form
      have broken : p.broken = true := by simp [Peer.broken, fresh closed]
      simp [writes, Server.own, here, broken]
    | parts =>
      obtain rfl : a = .writeClose k := by simpa using form
      simp [writes, Server.own, here, farewell]
    | flushes due =>
      obtain rfl : a = .flush k false due := by simpa using form
      simp [writes, Server.own, here, lastly]
    | rests due =>
      obtain rfl : a = .flush k true due := by simpa using form
      simp [writes, Server.own, here, lastly]
  · cases a with
    | read k' since before due? =>
      have silent (i : Incoming) : p.pongs i = [] := by
        cases i <;> simp [Peer.pongs, Peer.answer, closed]
      simp only [writes, Server.own, here]
      split
      · split
        · exact silent _
        · rfl
      · rfl
    | write k' | writeClose k' | flush k' | readBlocked k' | writeBlocked k' | writeCloseBlocked k'
    | flushBlocked k' =>
      have differ : k' ≠ k := fun same => own (same ▸ rfl)
      simp [writes, Server.own, differ]
    | _ => rfl

/-! ## Every reached server -/

structure Penned (k : PeerId) (p : Peer) (ts : List (List Action)) (taken : List ServerMessage)
    (laid : List Item) : Prop where
  /-- All that has been taken is written or in its hands, unless nothing can be written. -/
  pen : ∃ ahead, Pen k p (writers k ts) ahead ∧ (p.stuck = false →
    laid.filter (·.isWorded) ++ ahead = taken.filterMap (itemOf? p.protocol))
  order : laid.filter (·.isWorded) <+: taken.filterMap (itemOf? p.protocol)
  closed : p.hasClosed = laid.any Item.isClose
  final : ∀ before i after, laid = before ++ i :: after → i.isClose = true → after = []
  wire : p.wire.items.Sublist ((laid.map Item.asRead).filter (!·.isFinished))

variable {taken : List ServerMessage} {laid : List Item}

theorem Penned.same {g : Bool} (penned : Penned k p ts taken laid) (touched : p.Touched g [] p')
    (writers : writers k us = writers k ts) : Penned k p' us taken laid where
  pen := by
    obtain ⟨ahead, pen, whole⟩ := penned.pen
    refine ⟨ahead, writers ▸ pen.onward touched rfl, fun going => ?_⟩
    rw [touched.protocol]
    exact whole (touched.unstuck going)
  order := by
    rw [touched.protocol]
    exact penned.order
  closed := by rw [touched.closed, List.any_nil, Bool.or_false, penned.closed]
  final := penned.final
  wire := touched.wire.trans (by simpa using penned.wire)

theorem final_more
    (final : ∀ before i after, laid = before ++ i :: after → i.isClose = true → after = [])
    (few : ws.length ≤ 1) (silent : laid.any Item.isClose = true → ws = []) :
    ∀ before i after, laid ++ ws = before ++ i :: after → i.isClose = true → after = [] := by
  intro before i after same closes
  cases ws with
  | nil => exact final before i after (by simpa using same) closes
  | cons w rest =>
    obtain rfl : rest = [] := by simpa using few
    rcases List.eq_nil_or_concat' after with rfl | ⟨rest, last, rfl⟩
    · rfl
    · rw [← List.cons_append, ← List.append_assoc] at same
      obtain ⟨rfl, -⟩ := List.append_inj' same rfl
      have closed : (before ++ i :: rest).any Item.isClose = true :=
        List.any_eq_true.mpr ⟨i, by simp, closes⟩
      exact absurd (silent closed) (List.cons_ne_nil w [])

theorem Penned.inside {g : Bool} (penned : Penned k p ((a :: todo) :: others) taken laid)
    (here : s.peers[k]? = some p) (connection : p.connection? = some c)
    (touched : p.Touched g (s.writes k a) p') :
    Penned k p' (((s.perform a).next ++ todo) :: ((s.perform a).started ++ others))
      (taken ++ s.picks k a) (laid ++ s.writes k a) := by
  obtain ⟨ahead, pen, whole⟩ := penned.pen
  have silent (closed : laid.any Item.isClose = true) : s.writes k a = [] :=
    closed_silent here (penned.closed.trans closed) pen
  obtain ⟨ahead', after, step, stuck⟩ : ∃ ahead', Pen k p' (writers k
      (((s.perform a).next ++ todo) :: ((s.perform a).started ++ others))) ahead' ∧
      (p.stuck = false → ahead ++ (s.picks k a).filterMap (itemOf? p.protocol) =
        (s.writes k a).filter (·.isWorded) ++ ahead') ∧
      (p.stuck = true → (s.writes k a).filter (·.isWorded) = []) := by
    by_cases own : a.writer? = some k
    · obtain ⟨rfl, none, alone⟩ := pen.alone own
      obtain ⟨ahead', after, step, stuck⟩ := alone.turned here connection touched
      have same := writers_turned (s := s) own none
      exact ⟨ahead', same ▸ after, fun going => step fun _ _ => going, stuck⟩
    · refine ⟨ahead, pen.apart own ▸ pen.onward touched (others_unclosed own), fun _ => ?_,
        fun _ => others_unworded own⟩
      rw [others_unworded own, others_picks own]
      exact List.append_nil ahead
  have onward (going : p.stuck = false) : (laid ++ s.writes k a).filter (·.isWorded) ++ ahead' =
      (taken ++ s.picks k a).filterMap (itemOf? p.protocol) := by
    rw [List.filter_append, List.filterMap_append, ← whole going, List.append_assoc,
      List.append_assoc, step going]
  refine ⟨⟨ahead', after, fun going => ?_⟩, ?_, ?_,
    final_more penned.final (writes_few s k a) silent, ?_⟩
  · rw [touched.protocol]
    exact onward (touched.unstuck going)
  · rw [touched.protocol]
    cases halted : p.stuck with
    | false => exact onward halted ▸ List.prefix_append ..
    | true =>
      rw [List.filter_append, stuck halted, List.append_nil, List.filterMap_append]
      exact penned.order.trans (List.prefix_append ..)
  · rw [touched.closed, penned.closed, List.any_append]
  · rw [List.map_append, List.filter_append]
    exact touched.wire.trans (penned.wire.append_right _)

theorem writes_absent (absent : s.peers[k]? = none) (a : Action) : s.writes k a = [] := by
  cases a <;> simp [writes, own, absent]

theorem picks_absent (absent : s.peers[k]? = none) (a : Action) : s.picks k a = [] := by
  cases a <;> simp [picks, sends, passes, absent]

theorem reached_unwritten (reached : Reached (World.start first) s ts log)
    (absent : s.peers[k]? = none) : picked k log = [] ∧ written k log = [] := by
  induction reached with
  | start => exact ⟨rfl, rfl⟩
  | shuffle _ _ ih => exact ih absent
  | idle _ ih => exact ih absent
  | outside i _ ih => exact ih (input_absent absent)
  | @inside s a _ _ log _ _ ih =>
    have absent := perform_absent absent
    obtain ⟨taken, laid⟩ := ih absent
    rw [picked_more, written_more, taken, laid, picks_absent absent, writes_absent absent]
    exact ⟨rfl, rfl⟩

theorem input_writers (s : Server) (i : Input) :
    ∀ u ∈ (i.act ⟨s, []⟩).tasks, writtenBy k u = true →
      k = s.peers.length ∧ k < (i.act ⟨s, []⟩).state.peers.length := by
  cases i with
  | join header capacity stalled =>
    simp only [Input.act, World.openSocket]
    split
    · intro u member mine
      obtain rfl : u = [.readBlocked s.peers.length] := by
        simpa [Running.spawn, World.map] using member
      obtain rfl : s.peers.length = k := by simpa [writtenBy, Action.writer?] using mine
      simp [Running.spawn, World.map]
    · simp only [Running.spawn, readOn, List.getElem?_concat_length, List.nil_append]
      intro u member mine
      rcases List.mem_append.mp member with picks | reads
      · obtain rfl := List.mem_singleton.mp picks
        obtain rfl : s.peers.length = k := by simpa [writtenBy, Action.writer?] using mine
        simp
      · obtain rfl := List.mem_singleton.mp reads
        simp [writtenBy, Action.writer?] at mine
  | say k' i =>
    simp only [Input.act, World.send]
    split <;> simp [World.map]
  | request accept body =>
    simp only [Input.act, World.requestStream]
    split
    · simp
    split
    · simp
    split <;>
      simp [World.map, Running.spawn, ask, Engine.World.subscribe, writtenBy, Action.writer?]
  | shutdown drainMs =>
    simp [Input.act, World.beginShutdown, Running.spawn, ask, Engine.World.shutdownAll, writtenBy,
      Action.writer?]
  | receive k' =>
    simp only [Input.act, World.received]
    split <;> simp [World.map]
  | receiveChunks k' =>
    simp only [Input.act, World.receivedChunks]
    split <;> simp [World.map]
  | drop | resume | abandon | brokers | pass =>
    simp [Input.act, World.dropPeer, World.resumePeer, World.dropStream, World.map]

theorem reached_present (reached : Reached (World.start first) s ts log) :
    ∀ u ∈ ts, writtenBy k u = true → k < s.peers.length := by
  induction reached with
  | start => simp [World.start]
  | shuffle perm _ ih => exact fun u member => ih u (perm.mem_iff.mpr member)
  | idle _ ih => exact fun u member => ih u (List.mem_cons_of_mem _ member)
  | @outside s ts _ i _ ih =>
    intro u member mine
    rcases List.mem_append.mp member with new | old
    · exact (input_writers s i u new mine).2
    · exact Nat.lt_of_lt_of_le (ih u old mine) (company_count (input_company s i)).1
  | @inside s a todo others _ _ _ ih =>
    intro u member mine
    rw [(perform_attends s k a).count]
    have head (mine : writtenBy k (a :: todo) = true) : k < s.peers.length :=
      ih _ (List.mem_cons_self ..) mine
    rcases List.mem_cons.mp member with rfl | member
    · rw [writtenBy_append, Bool.or_eq_true] at mine
      rcases mine with next | rest
      · by_cases own : a.writer? = some k
        · exact head (by simp [writtenBy, own])
        · simp [perform_unwritten s own] at next
      · exact head (writtenBy_tail rest)
    rcases List.mem_append.mp member with new | old
    · simp [started_unwritten s a u new] at mine
    · exact ih u (List.mem_cons_of_mem _ old) mine

theorem outside_writers (here : s.peers[k]? = some p) (i : Input) :
    writers k ((i.act ⟨s, []⟩).tasks ++ ts) = writers k ts := by
  have none : writers k (i.act ⟨s, []⟩).tasks = [] :=
    List.filter_eq_nil_iff.mpr fun u member mine =>
      Nat.ne_of_lt (List.getElem?_eq_some_iff.mp here).1 (input_writers s i u member mine).1
  exact (List.filter_append ..).trans ((congrArg (· ++ _) none).trans (List.nil_append _))

theorem newcomer_writers {since : Nat} {before' : Bool} {due? : Option Nat}
    (before : Reached (World.start first) s ts log)
    (tasks : us = [[.pick s.peers.length], [.read s.peers.length since before' due?]]) :
    writers s.peers.length (us ++ ts) = [[.pick s.peers.length]] := by
  have none : writers s.peers.length ts = [] :=
    List.filter_eq_nil_iff.mpr fun u member mine =>
      Nat.lt_irrefl _ (reached_present before u member mine)
  rw [tasks]
  refine (List.filter_append ..).trans ((congrArg (_ ++ ·) none).trans ?_)
  simp [writtenBy, Action.writer?]

theorem reached_penned (nobody : first.peers = [])
    (reached : Reached (World.start first) s ts log) :
    ∀ p, s.peers[k]? = some p → p.connection? = some c →
      Penned k p ts (picked k log) (written k log) := by
  induction reached with
  | start => simp [World.start, nobody]
  | shuffle perm _ ih =>
    intro p here connection
    have penned := ih p here connection
    obtain ⟨ahead, pen, -⟩ := penned.pen
    exact penned.same p.touched_refl (writers_perm perm pen.few)
  | idle _ ih => exact fun p here connection => (ih p here connection).same p.touched_refl rfl
  | @outside s ts log i before ih =>
    intro p' there connection
    cases here : s.peers[k]? with
    | some p =>
      have touched := (input_alters s i).touched here there
      exact (ih p here (touched.connection.symm.trans connection)).same touched
        (outside_writers here i)
    | none =>
      obtain ⟨taken, laid⟩ := reached_unwritten before here
      obtain ⟨-, unclosed, empty, -⟩ := newcomer_fresh here there
      rcases company_sits (input_company s i) ⟨p', there, connection⟩ with
        ⟨q, old, -⟩ | ⟨rfl, rfl, -, since, before', due?, tasks⟩
      · simp [here] at old
      · rw [taken, laid]
        have one := newcomer_writers before tasks
        exact ⟨⟨[], one ▸ .picks (by simp [unclosed]), fun _ => rfl⟩, List.nil_prefix,
          by simp [unclosed], by simp, by simp [empty]⟩
  | @inside s a todo others log _ _ ih =>
    intro p' there connection
    obtain ⟨p, here, touched⟩ := perform_came there
    have sat := touched.connection.symm.trans connection
    rw [picked_more, written_more]
    exact (ih p here sat).inside here sat touched

end Server

end SubscriptionGateway
