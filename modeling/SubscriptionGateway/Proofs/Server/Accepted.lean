import SubscriptionGateway.Proofs.Server.Sockets

/-!
What becomes of what the writer of a socket accepts: the messages of the session and the frames that
are handed over to its connection. As long as writing succeeds each is written once, the messages in
the order in which they are said and the frames in that in which they are handed over. A writer that
ends has closed the socket, and if not because the session told it to, it has written all that came
before its connection was told to stop.
-/
namespace SubscriptionGateway

open Broker

namespace Server

open WebSocket
open Engine (happened entered happened_append entered_append)

variable {s s' : Server} {k : PeerId} {c : ConnectionId} {a : Action} {p p' : Peer}
  {todo : List Action} {ts us others : List (List Action)} {log : Steps} {setup : Setup} {hub : Hub}
  {first : Server} {w : World}

/-! ## What a writer takes -/

def wording : ServerMessage ⊕ Frame → ServerMessage := Sum.elim id .ofFrame

def takes (s : Server) (k : PeerId) (a : Action) : List (ServerMessage ⊕ Frame) :=
  (s.sends k a).map .inl ++ (s.passes k a).map .inr

def taken (k : PeerId) (log : Steps) : List (ServerMessage ⊕ Frame) :=
  log.flatMap fun q => q.1.takes k q.2

theorem taken_more (k : PeerId) (log : Steps) (s : Server) (a : Action) :
    taken k (log ++ [(s, a)]) = taken k log ++ s.takes k a := by
  simp [taken]

theorem taken_picked (k : PeerId) (log : Steps) : (taken k log).map wording = picked k log := by
  induction log with
  | nil => rfl
  | cons q log ih =>
    simp only [taken, picked, List.flatMap_cons, List.map_append] at ih ⊢
    rw [ih]
    simp [takes, picks, wording]

theorem taken_sendings (k : PeerId) (log : Steps) :
    (taken k log).filterMap Sum.getLeft? = sendings k log := by
  induction log with
  | nil => rfl
  | cons q log ih =>
    simp only [taken, sendings, List.flatMap_cons, List.filterMap_append] at ih ⊢
    rw [ih]
    simp [takes, List.filterMap_map, Function.comp_def]

theorem taken_passings (k : PeerId) (log : Steps) :
    (taken k log).filterMap Sum.getRight? = passings k log := by
  induction log with
  | nil => rfl
  | cons q log ih =>
    simp only [taken, passings, List.flatMap_cons, List.filterMap_append] at ih ⊢
    rw [ih]
    simp [takes, List.filterMap_map, Function.comp_def]

theorem itemOf_total (q : Protocol) (m : ServerMessage) : ∃ i, itemOf? q m = some i := by
  cases m <;> simp [itemOf?, Protocol.encode?, Protocol.envelope?]

theorem itemOf_all (q : Protocol) (ms : List ServerMessage) :
    (ms.filterMap (itemOf? q)).map some = ms.map (itemOf? q) := by
  induction ms with
  | nil => rfl
  | cons m ms ih =>
    obtain ⟨i, item⟩ := itemOf_total q m
    rw [List.filterMap_cons_some item, List.map_cons, List.map_cons, ih, item]

theorem itemOf_frame (q : Protocol) (f : Frame) :
    ∃ text, itemOf? q (.ofFrame f) = some (.text text) := by
  cases body :
    f.body <;> simp [ServerMessage.ofFrame, body, itemOf?, Protocol.encode?, Protocol.envelope?]

/-! ## Sockets whose writes succeed -/

/-- What the writer of a client does goes well: the socket has not been given up, and what is
written can be written and sent. -/
def succeeds (s : Server) (k : PeerId) (a : Action) : Bool :=
  match s.peers[k]? with
  | none => true
  | some p =>
    if a.writer? = some k then
      !p.ended && match a with
        | .write .. => !p.broken
        | .writeClose _ => !p.gone
        | .flush .. => !p.gone && p.canFlush
        | _ => true
    else true

theorem succeeds_free (good : s.succeeds k a = true) (here : s.peers[k]? = some p)
    (whose : a.writer? = some k) :
    p.ended = false ∧ ∀ i, a = .write k i → p.stuck = false := by
  have going : p.ended = false := by
    have both := good
    simp only [succeeds, here, whose, ↓reduceIte, Bool.and_eq_true, Bool.not_eq_true'] at both
    exact both.1
  refine ⟨going, ?_⟩
  rintro i rfl
  simpa [succeeds, here, whose, Peer.stuck, going] using good

/-! ## Why a writer ends -/

/-- Why a writer takes nothing more: it has taken a close of the session, or it has found nothing to
take when its connection was told to stop. -/
def Leaves (k : PeerId) (c : ConnectionId) (log : Steps) : Prop :=
  (∃ code reason, .inl (.close code reason) ∈ taken k log) ∨
    ∃ early s late, log = early ++ (s, .pick k) :: late ∧ s.engine.Halts c ∧
      sendings k log = tellings k early ∧
      passings k log = entered c (happened (innerSteps early))

theorem Leaves.more (leaves : Leaves k c log) (other : a ≠ .pick k) :
    Leaves k c (log ++ [(s, a)]) := by
  obtain ⟨sent, passed⟩ := unpicked (s := s) other
  rcases leaves with ⟨code, reason, closes⟩ | ⟨early, s', late, split, halts, told, entering⟩
  · refine .inl ⟨code, reason, ?_⟩
    rw [taken_more]
    exact List.mem_append_left _ closes
  · refine .inr ⟨early, s', late ++ [(s, a)], by simp [split], halts, ?_, ?_⟩
    · rw [sendings_more, sent, List.append_nil, told]
    · rw [passings_more, passed, List.append_nil, entering]

inductive Pace (k : PeerId) (p : Peer) (leaves : Prop) : List (List Action) → Prop where
  | picks : Pace k p leaves [[.pick k]]
  | writes (i : Item) (plain : i.isClose = false) : Pace k p leaves [[.write k i]]
  | flushes (due : Nat) : Pace k p leaves [[.flush k false due]]
  | closes (i : Item) (last : i.isClose = true) (why : leaves) : Pace k p leaves [[.write k i]]
  | parts (why : leaves) : Pace k p leaves [[.writeClose k]]
  | rests (due : Nat) (why : leaves) (closed : p.hasClosed = true) :
    Pace k p leaves [[.flush k true due]]
  | through (why : leaves) (done : p.Through) : Pace k p leaves []

theorem Pace.onward {one other : Prop} (pace : Pace k p one us) (leads : one → other)
    (closed : p.hasClosed = true → p'.hasClosed = true) (done : p.Through → p'.Through) :
    Pace k p' other us := by
  cases pace with
  | picks => exact .picks
  | writes i plain => exact .writes i plain
  | flushes due => exact .flushes due
  | closes i last why => exact .closes i last (leads why)
  | parts why => exact .parts (leads why)
  | rests due why was => exact .rests due (leads why) (closed was)
  | through why was => exact .through (leads why) (done was)

/-- A writer that finds nothing to take has taken everything, and is told to stop. -/
theorem pick_leaves (here : s.peers[k]? = some p) (connection : p.connection? = some c)
    (bound : c < s.engine.connections.length) (going : p.ended = false) (silent : p.control = [])
    (waits : s.engine.queueOf c = []) (ready : s.ready (.pick k) = true)
    (told : tellings k log = sendings k log ++ p.control)
    (queued : passings k log ++ s.engine.queueOf c = entered c (happened (innerSteps log))) :
    Leaves k c (log ++ [(s, .pick k)]) := by
  obtain ⟨z, found⟩ : ∃ z, s.engine.connections[c]? = some z := ⟨_, List.getElem?_eq_getElem bound⟩
  have empty : z.queue = [] := by simpa [Engine.queueOf, found] using waits
  have halts : s.engine.Halts c := by
    refine ⟨z, found, ?_⟩
    simpa [Server.ready, here, going, silent, connection, hasFrames, isCancelled,
      Engine.isCancelled, found, empty] using ready
  have sent : s.sends k (.pick k) = [] := by simp [sends, here, silent]
  have passed : s.passes k (.pick k) = [] := by
    simp [passes, here, silent, connection, takeFrames_nil waits]
  refine .inr ⟨log, s, [], rfl, halts, ?_, ?_⟩
  · rw [sendings_more, sent, told, silent]
  · rw [passings_more, passed, List.append_nil, ← queued, waits, List.append_nil]

theorem pick_pace (here : s.peers[k]? = some p) (connection : p.connection? = some c)
    (bound : c < s.engine.connections.length) (ready : s.ready (.pick k) = true)
    (going : p.ended = false) (told : tellings k log = sendings k log ++ p.control)
    (queued : passings k log ++ s.engine.queueOf c = entered c (happened (innerSteps log))) :
    Pace k p' (Leaves k c (log ++ [(s, .pick k)])) (writers k [(s.perform (.pick k)).next]) := by
  cases control : p.control with
  | cons m rest =>
    obtain ⟨i, item⟩ := itemOf_total p.protocol m
    have next : (s.perform (.pick k)).next = [.write k i] := by
      simp [perform, pickNext, here, going, control, sendMessage, item]
    rw [next, writers_next rfl]
    cases closes : i.isClose with
    | false => exact .writes i closes
    | true =>
      refine .closes i closes (.inl ?_)
      rcases itemOf_form item with ⟨text, -, rfl⟩ | ⟨code, reason, rfl, -⟩
      · cases closes
      · refine ⟨code, reason, ?_⟩
        rw [taken_more]
        refine List.mem_append_right _ ?_
        simp [takes, sends, here, going, control]
  | nil =>
    cases waits : s.engine.queueOf c with
    | cons f rest =>
      obtain ⟨text, item⟩ := itemOf_frame p.protocol f
      have next : (s.perform (.pick k)).next = [.write k (.text text)] := by
        simp [perform, pickNext, here, going, control, connection,
          takeFrames_cons waits, sendMessage,
          item]
      rw [next, writers_next rfl]
      exact .writes _ rfl
    | nil =>
      have nothing := takeFrames_nil waits
      rcases taking : s.engine.takeFrames c 1 with ⟨frames, e⟩
      obtain rfl : frames = [] := by rw [taking] at nothing; exact nothing
      have next : (s.perform (.pick k)).next = [.writeClose k] := by
        simp [perform, pickNext, here, going, control, connection, taking]
      rw [next, writers_next rfl]
      exact .parts (pick_leaves here connection bound going control waits ready told queued)

theorem Pace.turned (pace : Pace k p (Leaves k c log) [[a]]) (here : s.peers[k]? = some p)
    (connection : p.connection? = some c) (there : (s.perform a).server.peers[k]? = some p')
    (bound : c < s.engine.connections.length) (ready : s.ready a = true)
    (good : s.succeeds k a = true) (told : tellings k log = sendings k log ++ p.control)
    (queued : passings k log ++ s.engine.queueOf c = entered c (happened (innerSteps log))) :
    Pace k p' (Leaves k c (log ++ [(s, a)])) (writers k [(s.perform a).next]) := by
  have touched := (perform_alters s k a).touched here there
  generalize form : [[a]] = us at pace
  cases pace with
  | through => simp at form
  | picks =>
    obtain rfl : a = .pick k := by simpa using form
    have going := (succeeds_free good here rfl).1
    exact pick_pace here connection bound ready going told queued
  | writes i plain =>
    obtain rfl : a = .write k i := by simpa using form
    obtain ⟨going, whole⟩ : p.ended = false ∧ p.broken = false := by
      simpa [succeeds, here, Action.writer?] using good
    have next : (s.perform (.write k i)).next = [.flush k false (s.now + s.grace)] := by
      simp [perform, writeItem, here, going, whole, plain]
    rw [next, writers_next rfl]
    exact .flushes _
  | flushes due =>
    obtain rfl : a = .flush k false due := by simpa using form
    obtain ⟨going, stays, can⟩ : p.ended = false ∧ p.gone = false ∧ p.canFlush = true := by
      simpa [succeeds, here, Action.writer?] using good
    have next : (s.perform (.flush k false due)).next = [.pick k] := by
      simp [perform, flush, here, going, stays, can]
    rw [next, writers_next rfl]
    exact .picks
  | closes i last why =>
    obtain rfl : a = .write k i := by simpa using form
    obtain ⟨going, whole⟩ : p.ended = false ∧ p.broken = false := by
      simpa [succeeds, here, Action.writer?] using good
    have next : (s.perform (.write k i)).next = [.flush k true (s.now + s.grace)] := by
      simp [perform, writeItem, here, going, whole, last]
    rw [next, writers_next rfl]
    refine .rests _ (why.more (by simp)) ?_
    rw [touched.closed]
    simp [Server.writes, Server.own, here, going, whole, last]
  | parts why =>
    obtain rfl : a = .writeClose k := by simpa using form
    obtain ⟨going, stays⟩ : p.ended = false ∧ p.gone = false := by
      simpa [succeeds, here, Action.writer?] using good
    have next : (s.perform (.writeClose k)).next = [.flush k true (s.now + s.grace)] := rfl
    rw [next, writers_next rfl]
    refine .rests _ (why.more (by simp)) ?_
    rw [touched.closed]
    cases closed : p.hasClosed <;>
      simp [Server.writes, Server.own, here, going, stays, Peer.farewell, closed, Item.isClose]
  | rests due why closed =>
    obtain rfl : a = .flush k true due := by simpa using form
    obtain ⟨going, stays, can⟩ : p.ended = false ∧ p.gone = false ∧ p.canFlush = true := by
      simpa [succeeds, here, Action.writer?] using good
    have turn :
      s.perform (.flush k true due) = ⟨(s.updatePeer k (·.flush)).stopWriting k, [], []⟩ := by
      simp [perform, flush, here, going, stays, can]
    have next : (s.perform (.flush k true due)).next = [] := by rw [turn]
    have flushed : (s.updatePeer k (·.flush)).peers[k]? = some p.flush := by simp [updatePeer, here]
    rw [next]
    refine .through (why.more (by simp)) ⟨by rw [touched.closed, closed, Bool.true_or], ?_⟩
    rw [turn] at there
    rw [stopWriting_here flushed there]
    exact Peer.flush_flushed can

/-! ## Every run in which writing succeeds -/

structure Accepting (s : Server) (k : PeerId) (c : ConnectionId) (p : Peer)
    (ts : List (List Action))
    (log : Steps) : Prop where
  pen : ∃ ahead, Pen k p (writers k ts) ahead ∧
    (written k log).filter (·.isWorded) ++ ahead = (picked k log).filterMap (itemOf? p.protocol)
  pace : Pace k p (Leaves k c log) (writers k ts)
  kept : QueueKept s k c p ts log

theorem Accepting.same {g : Bool} (accepting : Accepting s k c p ts log)
    (touched : p.Touched g [] p') (tasks : writers k us = writers k ts)
    (queue : s'.engine.queueOf c = s.engine.queueOf c) (writing : p'.writing = p.writing)
    (through : p.Through → p'.Through) : Accepting s' k c p' us log := by
  obtain ⟨ahead, pen, forms⟩ := accepting.pen
  obtain ⟨left, whole, waits⟩ := accepting.kept.queued
  refine ⟨⟨ahead, tasks ▸ pen.onward touched rfl, by rw [touched.protocol, forms]⟩, ?_,
    ⟨left, whole, fun running => ?_⟩, accepting.kept.runs.onward tasks touched.ended writing⟩
  · rw [tasks]
    refine accepting.pace.onward id (fun was => ?_) through
    rw [touched.closed, was, Bool.true_or]
  · rw [queue]
    exact waits (writing ▸ running)

theorem Accepting.inside (accepting : Accepting s k c p ((a :: todo) :: others) log)
    (own : s.Own k c) (here : s.peers[k]? = some p) (connection : p.connection? = some c)
    (there : (s.perform a).server.peers[k]? = some p') (bound : c < s.engine.connections.length)
    (ready : s.ready a = true) (good : s.succeeds k a = true)
    (told : tellings k log = sendings k log ++ p.control) :
    Accepting (s.perform a).server k c p'
      (((s.perform a).next ++ todo) :: ((s.perform a).started ++ others)) (log ++ [(s, a)]) := by
  obtain ⟨ahead, pen, forms⟩ := accepting.pen
  have touched := (perform_alters s k a).touched here there
  by_cases whose : a.writer? = some k
  · obtain ⟨rfl, none, alone⟩ := pen.alone whose
    obtain ⟨ahead', after, step, -⟩ := alone.turned here connection touched
    obtain ⟨going, free⟩ := succeeds_free good here whose
    have same := writers_turned (s := s) whose none
    have one : writers k ([a] :: others) = [[a]] := by
      simp only [writers] at none ⊢
      rw [List.filter_cons_of_pos (by simp [writtenBy, whose]), none]
    obtain ⟨left, whole, waits⟩ := accepting.kept.queued
    have running := accepting.kept.runs (by simp [one]) going
    have queued : passings k log ++ s.engine.queueOf c = entered c (happened (innerSteps log)) := by
      rw [← waits running, whole]
    have pace := (one ▸ accepting.pace).turned here connection there bound ready good told queued
    refine ⟨⟨ahead', same ▸ after, ?_⟩, same ▸ pace,
      accepting.kept.turned alone whose none here connection there going⟩
    rw [written_more, picked_more, List.filter_append, List.filterMap_append, touched.protocol,
      ← forms, List.append_assoc, List.append_assoc, step free]
  · have same := pen.apart (s := s) whose
    refine ⟨⟨ahead, same ▸ pen.onward touched (others_unclosed whose), ?_⟩, ?_,
      accepting.kept.apart pen own here there whose⟩
    · rw [written_more, picked_more, List.filter_append, others_unworded whose, others_picks whose,
        List.append_nil, List.append_nil, touched.protocol, forms]
    · rw [same]
      refine accepting.pace.onward (fun leaves => leaves.more fun pick => whose ?_) (fun was => ?_)
        (perform_through whose here there)
      · rw [pick]
        rfl
      · rw [touched.closed, was, Bool.true_or]

theorem newcomer_unfed {i : Input} (absent : s.peers[k]? = none)
    (there : (i.act ⟨s, []⟩).state.peers[k]? = some p) :
    (i.act ⟨s, []⟩).state.engine.queueOf s.engine.connections.length = [] := by
  obtain ⟨header, capacity, stalled, rfl⟩ := newcomer_joins absent there
  simp only [Input.act, World.openSocket]
  split
  · simp [World.map, Running.spawn, Engine.queueOf]
  · simp only [Running.spawn, Engine.queueOf, openConnection_line, ↓reduceIte]

theorem newcomer_accepting {i : Input} (before : Reached (World.start first) s ts log)
    (absent : s.peers[k]? = none) (there : (i.act ⟨s, []⟩).state.peers[k]? = some p)
    (connection : p.connection? = some c) :
    Accepting (i.act ⟨s, []⟩).state k c p ((i.act ⟨s, []⟩).tasks ++ ts) log := by
  obtain ⟨unpicked, unwritten⟩ := reached_unwritten before absent
  obtain ⟨-, unclosed, -, writing⟩ := newcomer_fresh absent there
  have untaken : taken k log = [] := List.map_eq_nil_iff.mp ((taken_picked k log).trans unpicked)
  rcases company_sits (input_company s i) ⟨p, there, connection⟩ with
    ⟨q, old, -⟩ | ⟨rfl, rfl, -, since, before', due?, tasks⟩
  · simp [absent] at old
  · have one := newcomer_writers before tasks
    have unentered := reached_unentered before (List.getElem?_eq_none (Nat.le_refl _))
    refine ⟨⟨[], one ▸ .picks (by simp [unclosed]), by simp [unpicked, unwritten]⟩, one ▸ .picks,
      ⟨[], ?_, fun _ => (newcomer_unfed absent there).symm⟩, fun _ _ => writing⟩
    rw [unentered, ← taken_passings, untaken]
    rfl

theorem reached_accepting (begun : first.engine = Engine.start setup hub)
    (nobody : first.peers = [])
    (silent : first.streams = []) (reached : Reached (World.start first) s ts log)
    (good : ∀ q ∈ log, q.1.succeeds k q.2 = true) :
    ∀ p, s.peers[k]? = some p → p.connection? = some c → Accepting s k c p ts log := by
  induction reached with
  | start => simp [World.start, nobody]
  | shuffle perm _ ih =>
    intro p here connection
    have accepting := ih good p here connection
    obtain ⟨ahead, pen, -⟩ := accepting.pen
    exact accepting.same p.touched_refl (writers_perm perm pen.few) rfl rfl id
  | idle _ ih =>
    intro p here connection
    exact (ih good p here connection).same p.touched_refl rfl rfl rfl id
  | @outside s ts log i before ih =>
    intro p' there connection
    cases here : s.peers[k]? with
    | some p =>
      have touched := (input_alters s i).touched here there
      have sat := touched.connection.symm.trans connection
      obtain ⟨q, found, steady⟩ := input_steady i here
      obtain rfl : p' = q := by simpa [there] using found
      have bound := (reached_seated begun nobody before).bounded k c ⟨p, here, sat⟩
      have line := audience_line (input_audience s i) (List.getElem?_eq_getElem bound)
      refine (ih good p here sat).same touched (outside_writers here i)
        ?_ steady.writing steady.through
      rw [Engine.queueOf, Engine.queueOf, line, List.getElem?_eq_getElem bound]
    | none => exact newcomer_accepting before here there connection
  | @inside s a todo others log ready before ih =>
    intro p' there connection
    obtain ⟨p, here, touched⟩ := perform_came there
    have sat := touched.connection.symm.trans connection
    have told : tellings k log = sendings k log ++ p.control := by
      have heard := reached_heard (k := k) begun nobody before
      rwa [unsent, here] at heard
    refine (ih (fun q member => good q (List.mem_append_left _ member)) p here sat).inside
      (reached_own begun nobody silent before ⟨p, here, sat⟩) here sat there
      ((reached_seated begun nobody before).bounded k c ⟨p, here, sat⟩) ready ?_ told
    exact good (s, a) (List.mem_append_right _ (List.mem_singleton_self _))

/-- What the writer of a client has accepted, and what has become of it. -/
structure Conveys (s : Server) (k : PeerId) (c : ConnectionId) (p : Peer) (log : Steps) : Prop where
  /-- What it has taken is written, each once and in this order. The last may be in its hands. -/
  laid : ∃ hand : List Item, hand.length ≤ 1 ∧
    ((written k log).filter (·.isWorded) ++ hand).map some =
      (taken k log).map fun m => itemOf? p.protocol (wording m)
  told : (taken k log).filterMap Sum.getLeft? ++ p.control = tellings k log
  /-- It takes the frames as they enter the queue. Unless the socket has been given up, the others
  wait there, or a close has been written. -/
  queued : ∃ left, (taken k log).filterMap Sum.getRight? ++ left =
    entered c (happened (innerSteps log)) ∧ (p.ended = false →
      left = s.engine.queueOf c ∨ ∃ i ∈ written k log, i.isClose = true)

structure Concludes (w : World) (k : PeerId) (c : ConnectionId) (p : Peer) (moves : List Move) :
    Prop where
  all : ((written k (w.steps moves)).filter (·.isWorded)).map some =
    (taken k (w.steps moves)).map fun m => itemOf? p.protocol (wording m)
  closed : ∃ early i, written k (w.steps moves) = early ++ [i] ∧ i.isClose = true ∧
    ∀ f ∈ (taken k (w.steps moves)).filterMap Sum.getRight?,
      ∃ j ∈ early, itemOf? p.protocol (.ofFrame f) = some j
  sent : p.wire.isFlushed = true
  /-- It has ended because its session has told it to, or else it has written whatever has been
  accepted before its connection was told to stop. -/
  heeds : (∃ code reason, .inl (.close code reason) ∈ taken k (w.steps moves)) ∨
    ∀ before later, moves = before ++ later →
      (w.play before).state.engine.isCancelled c = false →
        tellings k (w.steps before) <+:
          (taken k (w.steps moves)).filterMap Sum.getLeft? ∧
        entered c (happened (innerSteps (w.steps before))) <+:
          (taken k (w.steps moves)).filterMap Sum.getRight?

theorem Pen.hands {ahead : List Item} (pen : Pen k p us ahead) : ahead.length ≤ 1 := by
  cases pen <;> simp

theorem halts_cancelled {e : Engine} (halts : e.Halts c) : e.isCancelled c = true := by
  obtain ⟨z, found, cancelled⟩ := halts
  simp [Engine.isCancelled, found, cancelled]

/-- What has been accepted before the connection was told to stop has been taken when the writer
finds nothing more. -/
theorem leaves_heeds {before later : List Move} {early late : Steps}
    (split : w.steps (before ++ later) = early ++ (s, .pick k) :: late) (halts : s.engine.Halts c)
    (free : (w.play before).state.engine.isCancelled c = false) :
    ∃ mid, early = w.steps before ++ mid := by
  rw [World.steps_append] at split
  rcases List.append_eq_append_iff.mp split with ⟨mid, whole, -⟩ | ⟨mid, whole, rest⟩
  · exact ⟨mid, whole⟩
  cases mid with
  | nil => exact ⟨[], by simpa using whole.symm⟩
  | cons q mid =>
    obtain ⟨rfl, -⟩ := List.cons.inj rest
    have member : (s, .pick k) ∈ w.steps before := by simp [whole]
    obtain ⟨one, place, other, rfl, state, -⟩ := World.mem_steps member
    have told : (w.play one).state.engine.Halts c := by rwa [state]
    have stays := reached_halts (play_reached (w.play one) ([.step place] ++ other)) told
    rw [← World.play_append, ← List.append_assoc] at stays
    rw [halts_cancelled stays] at free
    cases free

theorem frame_early {early : List Item} {i : Item} {f : Frame} {q : Protocol} {laid : List Item}
    (place : laid = early ++ [i]) (last : i.isClose = true)
    (forms : (laid.filter (·.isWorded)).map some = (taken k log).map fun m => itemOf? q (wording m))
    (member : f ∈ (taken k log).filterMap Sum.getRight?) :
    ∃ j ∈ early, itemOf? q (.ofFrame f) = some j := by
  obtain ⟨text, item⟩ := itemOf_frame q f
  obtain ⟨m, among, right⟩ := List.mem_filterMap.mp member
  obtain rfl : m = .inr f := Sum.getRight?_eq_some_iff.mp right
  have there : some (.text text) ∈ (laid.filter (·.isWorded)).map some := by
    rw [forms]
    exact List.mem_map.mpr ⟨_, among, item⟩
  obtain ⟨j, worded, same⟩ := List.mem_map.mp there
  obtain rfl := Option.some.inj same
  have whole := List.mem_of_mem_filter worded
  rw [place, List.mem_append, List.mem_singleton] at whole
  refine ⟨.text text, whole.resolve_right ?_, item⟩
  rintro rfl
  cases last

/-- Whatever its session says, the engine hands over to its connection and tells this to stop, and
in whichever order its reader, its writer and everybody else go on: as long as the turns of the
writer of a client go well, it writes the messages of the session as they are said and the frames as
they enter the queue, each once. When it has ended it has closed the socket, and if not because its
session has told it to, all that had been accepted when its connection was told to stop has been
written before. So what a shutdown says of subscriptions before it lets go of their connections
comes before the close. -/
theorem accepted_written (setup : Setup) (hub : Hub) (first : Server)
    (begun : first.engine = Engine.start setup hub) (nobody : first.peers = [])
    (silent : first.streams = []) (k : PeerId) (c : ConnectionId) (moves : List Move) (p : Peer) :
    let w := World.start first
    (w.play moves).state.peers[k]? = some p → p.connection? = some c →
    (∀ q ∈ w.steps moves, q.1.succeeds k q.2 = true) →
      Conveys (w.play moves).state k c p (w.steps moves) ∧
      (writers k (w.play moves).tasks = [] → Concludes w k c p moves) := by
  intro w here connection good
  have reached := play_reached w moves
  have accepting := reached_accepting begun nobody silent reached good p here connection
  have penned := reached_penned nobody reached p here connection
  have told : tellings k (w.steps moves) = sendings k (w.steps moves) ++ p.control := by
    have heard := reached_heard (k := k) begun nobody reached
    rwa [unsent, here] at heard
  obtain ⟨hand, pen, forms⟩ := accepting.pen
  obtain ⟨left, whole, waits⟩ := accepting.kept.queued
  have forms : ((written k (w.steps moves)).filter (·.isWorded) ++ hand).map some =
      (taken k (w.steps moves)).map fun m => itemOf? p.protocol (wording m) := by
    rw [forms, itemOf_all, ← taken_picked, List.map_map]
    rfl
  have through (idle : writers k (w.play moves).tasks = []) :
      p.Through ∧ Leaves k c (w.steps moves) ∧ hand = [] := by
    have pace := accepting.pace
    rw [idle] at pace pen
    cases pace with
    | through why done =>
      cases pen with
      | through => exact ⟨done, why, rfl⟩
  have closes (done : p.Through) : ∃ i ∈ written k (w.steps moves), i.isClose = true :=
    List.any_eq_true.mp (penned.closed.symm.trans done.1)
  refine ⟨⟨⟨hand, pen.hands, forms⟩, ?_, left, ?_, fun going => ?_⟩, fun idle => ?_⟩
  · rw [taken_sendings, told]
  · rw [taken_passings, whole]
  · cases running : p.writing with
    | true => exact .inl (waits running)
    | false =>
      refine .inr (closes (through (Classical.byContradiction fun busy => ?_)).1)
      simp [accepting.kept.runs busy going] at running
  · obtain ⟨done, why, rfl⟩ := through idle
    refine ⟨by rwa [List.append_nil] at forms, ?_, done.2, ?_⟩
    · obtain ⟨i, member, last⟩ := closes done
      obtain ⟨early, late, place⟩ := List.append_of_mem member
      obtain rfl := penned.final early i late place last
      exact ⟨early, i, place, last,
        fun f => frame_early place last (by rwa [List.append_nil] at forms)⟩
    · refine why.imp_right ?_
      rintro ⟨early, s, late, place, halts, sent, passed⟩ before later rfl free
      obtain ⟨mid, rfl⟩ := leaves_heeds place halts free
      constructor
      · rw [taken_sendings, sent, tellings_append]
        exact List.prefix_append ..
      · rw [taken_passings, passed, innerSteps_append, happened_append, entered_append]
        exact List.prefix_append ..

def staffLeave : List Move :=
  staffStart ++ [.input (.shutdown 1000)] ++ List.replicate 6 (.step 0) ++ [.step 3] ++
    List.replicate 11 (.step 0) ++ [.step 3, .step 0, .step 1, .step 0, .step 0, .input (.pass 10),
      .step 1] ++ List.replicate 12 (.step 0)

theorem staff_accepted_written :
    (written 0 ((World.start staffServer).steps staffLeave)).map Item.isClose =
      [false, false, false, true] ∧
    (passings 0 ((World.start staffServer).steps staffLeave)).map
      (fun f => (f.clientId, f.isMessage)) =
      [("1", false)] ∧
    ∃ p, ((World.start staffServer).play staffLeave).state.peers[0]? = some p ∧
      Conveys ((World.start staffServer).play staffLeave).state 0 0 p
        ((World.start staffServer).steps staffLeave) ∧
      Concludes (World.start staffServer) 0 0 p staffLeave := by
  obtain ⟨came, good, idle, closes, completes⟩ :
      (((World.start staffServer).play staffLeave).state.peers[0]?.map (·.connection?) =
        some (some 0)) ∧
      (((World.start staffServer).steps staffLeave).all fun q => q.1.succeeds 0 q.2) = true ∧
      (writers 0 ((World.start staffServer).play staffLeave).tasks).isEmpty = true ∧
      (written 0 ((World.start staffServer).steps staffLeave)).map Item.isClose =
        [false, false, false, true] ∧
      (passings 0 ((World.start staffServer).steps staffLeave)).map
        (fun f => (f.clientId, f.isMessage)) = [("1", false)] := by decide +kernel
  obtain ⟨p, here, connection⟩ := Option.map_eq_some_iff.mp came
  obtain ⟨conveys, concludes⟩ := accepted_written Engine.staffSetup Engine.staffHub staffServer rfl
    rfl rfl 0 0 staffLeave p here connection (List.all_eq_true.mp good)
  exact ⟨closes, completes, p, here, conveys, concludes (List.isEmpty_iff.mp idle)⟩

end Server

end SubscriptionGateway
