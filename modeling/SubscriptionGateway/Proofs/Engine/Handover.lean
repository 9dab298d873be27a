import SubscriptionGateway.Proofs.Engine.Calls
import SubscriptionGateway.Proofs.Engine.Queues
import SubscriptionGateway.Proofs.Engine.Reckoning
import Mathlib.Algebra.Ring.Nat

/-!
How a frame is handed over to a connection. Whoever hands one over looks whether the connection is
open and then waits for its queue. Either the queue takes the frame, once, and it is counted if it
is a message; or nothing is taken nor counted, and the connection has been closed. Nobody else puts
anything into a queue or counts a message.
-/
namespace SubscriptionGateway

open Broker

namespace Engine

variable {e e' : Engine} {a : Action} {c : ConnectionId} {f : Frame} {r : Receipt} {g : Effect}
  {k : CallId} {pool rest : List Action} {log : Steps}

/-! ## Closed connections -/

def Dismissed (e : Engine) : Prop :=
  ∀ (c : ConnectionId) (z : Connection), e.connections[c]? = some z → z.closed = true →
    z.cancelled = true

theorem dismissed_cancelled (dismissed : Dismissed e) (closed : e.isClosed c = true) :
    e.isCancelled c = true := by
  simp only [isClosed, isCancelled] at closed ⊢
  cases found : e.connections[c]? with
  | none => rfl
  | some z =>
    simp only [found] at closed
    exact dismissed c z found closed

theorem dismissed_same (same : e'.connections = e.connections) (dismissed : Dismissed e) :
    Dismissed e' := by
  unfold Dismissed at dismissed ⊢
  rwa [same]

theorem dismissed_update {h : Connection → Connection} (c' : ConnectionId)
    (stays : ∀ z : Connection, (z.closed = true → z.cancelled = true) → (h z).closed = true →
      (h z).cancelled = true)
    (dismissed : Dismissed e) : Dismissed (e.updateConnection c' h) := by
  intro c z found closed
  simp only [updateConnection, List.getElem?_modify] at found
  cases before : e.connections[c]? with
  | none => simp [before] at found
  | some y =>
    by_cases here : c' = c
    · obtain rfl : h y = z := by simpa [before, here] using found
      exact stays y (dismissed c y before) closed
    · obtain rfl : y = z := by simpa [before, here] using found
      exact dismissed c y before closed

theorem Persists.dismissed (persists : Persists e e') (dismissed : Dismissed e) : Dismissed e' := by
  intro c z' found' closed
  have made : c < e.connections.length := by
    rw [← persists.made]
    exact (List.getElem?_eq_some_iff.mp found').1
  obtain ⟨y, there, lasts⟩ := persists.line c _ (List.getElem?_eq_getElem made)
  obtain rfl : y = z' := Option.some.inj (there.symm.trans found')
  rcases lasts.state with ⟨same, cancelled⟩ | ⟨-, cancelled⟩
  · rw [cancelled]
    exact dismissed c _ (List.getElem?_eq_getElem made) (same ▸ closed)
  · exact cancelled

theorem perform_dismissed (a : Action) (dismissed : Dismissed e) :
    Dismissed (e.perform a).engine := by
  by_cases entering : ∃ c f due r, a = .enqueue c f due r
  · obtain ⟨c, f, due, r, rfl⟩ := entering
    cases takes : e.takes c with
    | true =>
      obtain ⟨e', same, connections, -⟩ := enqueue_taken (f := f) (r := r) takes
      have longer : Dismissed (e.updateConnection c fun z => { z with queue := z.queue ++ [f] }) :=
        dismissed_update c (fun _ before => before) dismissed
      simp only [perform, same]
      exact dismissed_same ((receipt_connections ..).trans connections) longer
    | false => exact (refused_persists takes).dismissed dismissed
  · exact (perform_persists e a fun c f due r same =>
      entering ⟨c, f, due, r, same⟩).dismissed dismissed

theorem input_dismissed (i : Input) (dismissed : Dismissed e) : Dismissed (i.apply e) := by
  cases i with
  | connect t =>
    intro c z found closed
    have made : (Input.apply e (.connect t)).connections =
        e.connections ++ [({ transport := t } : Connection)] := rfl
    rw [made, List.getElem?_append] at found
    split at found
    · exact dismissed c z found closed
    · obtain rfl := List.mem_singleton.mp (List.mem_of_getElem? found)
      simp at closed
  | close c => exact (persists_close e c).dismissed dismissed
  | cancel c => exact dismissed_update c (fun _ _ _ => rfl) dismissed
  | take c most =>
    simp only [Input.apply, takeFrames]
    split
    · exact dismissed_update c (fun _ before => before) dismissed
    · exact dismissed
  | stopReading c => exact dismissed_update c (fun _ before => before) dismissed
  | call | brokers | pass => exact dismissed_same rfl dismissed

/-! ## One delivery -/

def deliveryTroubles : List Fault := [Trouble.closed, Trouble.queueGone, Trouble.tooSlow]

/-- The queue of the connection has taken the frame, at its end and once, which is counted if it is
a message. -/
structure Taken (e : Engine) (c : ConnectionId) (f : Frame) (r : Receipt) (g : Effect) : Prop where
  returns : ∃ e' : Engine, e'.replies = e.replies ∧ g = e'.receipt (.ok ()) r
  queue : ∀ c', g.engine.queueOf c' = e.queueOf c' ++ if c' = c then [f] else []
  counted : g.engine.counters.messages = e.counters.messages + if f.isMessage then 1 else 0

/-- No queue has taken anything, nothing is counted, and the connection has been closed. -/
structure Refused (e : Engine) (c : ConnectionId) (r : Receipt) (g : Effect) : Prop where
  returns : ∃ (e' : Engine) (fault : Fault), e'.replies = e.replies ∧
    fault ∈ deliveryTroubles ∧ g = e'.receipt (.error fault) r
  queues : QueuesSame e g.engine
  uncounted : g.engine.counters.messages = e.counters.messages
  closed : g.engine.isClosed c = true
  cancelled : g.engine.isCancelled c = true

theorem receipt_counters (e : Engine) (result : Except Fault Unit) (r : Receipt) :
    (e.receipt result r).engine.counters = e.counters := by
  cases r <;> cases result <;> rfl

theorem isClosed_same (same : e'.connections = e.connections) (c : ConnectionId) :
    e'.isClosed c = e.isClosed c := by
  simp only [isClosed, same]

theorem isCancelled_same (same : e'.connections = e.connections) (c : ConnectionId) :
    e'.isCancelled c = e.isCancelled c := by
  simp only [isCancelled, same]

theorem closed_refused (dismissed : Dismissed e) (closed : e.isClosed c = true) :
    Refused e c r (e.offer c f r) := by
  have same := receipt_connections e (.error Trouble.closed) r
  have returns : e.offer c f r = e.receipt (.error Trouble.closed) r := by
    simp only [offer, closed, ↓reduceIte]
  rw [returns]
  exact
    { returns := ⟨e, Trouble.closed, rfl, List.mem_cons_self .., rfl⟩
      queues := (persists_same same).waits
      uncounted := by rw [receipt_counters]
      closed := (isClosed_same same c).trans closed
      cancelled := (isCancelled_same same c).trans (dismissed_cancelled dismissed closed) }

theorem close_closed (e : Engine) (c : ConnectionId) :
    (e.closeConnection c).2.isClosed c = true ∧ (e.closeConnection c).2.isCancelled c = true := by
  simp only [closeConnection, isClosed, isCancelled, updateConnection, List.getElem?_modify_eq]
  cases e.connections[c]? with
  | none => exact ⟨rfl, rfl⟩
  | some z => exact ⟨rfl, rfl⟩

theorem enqueue_hands (takes : e.takes c = true) : Taken e c f r (e.enqueue c f r) := by
  have queue (c' : ConnectionId) := enqueue_queueOf e c f 0 r c'
  have counters := (writes_enqueue e c f r).counters
  have told : e.happenings (.enqueue c f 0 r) = [.queued c f r] := by simp [happenings, takes]
  cases read : e.connections[c]? with
  | none => simp [Engine.takes, read] at takes
  | some x =>
    obtain ⟨reads, room⟩ : x.read = true ∧ e.hasRoom x = true := by
      simpa [Engine.takes, read] using takes
    refine ⟨?_, fun c' => ?_, ?_⟩
    · simp only [enqueue, read, reads, room, Bool.not_true, Bool.false_eq_true, ↓reduceIte]
      refine ⟨_, ?_, rfl⟩
      split <;> rfl
    · rw [queue c', told]
      by_cases here : c' = c
      · simp [entered, here]
      · simp [entered, here, Ne.symm here]
    · rw [counters]
      by_cases message : f.isMessage = true
      · simp [sending, takes, message, Counters.apply]
      · simp [sending, message]

theorem enqueue_refuses (refused : e.takes c = false) : Refused e c r (e.enqueue c f r) := by
  have queues := (refused_persists (f := f) (r := r) refused).waits
  have counters := (writes_enqueue e c f r).counters
  have uncounted : (e.enqueue c f r).engine.counters.messages = e.counters.messages := by
    rw [counters]
    simp [sending, refused]
  have closing (fault : Fault) (known : fault ∈ deliveryTroubles)
      (ends : e.enqueue c f r = (e.closeConnection c).2.receipt (.error fault) r) :
      Refused e c r (e.enqueue c f r) := by
    have same := receipt_connections (e.closeConnection c).2 (.error fault) r
    have shut := close_closed e c
    refine ⟨⟨_, fault, ?_, known, ends⟩, queues, uncounted, ?_, ?_⟩
    · rfl
    · rw [ends, isClosed_same same]
      exact shut.1
    · rw [ends, isCancelled_same same]
      exact shut.2
  cases read : e.connections[c]? with
  | none =>
    have ends : e.enqueue c f r = e.receipt (.error Trouble.closed) r := by
      simp only [enqueue, read]
    have same := receipt_connections e (.error Trouble.closed) r
    refine ⟨⟨e, _, rfl, List.mem_cons_self .., ends⟩, queues, uncounted, ?_, ?_⟩
    · rw [ends, isClosed_same same]
      simp only [isClosed, read]
    · rw [ends, isCancelled_same same]
      simp only [isCancelled, read]
  | some x =>
    cases reads : x.read with
    | false =>
      refine closing Trouble.queueGone (by simp [deliveryTroubles]) ?_
      simp only [enqueue, read, reads, Bool.not_false, ↓reduceIte]
    | true =>
      have room : e.hasRoom x = false := by simpa [Engine.takes, read, reads] using refused
      refine closing Trouble.tooSlow (by simp [deliveryTroubles]) ?_
      simp only [enqueue, read, reads, room, Bool.not_true, Bool.false_eq_true, ↓reduceIte]

inductive Dealing (e : Engine) : Action → Effect → Prop
  | closed (c : ConnectionId) (f : Frame) (r : Receipt) (g : Effect) (closed : e.isClosed c = true)
    (refused : Refused e c r g) : Dealing e (.offer c f r) g
  | waits (c : ConnectionId) (f : Frame) (r : Receipt) (isOpen : e.isClosed c = false) :
    Dealing e (.offer c f r) ⟨e, [.enqueue c f (e.now + e.setup.graceMs) r], []⟩
  | taken (c : ConnectionId) (f : Frame) (due : Nat) (r : Receipt) (g : Effect)
    (taken : Taken e c f r g) : Dealing e (.enqueue c f due r) g
  | refused (c : ConnectionId) (f : Frame) (due : Nat) (r : Receipt) (g : Effect)
    (refused : Refused e c r g) : Dealing e (.enqueue c f due r) g
  | apart (a : Action) (g : Effect) (noOffer : ∀ c f r, a ≠ .offer c f r)
    (noEntry : ∀ c f due r, a ≠ .enqueue c f due r) (queues : QueuesSame e g.engine)
    (uncounted : g.engine.counters.messages = e.counters.messages) : Dealing e a g

/-- The messages that an action counts are those that a queue takes by it. -/
theorem perform_messages (sound : e.books.Sound (duties (a :: rest))) :
    (e.perform a).engine.counters.messages =
      e.counters.messages + (accepted (e.happenings a)).length := by
  obtain ⟨l, makes, counting, -⟩ := perform_counts sound
  have counters : (e.perform a).engine.counters = l.foldl Counters.apply e.counters :=
    makes e.counters
  rw [counters]
  exact (counting_changes counting e.counters).2

theorem apart_accepts (noEntry : ∀ c f due r, a ≠ .enqueue c f due r) :
    accepted (e.happenings a) = [] := by
  cases a with
  | enqueue c f due r => exact absurd rfl (noEntry c f due r)
  | fanOut call? b event => simp [happenings, accepted, List.filterMap_map]
  | _ => rfl

theorem perform_dealing (dismissed : Dismissed e) (sound : e.books.Sound (duties (a :: rest))) :
    Dealing e a (e.perform a) := by
  have others (noOffer : ∀ c f r, a ≠ .offer c f r)
    (noEntry : ∀ c f due r, a ≠ .enqueue c f due r) :
      Dealing e a (e.perform a) := by
    refine .apart a _ noOffer noEntry (perform_persists e a noEntry).waits ?_
    rw [perform_messages sound, apart_accepts noEntry]
    rfl
  cases a with
  | offer c f r =>
    cases closed : e.isClosed c with
    | true => exact .closed c f r _ closed (closed_refused dismissed closed)
    | false =>
      have goes : e.perform (.offer c f r) =
          ⟨e, [.enqueue c f (e.now + e.setup.graceMs) r], []⟩ := by
        simp [perform, offer, closed]
      exact goes ▸ .waits c f r closed
  | enqueue c f due r =>
    cases takes : e.takes c with
    | true => exact .taken c f due r _ (enqueue_hands takes)
    | false => exact .refused c f due r _ (enqueue_refuses takes)
  | _ => exact others (by simp) (by simp)

/-! ## Room -/

def Roomy (e : Engine) : Prop := ∀ c, (e.queueOf c).length ≤ max e.setup.queueCapacity 1

theorem perform_roomy (a : Action) (roomy : Roomy e) : Roomy (e.perform a).engine := by
  intro c
  have setup := (perform_setup e a).1
  rw [setup]
  by_cases entering : ∃ c f due r, a = .enqueue c f due r
  · obtain ⟨c', f, due, r, rfl⟩ := entering
    rw [perform_queueOf]
    have room := roomy c
    cases takes : e.takes c' with
    | false => simpa [happenings, takes, entered] using room
    | true =>
      by_cases here : c' = c
      · subst here
        have less : (e.queueOf c').length < max e.setup.queueCapacity 1 := by
          simp only [Engine.takes, queueOf] at takes ⊢
          cases found : e.connections[c']? with
          | none => simp [found] at takes
          | some x =>
            simp only [found, Bool.and_eq_true, hasRoom, decide_eq_true_eq] at takes
            exact takes.2
        simp only [happenings, takes, ↓reduceIte, entered, List.filterMap_cons,
          List.filterMap_nil, List.length_append, List.length_singleton]
        omega
      · simpa [happenings, takes, entered, here] using room
  · have waits := (perform_persists e a fun c f due r same => entering ⟨c, f, due, r, same⟩).waits
    rw [waits c]
    exact roomy c

theorem input_roomy (i : Input) (roomy : Roomy e) : Roomy (i.apply e) := by
  intro c
  rw [(input_spares e i).2.2]
  exact Nat.le_trans (input_drains e i c).length_le (roomy c)

/-! ## Every play -/

def Dealings (log : Steps) : Prop := ∀ p ∈ log, Dealing p.1 p.2 (p.1.perform p.2)

/-- What is relied on besides: the books, one answer for every call, and two facts of
connections. -/
def Reliable : Fact := fun e ts log =>
  (Accounted e ts log ∧ Honored e ts.flatten) ∧ Dismissed e ∧ Roomy e

theorem connections_upheld {known : Fact} :
    Upheld known fun e _ _ => Dismissed e ∧ Roomy e where
  shuffle _ before := before
  idle before := before
  outside i _ before := ⟨input_dismissed i before.1, input_roomy i before.2⟩
  inside _ _ before := ⟨perform_dismissed _ before.1, perform_roomy _ before.2⟩

theorem start_reliable (setup : Setup) (hub : Hub) : Always (World.start setup hub) Reliable := by
  have honored : Honored (Engine.start setup hub) [] :=
    ⟨by simp, by simp [Engine.start, tickets], by simp [Engine.start, tickets]⟩
  refine ((start_accounted setup hub).and honored_upheld honored).and connections_upheld ⟨?_, ?_⟩
  · intro c z found
    simp [World.start, Engine.start] at found
  · intro c
    simp [World.start, Engine.start, queueOf]

theorem dealings_upheld : Upheld Reliable fun _ _ log => Dealings log where
  shuffle _ before := before
  idle before := before
  outside _ _ before := before
  inside {e a todo others log} _ known before p member := by
    rcases List.mem_append.mp member with old | last
    · exact before p old
    · obtain rfl := List.mem_singleton.mp last
      exact perform_dealing known.2.1 (known.1.1.sound (List.cons_append ..))

/-! ## Calls on their way -/

/-- A call that is neither lost nor made anything else of: of what is pending only such actions
belong to it, and there is one of them until it has been answered. -/
structure Underway (own : Action → Prop) (k : CallId) (e : Engine) (pool : List Action) : Prop where
  made : k < e.calls
  own : ∀ a ∈ pool, a.ticket? = some k → own a
  kept : k ∈ tickets pool ∨ ∃ r, (k, r) ∈ e.replies

theorem unanswered_pending (honored : Honored e pool) (waiting : k ∈ tickets pool) (r : Reply) :
    (k, r) ∉ e.replies := by
  intro replied
  obtain ⟨-, -, apart⟩ := List.nodup_append.mp honored.once
  exact apart k (List.mem_map_of_mem replied) k waiting rfl

theorem alone_pending (honored : Honored e (a :: rest)) (whose : a.ticket? = some k) :
    k ∉ tickets rest := by
  have once := (List.nodup_append.mp honored.once).2.1
  rw [tickets_cons, whose] at once
  have single : (k :: tickets rest).Nodup := once
  exact (List.nodup_cons.mp single).1

theorem honored_serves (sound : e.books.Sound (duties (a :: rest)))
    (honored : Honored e (a :: rest)) : Serves e a (e.perform a) :=
  perform_serves sound fun call r same => honored.plain call r (same ▸ List.mem_cons_self ..)

theorem replies_last {r : Reply} (serves : Serves e a (e.perform a))
    (replied : (k, r) ∈ e.replies) :
    (k, r) ∈ (e.perform a).engine.replies := by
  cases serves.answered with
  | none same _ => rwa [same]
  | reply call r' _ told _ _ =>
    rw [told]
    exact List.mem_append_left _ replied

theorem perform_underway {own : Action → Prop} (whose : ∀ a, own a → a.ticket? = some k)
    (goes : ∀ (e : Engine) (a : Action), own a → (∃ x, (e.perform a).sequel = [x] ∧ own x) ∨
      ∃ r, (k, r) ∈ (e.perform a).engine.replies)
    (honored : Honored e (a :: rest)) (serves : Serves e a (e.perform a))
    (underway : Underway own k e (a :: rest)) :
    Underway own k (e.perform a).engine ((e.perform a).sequel ++ rest) := by
  have made : k < (e.perform a).engine.calls := serves.calls ▸ underway.made
  have after (x : Action) (member : x ∈ rest) (its : x.ticket? = some k) : own x :=
    underway.own x (List.mem_cons_of_mem _ member) its
  by_cases its : a.ticket? = some k
  · have waiting : k ∈ tickets (a :: rest) := mem_tickets (List.mem_cons_self ..) its
    rcases goes e a (underway.own a (List.mem_cons_self ..) its) with ⟨x, next, same⟩ | ⟨r, replied⟩
    · rw [next]
      refine ⟨made, fun y member its' => ?_,
        .inl (mem_tickets (List.mem_cons_self ..) (whose x same))⟩
      rcases List.mem_cons.mp member with rfl | old
      · exact same
      · exact after y old its'
    · refine ⟨made, fun x member its' => ?_, .inr ⟨r, replied⟩⟩
      rcases List.mem_append.mp member with new | old
      · cases serves.answered with
        | none same _ =>
          exact absurd (same ▸ replied) (unanswered_pending honored waiting r)
        | reply _ _ _ _ finished _ =>
          have pending := mem_tickets new its'
          simp [finished] at pending
      · exact after x old its'
  · refine ⟨made, fun x member its' => ?_, ?_⟩
    · rcases List.mem_append.mp member with new | old
      · exact absurd (sequel_whose serves.answered new its') its
      · exact after x old its'
    · rcases underway.kept with waiting | ⟨r, replied⟩
      · left
        rw [tickets_cons, List.mem_append] at waiting
        rw [tickets_append]
        exact List.mem_append_right _ (waiting.resolve_left (by simpa using its))
      · exact .inr ⟨r, replies_last serves replied⟩

theorem input_underway {own : Action → Prop} (i : Input) (underway : Underway own k e pool) :
    Underway own k (i.apply e) (i.task e ++ pool) := by
  refine ⟨input_made i underway.made, fun x member its => ?_, ?_⟩
  · rcases List.mem_append.mp member with new | old
    · exact absurd its (task_whose underway.made new)
    · exact underway.own x old its
  · rw [input_replies, tickets_append]
    exact underway.kept.imp_left (List.mem_append_right _)

theorem underway_upheld {own : Action → Prop} (whose : ∀ a, own a → a.ticket? = some k)
    (goes : ∀ (e : Engine) (a : Action), own a → (∃ x, (e.perform a).sequel = [x] ∧ own x) ∨
      ∃ r, (k, r) ∈ (e.perform a).engine.replies) :
    Upheld Reliable fun e ts _ => Underway own k e ts.flatten := by
  refine upheld_pending (P := fun e pool _ => Underway own k e pool) ?_ ?_ ?_
  · intro e p q log perm underway
    exact ⟨underway.made, fun a member => underway.own a (perm.mem_iff.mpr member),
      underway.kept.imp_left (perm.filterMap _).mem_iff.mp⟩
  · intro e ts log i _ underway
    exact input_underway i underway
  · rintro e a rest ts log - pending ⟨⟨sound, honored⟩, -⟩ underway
    rw [pending] at honored
    exact perform_underway whose goes honored
      (honored_serves (sound.sound pending) honored) underway

theorem underway_begun {own : Action → Prop} {w : World} (call : Call)
    (honored : Honored w.state w.pending) (first : ∀ a ∈ call.task w.state.calls, own a)
    (some : w.state.calls ∈ tickets (call.task w.state.calls)) :
    Underway own w.state.calls (w.input (.call call)).state (w.input (.call call)).pending := by
  rw [World.input_state, World.input_pending]
  refine ⟨Nat.lt_succ_self _, fun a member whose => ?_, .inl ?_⟩
  · rcases List.mem_append.mp member with old | new
    · have known := honored.known _ (List.mem_append_right _ (mem_tickets old whose))
      exact absurd known (Nat.lt_irrefl _)
    · exact first a new
  · rw [tickets_append]
    exact List.mem_append_right _ some

/-! ## What has been done for a call -/

def handed? (k : CallId) : Happening → Option (ConnectionId × Frame)
  | .queued c f (.call k') => if k' = k then some (c, f) else none
  | _ => none

def handed (k : CallId) (log : Steps) : List (ConnectionId × Frame) :=
  (log.flatMap fun p => p.1.happenings p.2).filterMap (handed? k)

def countedBy (k : CallId) (log : Steps) : Nat :=
  ((log.filter fun p => p.2.ticket? == some k).map fun p =>
    (p.1.perform p.2).engine.counters.messages - p.1.counters.messages).sum

/-- What the answer to a delivery says of it. -/
def Acquits (k : CallId) (c : ConnectionId) (f : Frame) (e : Engine) (log : Steps) : Reply → Prop
  | .done => handed k log = [(c, f)] ∧ countedBy k log = if f.isMessage then 1 else 0
  | .failed fault => fault ∈ deliveryTroubles ∧ handed k log = [] ∧ countedBy k log = 0 ∧
      e.isClosed c = true
  | _ => False

def Delivering (k : CallId) (c : ConnectionId) (f : Frame) (a : Action) : Prop :=
  a = .offer c f (.call k) ∨ ∃ due, a = .enqueue c f due (.call k)

structure Delivers (k : CallId) (c : ConnectionId) (f : Frame) (e : Engine) (pool : List Action)
    (log : Steps) : Prop where
  there : c < e.connections.length
  waits : k ∈ tickets pool → handed k log = [] ∧ countedBy k log = 0
  answered : ∀ r, (k, r) ∈ e.replies → Acquits k c f e log r

theorem handed_snoc (k : CallId) (log : Steps) (e : Engine) (a : Action) :
    handed k (log ++ [(e, a)]) = handed k log ++ (e.happenings a).filterMap (handed? k) := by
  simp [handed]

theorem countedBy_snoc (k : CallId) (log : Steps) (e : Engine) (a : Action) :
    countedBy k (log ++ [(e, a)]) = countedBy k log + if a.ticket? = some k then
      (e.perform a).engine.counters.messages - e.counters.messages else 0 := by
  by_cases whose : a.ticket? = some k <;> simp [countedBy, whose]

theorem others_hand_nothing (e : Engine) (other : a.ticket? ≠ some k) :
    (e.happenings a).filterMap (handed? k) = [] := by
  cases a with
  | enqueue c f due r =>
    simp only [happenings]
    split
    · cases r with
      | call k' =>
        have differ : k' ≠ k := fun same => other (by rw [same]; rfl)
        simp [handed?, differ]
      | event | ending => rfl
    · rfl
  | fanOut call? b event =>
    simp only [happenings, List.filterMap_map, List.filterMap_eq_nil_iff]
    intro t _
    rfl
  | _ => rfl

def replyTo : Except Fault Unit → Reply
  | .ok _ => .done
  | .error fault => .failed fault

theorem receipt_answers (e : Engine) (result : Except Fault Unit) (k : CallId) :
    (e.receipt result (.call k)).sequel = [] ∧
      (e.receipt result (.call k)).engine.replies = e.replies ++ [(k, replyTo result)] := by
  cases result with
  | ok => exact ⟨rfl, rfl⟩
  | error => exact ⟨rfl, rfl⟩

theorem Acquits.lasts {log' : Steps} {r : Reply} (acquits : Acquits k c f e log r)
    (sameHanded : handed k log' = handed k log) (sameCounted : countedBy k log' = countedBy k log)
    (closed : e.isClosed c = true → e'.isClosed c = true) : Acquits k c f e' log' r := by
  cases r with
  | done => rwa [Acquits, sameHanded, sameCounted]
  | failed fault =>
    obtain ⟨known, none, nought, shut⟩ := acquits
    exact ⟨known, sameHanded.trans none, sameCounted.trans nought, closed shut⟩
  | subscribed | scheduled => exact acquits

theorem perform_stays_closed (e : Engine) (a : Action) (closed : e.isClosed c = true) :
    (e.perform a).engine.isClosed c = true := by
  cases after : (e.perform a).engine.isClosed c with
  | true => rfl
  | false => simp [perform_closed e a after] at closed

theorem input_stays_closed (i : Input) (there : c < e.connections.length)
    (closed : e.isClosed c = true) : (i.apply e).isClosed c = true := by
  cases after : (i.apply e).isClosed c with
  | true => rfl
  | false => simp [(input_onward e i).closed c there after] at closed

theorem enqueue_answers (e : Engine) (c : ConnectionId) (f : Frame) (k : CallId) :
    (e.enqueue c f (.call k)).sequel = [] ∧
      ∃ r, (k, r) ∈ (e.enqueue c f (.call k)).engine.replies := by
  have answers (result : Except Fault Unit) (e' : Engine)
      (returns : e.enqueue c f (.call k) = e'.receipt result (.call k)) :
      (e.enqueue c f (.call k)).sequel = [] ∧
        ∃ r, (k, r) ∈ (e.enqueue c f (.call k)).engine.replies := by
    obtain ⟨finished, told⟩ := receipt_answers e' result k
    rw [← returns] at finished told
    exact ⟨finished, _, told ▸ List.mem_append_right _ (List.mem_singleton_self _)⟩
  cases takes : e.takes c with
  | true =>
    obtain ⟨e', -, returns⟩ := (enqueue_hands (f := f) (r := .call k) takes).returns
    exact answers (.ok ()) e' returns
  | false =>
    obtain ⟨e', fault, -, -, returns⟩ := (enqueue_refuses (f := f) (r := .call k) takes).returns
    exact answers (.error fault) e' returns

theorem offer_answers_or_waits (e : Engine) (c : ConnectionId) (f : Frame) (k : CallId) :
    (∃ r, (k, r) ∈ (e.offer c f (.call k)).engine.replies) ∨
      e.offer c f (.call k) = ⟨e, [.enqueue c f (e.now + e.setup.graceMs) (.call k)], []⟩ := by
  cases closed : e.isClosed c with
  | true =>
    left
    simp only [offer, closed, ↓reduceIte]
    obtain ⟨-, told⟩ := receipt_answers e (.error Trouble.closed) k
    exact ⟨_, told ▸ List.mem_append_right _ (List.mem_singleton_self _)⟩
  | false =>
    right
    simp [offer, closed]

theorem delivering_underway (k : CallId) (c : ConnectionId) (f : Frame) :
    Upheld Reliable fun e ts _ => Underway (Delivering k c f) k e ts.flatten := by
  refine underway_upheld ?_ ?_
  · rintro a (rfl | ⟨due, rfl⟩) <;> rfl
  · rintro e a (rfl | ⟨due, rfl⟩)
    · rcases offer_answers_or_waits e c f k with replied | goes
      · exact .inr replied
      · left
        simp only [perform, goes]
        exact ⟨_, rfl, .inr ⟨_, rfl⟩⟩
    · exact .inr (enqueue_answers e c f k).2

theorem Delivers.others (delivers : Delivers k c f e (a :: rest) log)
    (serves : Serves e a (e.perform a)) (other : a.ticket? ≠ some k) :
    Delivers k c f (e.perform a).engine ((e.perform a).sequel ++ rest) (log ++ [(e, a)]) := by
  have sameHanded : handed k (log ++ [(e, a)]) = handed k log := by
    rw [handed_snoc, others_hand_nothing e other, List.append_nil]
  have sameCounted : countedBy k (log ++ [(e, a)]) = countedBy k log := by
    simp [countedBy_snoc, other]
  have pending (member : k ∈ tickets ((e.perform a).sequel ++ rest)) : k ∈ tickets (a :: rest) := by
    obtain ⟨x, among, whose⟩ := List.mem_filterMap.mp member
    rcases List.mem_append.mp among with new | old
    · exact absurd (sequel_whose serves.answered new whose) other
    · exact mem_tickets (List.mem_cons_of_mem _ old) whose
  refine ⟨(perform_setup e a).2 ▸ delivers.there, fun member => ?_, fun r replied => ?_⟩
  · rw [sameHanded, sameCounted]
    exact delivers.waits (pending member)
  · rcases replied_whose serves.answered replied with old | ⟨whose, -⟩
    · exact (delivers.answered r old).lasts sameHanded sameCounted (perform_stays_closed e a)
    · exact absurd whose other

theorem Delivers.turn (delivers : Delivers k c f e (a :: rest) log) (dismissed : Dismissed e)
    (honored : Honored e (a :: rest)) (own : Delivering k c f a) (whose : a.ticket? = some k) :
    Delivers k c f (e.perform a).engine ((e.perform a).sequel ++ rest) (log ++ [(e, a)]) := by
  have waiting : k ∈ tickets (a :: rest) := mem_tickets (List.mem_cons_self ..) whose
  have unanswered := unanswered_pending honored waiting
  obtain ⟨none, nought⟩ := delivers.waits waiting
  have there : c < (e.perform a).engine.connections.length :=
    (perform_setup e a).2 ▸ delivers.there
  have answers (result : Except Fault Unit) (e' : Engine) (same : e'.replies = e.replies)
      (returns : e.perform a = e'.receipt result (.call k))
      (fits : Acquits k c f (e.perform a).engine (log ++ [(e, a)]) (replyTo result)) :
      Delivers k c f (e.perform a).engine ((e.perform a).sequel ++ rest) (log ++ [(e, a)]) := by
    obtain ⟨finished, told⟩ := receipt_answers e' result k
    rw [← returns] at finished told
    rw [same] at told
    refine ⟨there, fun member => ?_, fun r replied => ?_⟩
    · rw [finished] at member
      exact absurd member (alone_pending honored whose)
    · rw [told, List.mem_append] at replied
      have last := replied.resolve_left (unanswered r)
      obtain ⟨-, rfl⟩ := Prod.mk.inj (List.mem_singleton.mp last)
      exact fits
  have silent (nothing : (e.happenings a).filterMap (handed? k) = []) :
      handed k (log ++ [(e, a)]) = [] := by
    rw [handed_snoc, none, nothing]
    rfl
  have refuses (refused : Refused e c (.call k) (e.perform a))
      (nothing : (e.happenings a).filterMap (handed? k) = []) :
      Delivers k c f (e.perform a).engine ((e.perform a).sequel ++ rest) (log ++ [(e, a)]) := by
    obtain ⟨e', fault, same, known, returns⟩ := refused.returns
    refine answers (.error fault) e' same returns ?_
    refine ⟨known, silent nothing, ?_, refused.closed⟩
    simp [countedBy_snoc, whose, nought, refused.uncounted]
  rcases own with rfl | ⟨due, rfl⟩
  · cases closed : e.isClosed c with
    | true => exact refuses (closed_refused dismissed closed) rfl
    | false =>
      have goes : e.perform (.offer c f (.call k)) =
          ⟨e, [.enqueue c f (e.now + e.setup.graceMs) (.call k)], []⟩ := by
        simp [perform, offer, closed]
      refine ⟨there, fun _ => ⟨silent rfl, ?_⟩, fun r replied => ?_⟩
      · simp [countedBy_snoc, nought, goes]
      · rw [goes] at replied
        exact absurd replied (unanswered r)
  · cases takes : e.takes c with
    | false => exact refuses (enqueue_refuses takes) (by simp [happenings, takes])
    | true =>
      have taken : Taken e c f (.call k) (e.enqueue c f (.call k)) := enqueue_hands takes
      obtain ⟨e', same, returns⟩ := taken.returns
      refine answers (.ok ()) e' same returns ?_
      refine ⟨?_, ?_⟩
      · simp [handed_snoc, none, happenings, takes, handed?]
      · simp [countedBy_snoc, whose, nought, perform, taken.counted]

theorem delivers_upheld (k : CallId) (c : ConnectionId) (f : Frame) :
    Upheld (fun e ts log => Reliable e ts log ∧ Underway (Delivering k c f) k e ts.flatten)
      fun e ts log => Delivers k c f e ts.flatten log := by
  refine upheld_pending (P := Delivers k c f) ?_ ?_ ?_
  · intro e p q log perm delivers
    have same : k ∈ tickets q ↔ k ∈ tickets p := (perm.filterMap _).symm.mem_iff
    exact ⟨delivers.there, fun member => delivers.waits (same.mp member), delivers.answered⟩
  · rintro e ts log i ⟨-, underway⟩ delivers
    have onward := input_onward e i
    refine ⟨Nat.lt_of_lt_of_le delivers.there onward.made, fun member => ?_, ?_⟩
    · rw [tickets_append] at member
      refine delivers.waits ((List.mem_append.mp member).resolve_left fun new => ?_)
      obtain ⟨x, among, whose⟩ := List.mem_filterMap.mp new
      exact task_whose underway.made among whose
    · rw [input_replies]
      exact fun r replied => (delivers.answered r replied).lasts rfl rfl
        (input_stays_closed i delivers.there)
  · rintro e a rest ts log - pending ⟨⟨⟨sound, honored⟩, dismissed, -⟩, underway⟩ delivers
    rw [pending] at honored underway
    by_cases whose : a.ticket? = some k
    · exact delivers.turn dismissed honored (underway.own a (List.mem_cons_self ..) whose) whose
    · exact delivers.others (honored_serves (sound.sound pending) honored) whose

theorem delivers_begun {w : World} (honored : Honored w.state w.pending)
    (there : c < w.state.connections.length) :
    Delivers w.state.calls c f (w.input (.call (.deliver c f))).state
      (w.input (.call (.deliver c f))).pending [] := by
  rw [World.input_state]
  refine ⟨there, fun _ => ⟨rfl, rfl⟩, fun r replied => ?_⟩
  have known := honored.known _ (List.mem_append_left _ (List.mem_map_of_mem replied))
  exact absurd known (Nat.lt_irrefl _)

/-! ## After a closing -/

/-- A call that has come too late: it has still to look at the connection, which is closed, or it
has been answered. -/
structure Belated (k : CallId) (c : ConnectionId) (f : Frame) (e : Engine) (pool : List Action)
    (log : Steps) : Prop where
  there : c < e.connections.length
  closed : e.isClosed c = true
  own : ∀ a ∈ pool, a.ticket? = some k → a = .offer c f (.call k)
  none : handed k log = []

theorem perform_belated (belated : Belated k c f e (a :: rest) log)
    (serves : Serves e a (e.perform a)) :
    Belated k c f (e.perform a).engine ((e.perform a).sequel ++ rest) (log ++ [(e, a)]) := by
  refine ⟨(perform_setup e a).2 ▸ belated.there, perform_stays_closed e a belated.closed,
    fun x member whose => ?_, ?_⟩
  · rcases List.mem_append.mp member with new | old
    · obtain rfl := belated.own a (List.mem_cons_self ..) (sequel_whose serves.answered new whose)
      have nothing : (e.perform (.offer c f (.call k))).sequel = [] := by
        simp only [perform, offer, belated.closed, ↓reduceIte]
        exact (receipt_answers e (.error Trouble.closed) k).1
      rw [nothing] at new
      exact absurd new List.not_mem_nil
    · exact belated.own x (List.mem_cons_of_mem _ old) whose
  · rw [handed_snoc, belated.none]
    by_cases whose : a.ticket? = some k
    · obtain rfl := belated.own a (List.mem_cons_self ..) whose
      rfl
    · exact others_hand_nothing e whose

theorem belated_upheld (k : CallId) (c : ConnectionId) (f : Frame) :
    Upheld (fun e ts log => Reliable e ts log ∧ Underway (Delivering k c f) k e ts.flatten)
      fun e ts log => Belated k c f e ts.flatten log := by
  refine upheld_pending (P := Belated k c f) ?_ ?_ ?_
  · intro e p q log perm belated
    exact { belated with own := fun a member => belated.own a (perm.mem_iff.mpr member) }
  · rintro e ts log i ⟨-, underway⟩ belated
    refine ⟨Nat.lt_of_lt_of_le belated.there (input_onward e i).made,
      input_stays_closed i belated.there belated.closed, fun a member whose => ?_, belated.none⟩
    rcases List.mem_append.mp member with new | old
    · exact absurd whose (task_whose underway.made new)
    · exact belated.own a old whose
  · rintro e a rest ts log - pending ⟨⟨⟨sound, honored⟩, -⟩, -⟩ belated
    rw [pending] at honored
    exact perform_belated belated (honored_serves (sound.sound pending) honored)

theorem belated_begun {w : World} (honored : Honored w.state w.pending)
    (there : c < w.state.connections.length) (closed : w.state.isClosed c = true) :
    Belated w.state.calls c f (w.input (.call (.deliver c f))).state
      (w.input (.call (.deliver c f))).pending [] := by
  rw [World.input_state, World.input_pending]
  refine ⟨there, closed, fun a member whose => ?_, rfl⟩
  rcases List.mem_append.mp member with old | new
  · have known := honored.known _ (List.mem_append_right _ (mem_tickets old whose))
    exact absurd known (Nat.lt_irrefl _)
  · exact List.mem_singleton.mp new

end Engine

end SubscriptionGateway
