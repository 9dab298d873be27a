import SubscriptionGateway.Proofs.Engine.Reuse
import SubscriptionGateway.Proofs.Server.Writers

/-!
An id that a client has no subscription for. When one of it has ended, or its session says that one
is complete, nothing is registered for the id any more and nobody asks for it. That stays so until
the client asks for it again, and until then its session says of the id only that it is complete.
-/
namespace SubscriptionGateway

open Broker

namespace Engine

variable {e : Engine} {a : Action} {s : SubscriptionId} {x : Subscriber} {c : ConnectionId}
  {id : String} {rest : List Action}

theorem ended_step {k : Ending} {log : Steps} (ended : k ∈ ended s log) :
    ∃ p ∈ log, endings s p.1 p.2 ≠ [] := by
  obtain ⟨p, member, brings⟩ := List.mem_flatMap.mp ended
  exact ⟨p, member, List.ne_nil_of_mem brings⟩

theorem ending_registered (ends : endings s e a ≠ []) : e.isRegistered s = true := by
  by_contra absent
  exact ends (endings_none (.inr (by simpa using absent)))

theorem ending_record (found : e.subscribers[s]? = some x) (ends : endings s e a ≠ []) :
    ∃ x', (e.perform a).engine.subscribers[s]? = some x' ∧ x'.life.phase = .cancelled := by
  have registered := ending_registered ends
  cases a with
  | unsubscribe s' =>
    obtain rfl : s' = s := by
      by_contra other
      exact ends (if_neg fun both => other both.1)
    exact ⟨_, unsubscribe_record found registered, rfl⟩
  | terminate s' t =>
    obtain rfl : s' = s := by
      by_contra other
      exact ends (if_neg fun both => other both.1)
    exact ⟨_, terminate_record found registered, rfl⟩
  | _ => exact absurd rfl ends

theorem ended_unheld (ready : e.ready a = true) (sound : e.books.Sound (duties (a :: rest)))
    (ends : endings s e a ≠ []) (holds : Holds e c id s) (sole : ∀ s', Holds e c id s' → s' = s) :
    Unheld (e.perform a).engine c id := by
  intro s' still
  rcases perform_holds sound still with old | ⟨-, b, seeks⟩
  · obtain rfl := sole s' old
    obtain ⟨x, found, -⟩ := holds.record
    obtain ⟨x', found', cancelled⟩ := ending_record found ends
    have active := ((perform_keeps ready sound).1.active_iff s').mp
      ((isRegistered_iff _ s').mp still.registered)
    simp [books, found', cancelled] at active
  · cases a with
    | join | openSource => exact ends rfl
    | _ => simp [Action.seeks?] at seeks

end Engine

namespace Server

open Engine (Holds Unheld Grounded)

variable {s s' : Server} {k : PeerId} {c : ConnectionId} {id : String} {e : Engine} {a : Action}
  {task todo : List Action} {ts us others : List (List Action)} {log more : Steps} {setup : Setup}
  {hub : Hub} {first : Server} {x : SubscriptionId}

/-- An action ends a subscription that a client has, or has its session say that it is complete. -/
inductive Closes (s : Server) (k : PeerId) (c : ConnectionId) (id : String)
    (a : Action) : Prop where
  | told (complete : .complete id ∈ s.tells k a)
  | ended (b : Engine.Action) (x : SubscriptionId) (y : Subscriber) (same : a = .engine b)
      (ends : Engine.endings x s.engine b ≠ []) (found : s.engine.subscribers[x]? = some y)
      (connection : y.connection = c) (clientId : y.clientId = id)

/-! ## An id that nobody asks for -/

structure Unsought (k : PeerId) (c : ConnectionId) (id : String) (e : Engine)
    (ts : List (List Action)) : Prop where
  unasked : ∀ task ∈ ts, (c, id) ∉ aims e task
  served : ∀ task ∈ ts, ∀ call, .subscribed k id call ∈ task →
    ∃ r, (call, r) ∈ e.replies ∧ ∀ fault, r ≠ .failed fault

theorem Unsought.perm (unsought : Unsought k c id e ts) (perm : ts.Perm us) :
    Unsought k c id e us where
  unasked task member := unsought.unasked task (perm.mem_iff.mpr member)
  served task member := unsought.served task (perm.mem_iff.mpr member)

theorem Unsought.tail (unsought : Unsought k c id e (task :: ts)) : Unsought k c id e ts where
  unasked u member := unsought.unasked u (List.mem_cons_of_mem _ member)
  served u member := unsought.served u (List.mem_cons_of_mem _ member)

theorem subscribed_reads {call : CallId} (member : .subscribed k id call ∈ task) :
    readBy k task = true := List.any_eq_true.mpr ⟨_, member, by simp [Action.reads?]⟩

theorem Reading.unsought (reading : Reading k c e ts) (holds : Holds e c id x) :
    Unsought k c id e ts where
  unasked task member aim := reading.unheld (mem_aims_flatten.mpr ⟨task, member, aim⟩) x holds
  served task member call inside := by
    obtain ⟨before, after, rfl⟩ := List.append_of_mem member
    have stage := ((reading.shuffle List.perm_middle).alone (subscribed_reads inside)).2
    generalize same : [task] = us at stage
    cases stage with
    | gone => simp at same
    | waits | ends =>
      obtain rfl : task = _ := by simpa using same
      simp at inside
    | asks b call' id' whose aim unheld =>
      obtain rfl : task = _ := by simpa using same
      obtain ⟨rfl, -⟩ : id = id' ∧ call = call' := by simpa using inside
      exact absurd holds (unheld x)
    | answered call' id' r told refused =>
      obtain rfl : task = _ := by simpa using same
      obtain ⟨rfl, rfl⟩ : id = id' ∧ call = call' := by simpa using inside
      exact ⟨r, told, fun fault failed => refused fault failed x holds⟩
    | ended es =>
      obtain rfl : task = _ := by simpa using same
      simp at inside

theorem Reading.rests (reading : Reading k c e (task :: others)) (mine : readBy k task = true) :
    Unsought k c id e ((s.readOn k).next :: others) where
  unasked u member aim := by
    rcases List.mem_cons.mp member with rfl | old
    · simp only [readOn] at aim
      split at aim <;> simp [aims, inner, Action.engine?] at aim
    · have none := List.filter_eq_nil_iff.mp (reading.alone mine).1 u old
      exact reading.elsewhere u (List.mem_cons_of_mem _ old) (by simpa using none) id aim
  served u member call inside := by
    rcases List.mem_cons.mp member with rfl | old
    · simp only [readOn] at inside
      split at inside <;> simp at inside
    · exact absurd (subscribed_reads inside)
        (List.filter_eq_nil_iff.mp (reading.alone mine).1 u old)

/-! ### What is done -/

section Engine

variable {b : Engine.Action}

theorem engine_unasked (grounded : Grounded e (b :: (inner todo ++ inner others.flatten)))
    (unasked : ∀ u ∈ (.engine b :: todo) :: others, (c, id) ∉ aims e u) :
    ∀ u ∈ ((e.perform b).next.map Action.engine ++ todo) ::
      ((e.perform b).started.map (·.map Action.engine) ++ others),
      (c, id) ∉ aims (e.perform b).engine u := by
  have own : b.aim? e ≠ some (c, id) := fun aim =>
    unasked _ (List.mem_cons_self ..) (by simp [aims, inner, Action.engine?, aim])
  have still (u : List Action) (within : ∀ b' ∈ inner u, b' ∈ inner todo ++ inner others.flatten) :
      aims (e.perform b).engine u = aims e u :=
    aims_same fun b' member => Engine.perform_aims grounded b' (within b' member)
  intro u member aim
  rcases List.mem_cons.mp member with rfl | member
  · rw [aims_append, List.mem_append,
      still todo fun b' inside => List.mem_append_left _ inside] at aim
    rcases aim with new | old
    · exact own (brought_aims grounded mem_next new)
    · refine unasked _ (List.mem_cons_self ..) ?_
      rw [← List.singleton_append, aims_append]
      exact List.mem_append_right _ old
  rcases List.mem_append.mp member with new | old
  · obtain ⟨es, started, rfl⟩ := List.mem_map.mp new
    exact own (brought_aims grounded (mem_started started) aim)
  · rw [still u fun b' inside => List.mem_append_right _ (mem_inner_flatten old inside)] at aim
    exact unasked u (List.mem_cons_of_mem _ old) aim

theorem engine_unsought (grounded : Grounded e (b :: (inner todo ++ inner others.flatten)))
    (unsought : Unsought k c id e ((.engine b :: todo) :: others)) :
    Unsought k c id (e.perform b).engine (((e.perform b).next.map Action.engine ++ todo) ::
      ((e.perform b).started.map (·.map Action.engine) ++ others)) := by
  have lasts {call : CallId} {r : Reply} (told : (call, r) ∈ e.replies) :
      (call, r) ∈ (e.perform b).engine.replies :=
    Engine.told_lasts (Engine.perform_serves grounded.sound fun call r same =>
      grounded.honored.plain call r (same ▸ List.mem_cons_self ..)).answered told
  refine ⟨engine_unasked grounded unsought.unasked, fun u member call inside => ?_⟩
  · have before : ∃ task ∈ (.engine b :: todo) :: others, .subscribed k id call ∈ task := by
      rcases List.mem_cons.mp member with rfl | member
      · exact ⟨_, List.mem_cons_self .., by simpa using inside⟩
      rcases List.mem_append.mp member with new | old
      · obtain ⟨es, -, rfl⟩ := List.mem_map.mp new
        simp at inside
      · exact ⟨u, List.mem_cons_of_mem _ old, inside⟩
    obtain ⟨task, there, asked⟩ := before
    obtain ⟨r, told, served⟩ := unsought.served task there call asked
    exact ⟨r, lasts told, served⟩

end Engine

theorem conduct_subscribed {f : Effect} (conduct : Conduct s a f) {call : CallId}
    (member : task ∈ f.next :: f.started) (inside : .subscribed k id call ∈ task) :
    s.asksFor? k a = some id := by
  have unread {rest : List Action} (apart : aside rest = true)
      (inside : .subscribed k id call ∈ rest) : False := by
    simpa [Action.reads?] using aside_reads apart inside
  cases conduct with
  | alone _ next started =>
    obtain rfl : task = f.next := by simpa [started] using member
    exact (unread next inside).elim
  | waits k' since before due? _ _ next started =>
    obtain rfl : task = _ := by simpa [started, next] using member
    simp at inside
  | asks call' ending rest _ next session started =>
    obtain rfl : task = _ := by simpa [started, next] using member
    exact (unread session (by simpa using inside)).elim
  | subscribes k' since before due? p c' t id' r same peer connection message decoded _ _ next
      started =>
    obtain rfl : task = _ := by simpa [started, next] using member
    obtain ⟨rfl, rfl, -⟩ : k = k' ∧ id = id' ∧ call = s.engine.calls := by simpa using inside
    subst same
    simp [asksFor?, peer, connection, message, WebSocket.Protocol.subscribes?, decoded]
  | unsubscribes k' p c' id' sub _ _ _ _ _ next started =>
    obtain rfl : task = _ := by simpa [started, next] using member
    simp at inside
  | sends c' _ next started =>
    have either : task = [] ∨
        task = ((Engine.Call.release c').task s.engine.calls).map Action.engine := by
      simpa [next, started] using member
    rcases either with rfl | rfl <;> simp at inside

theorem session_unasked {f : Effect} (conduct : Conduct s a f) (calm : inner todo = [])
    (quiet : ∀ u ∈ f.next :: f.started, (c, id) ∉ aims f.server.engine u)
    (unasked : ∀ u ∈ (a :: todo) :: others, (c, id) ∉ aims s.engine u) :
    ∀ u ∈ (f.next ++ todo) :: (f.started ++ others), (c, id) ∉ aims f.server.engine u := by
  have spared : Engine.Spared c (inner others.flatten) s.engine f.server.engine :=
    conduct_spared conduct
  intro u member
  rcases List.mem_cons.mp member with rfl | member
  · rw [aims_append, aims, aims, calm, List.filterMap_nil, List.append_nil]
    exact quiet _ (List.mem_cons_self ..)
  rcases List.mem_append.mp member with new | old
  · exact quiet u (List.mem_cons_of_mem _ new)
  · rw [aims_same fun b inside => spared.aims b (mem_inner_flatten old inside)]
    exact unasked u (List.mem_cons_of_mem _ old)

theorem session_unsought {f : Effect} (conduct : Conduct s a f) (calm : inner todo = [])
    (apart : ∀ k', s.Sits k' c → k' = k) (silent : s.asksFor? k a ≠ some id)
    (unsought : Unsought k c id s.engine ((a :: todo) :: others)) :
    Unsought k c id f.server.engine ((f.next ++ todo) :: (f.started ++ others)) := by
  have spared : Engine.Spared c (inner others.flatten) s.engine f.server.engine :=
    conduct_spared conduct
  have unasked (u : List Action) (member : u ∈ f.next :: f.started) :
      (c, id) ∉ aims f.server.engine u := fun aim => by
    obtain ⟨k', -, sits, asked, -⟩ := session_aims conduct member aim
    exact silent (apart k' sits ▸ asked)
  have quiet (u : List Action) (member : u ∈ f.next :: f.started) (call : CallId) :
      .subscribed k id call ∉ u := fun inside =>
    silent (conduct_subscribed conduct member inside)
  have lasts {task : List Action} {call : CallId} (member : task ∈ (a :: todo) :: others)
      (inside : .subscribed k id call ∈ task) :
      ∃ r, (call, r) ∈ f.server.engine.replies ∧ ∀ fault, r ≠ .failed fault := by
    obtain ⟨r, told, served⟩ := unsought.served task member call inside
    exact ⟨r, spared.told _ told, served⟩
  refine ⟨session_unasked conduct calm unasked unsought.unasked, fun u member call inside => ?_⟩
  · rcases List.mem_cons.mp member with rfl | member
    · rcases List.mem_append.mp inside with new | old
      · exact absurd new (quiet _ (List.mem_cons_self ..) call)
      · exact lasts (List.mem_cons_self ..) (List.mem_cons_of_mem _ old)
    rcases List.mem_append.mp member with new | old
    · exact absurd inside (quiet u (List.mem_cons_of_mem _ new) call)
    · exact lasts (List.mem_cons_of_mem _ old) inside

theorem outside_unasked {w : World} (arrival : Arrival s w) (seated : Seated s ts)
    (sits : s.Sits k c) (unasked : ∀ u ∈ ts, (c, id) ∉ aims s.engine u) :
    ∀ u ∈ w.tasks ++ ts, (c, id) ∉ aims w.state.engine u := by
  have spared : Engine.Spared c (inner ts.flatten) s.engine w.state.engine :=
    arrival_spared arrival
  intro u member aim
  rcases List.mem_append.mp member with new | old
  · exact Nat.ne_of_lt (seated.bounded k c sits) (arrival_aims arrival new aim).1
  · rw [aims_same fun b inside => spared.aims b (mem_inner_flatten old inside)] at aim
    exact unasked u old aim

theorem outside_unsought {w : World} (arrival : Arrival s w) (company : Company s w)
    (seated : Seated s ts) (sits : s.Sits k c) (unsought : Unsought k c id s.engine ts) :
    Unsought k c id w.state.engine (w.tasks ++ ts) := by
  have spared : Engine.Spared c (inner ts.flatten) s.engine w.state.engine :=
    arrival_spared arrival
  refine ⟨outside_unasked arrival seated sits unsought.unasked, fun u member call inside => ?_⟩
  · rcases List.mem_append.mp member with new | old
    · have reads := (company_count company).2 u new k (subscribed_reads inside)
      exact absurd reads.1 (Nat.ne_of_lt sits.bound)
    · obtain ⟨r, told, served⟩ := unsought.served u old call inside
      exact ⟨r, spared.told _ told, served⟩

/-! ## What a session says -/

open WebSocket in
theorem onText_messages {p : Protocol} {acknowledged : Bool}
    {owned : List (SubscriptionId × String)} {most : Nat} {text : String} {m : ServerMessage}
    (said : m ∈ (Session.onText p acknowledged owned most text).messages)
    (about : m.id? = some id) : p.subscribes? text = some id := by
  have closes {code : Nat} {reason : String} (said : m ∈ (Reaction.close code reason).messages) :
      False := by
    obtain rfl : m = .close code reason := by simpa [Reaction.messages] using said
    simp [ServerMessage.id?] at about
  simp only [Session.onText] at said
  simp only [Protocol.subscribes?]
  cases decoded : p.decode text with
  | error fault =>
    rw [decoded] at said
    exact (closes said).elim
  | ok message =>
    rw [decoded] at said
    cases message with
    | subscribe id' r =>
      simp only [Session.onMessage, Session.onSubscribe, Session.existing] at said
      split at said
      · split at said
        · split at said
          · exact (closes said).elim
          · obtain rfl : m = _ := by simpa [Reaction.messages] using said
            simpa [ServerMessage.id?] using about
        · split at said
          · have either : m = .error id' [{ message := Session.tooManySubscriptions }] ∨
                m = .complete id' := by simpa [Reaction.messages, Session.rejection] using said
            rcases either with rfl | rfl <;> simpa [ServerMessage.id?] using about
          · simp [Reaction.messages] at said
      · exact (closes said).elim
    | init payload =>
      simp only [Session.onMessage, Session.greeting] at said
      split at said
      · exact (closes said).elim
      · have either : m = .ack ∨ m = .keepAlive := by
          cases p <;> simp_all [Reaction.messages]
        rcases either with rfl | rfl <;> simp [ServerMessage.id?] at about
    | complete id' =>
      simp only [Session.onMessage] at said
      split at said <;> simp [Reaction.messages] at said
    | ping payload =>
      obtain rfl : m = .pong payload := by
        simpa [Session.onMessage, Reaction.messages] using said
      simp [ServerMessage.id?] at about
    | pong | terminate => simp [Session.onMessage, Reaction.messages] at said

open WebSocket in
theorem onText_complete {p : Protocol} {acknowledged : Bool}
    {owned : List (SubscriptionId × String)} {most : Nat} {text : String}
    (said : .complete id ∈ (Session.onText p acknowledged owned most text).messages) :
    (∃ ms, Session.onText p acknowledged owned most text = .reply ms) ∧ ∀ x ∈ owned, x.2 ≠ id := by
  have asked := onText_messages said rfl
  simp only [Protocol.subscribes?] at asked
  simp only [Session.onText] at said ⊢
  split at asked
  · rename_i id' r decoded
    obtain rfl : id' = id := by simpa using asked
    simp only [decoded, Session.onMessage, Session.onSubscribe, Session.existing] at said ⊢
    split at said
    · rename_i greeted
      split at said
      · split at said <;> simp [Reaction.messages] at said
      · rename_i vacant
        split at said
        · rename_i full
          refine ⟨⟨_, by simp only [greeted, ↓reduceIte, vacant, full]; rfl⟩,
            fun x member same => ?_⟩
          exact vacant (List.any_eq_true.mpr ⟨x, member, by simp [same]⟩)
        · simp [Reaction.messages] at said
    · simp [Reaction.messages] at said
  · simp at asked

theorem speaks_text {since : Nat} {before : Bool} {m : WebSocket.ServerMessage}
    (said : m ∈ s.speaks k since before) (about : m.id? = some id) :
    ∃ p c' t, s.peers[k]? = some p ∧ p.connection? = some c' ∧
      s.look p since before = some (.item (.text t)) ∧
      m ∈ (WebSocket.Session.onText p.protocol p.acknowledged (s.engine.owned c')
        s.settings.maxSubscriptions t).messages := by
  have closes {code : Nat} {reason : String} (same : m = .close code reason) : False := by
    subst same
    simp [WebSocket.ServerMessage.id?] at about
  simp only [speaks] at said
  split at said
  · simp at said
  rename_i p peer
  split at said
  · rename_i c' i connection looked
    cases i with
    | text t => exact ⟨p, c', t, peer, connection, looked, said⟩
    | binary => exact (closes (List.mem_singleton.mp said)).elim
    | _ => simp [replies] at said
  · simp at said
  · exact (closes (List.mem_singleton.mp said)).elim

theorem tells_complete {pool : List Engine.Action} {m : WebSocket.ServerMessage}
    (grounded : Grounded s.engine pool) (silent : s.asksFor? k a ≠ some id)
    (unsought : Unsought k c id s.engine ((a :: todo) :: others)) (said : m ∈ s.tells k a)
    (about : m.id? = some id) : m = .complete id := by
  cases a with
  | read k' since before due? =>
    simp only [tells] at said
    split at said
    · rename_i same
      obtain ⟨p, c', t, peer, connection, looked, said⟩ := speaks_text said about
      have asked := onText_messages said about
      exact absurd (by simp [asksFor?, same, peer, connection, looked, asked]) silent
    · simp at said
  | subscribed k' id' call =>
    simp only [tells] at said
    split at said
    · rename_i same
      split at said
      · rename_i fault answer
        have either : m = .error id' [{ message := fault.clientMessage }] ∨ m = .complete id' := by
          simpa [WebSocket.Session.rejection] using said
        rcases either with rfl | rfl
        · obtain rfl : id' = id := by simpa [WebSocket.ServerMessage.id?] using about
          obtain ⟨r, told, served⟩ :=
            unsought.served _ (List.mem_cons_self ..) call (by simp [same])
          exact absurd (Engine.told_once grounded.honored told (Engine.mem_of_reply answer))
            (served fault)
        · obtain rfl : id' = id := by simpa [WebSocket.ServerMessage.id?] using about
          rfl
      · simp at said
    · simp at said
  | unsubscribed k' id' =>
    simp only [tells] at said
    split at said
    · split at said
      · rename_i p _
        cases protocol : p.protocol with
        | transport => simp [protocol, WebSocket.Session.unsubscribed] at said
        | legacy =>
          obtain rfl : m = .complete id' := by
            simpa [protocol, WebSocket.Session.unsubscribed] using said
          obtain rfl : id' = id := by simpa [WebSocket.ServerMessage.id?] using about
          rfl
      · simp at said
    · simp at said
  | _ => simp [tells] at said

/-! ## When a subscription is over -/

structure Clear (k : PeerId) (c : ConnectionId) (id : String) (e : Engine)
    (ts : List (List Action)) : Prop where
  unheld : Unheld e c id
  unsought : Unsought k c id e ts

theorem Clear.perm (clear : Clear k c id e ts) (perm : ts.Perm us) : Clear k c id e us :=
  ⟨clear.unheld, clear.unsought.perm perm⟩

theorem Clear.tail (clear : Clear k c id e (task :: ts)) : Clear k c id e ts :=
  ⟨clear.unheld, clear.unsought.tail⟩

/-- When a session says that a subscription is complete nothing is registered for it, and the reader
goes on to the next message. -/
theorem told_turn {pool : List Engine.Action} (grounded : Grounded s.engine pool)
    (sits : s.Sits k c) (reading : Reading k c s.engine ((a :: todo) :: others))
    (complete : .complete id ∈ s.tells k a) :
    Unheld s.engine c id ∧ ∃ s' : Server, s'.engine = s.engine ∧ s.perform a = s'.readOn k := by
  obtain ⟨p, peer, connection⟩ := sits
  have stage (whose : a.reads? = some k) : Stage k c s.engine [a :: todo] :=
    (reading.alone (by simp [readBy, whose])).2
  cases a with
  | read k' since before due? =>
    simp only [tells] at complete
    split at complete
    · rename_i same
      subst same
      obtain ⟨p', c', t, peer', connection', looked, said⟩ := speaks_text complete rfl
      obtain rfl : p = p' := by simpa [peer] using peer'
      obtain rfl : c = c' := by simpa [connection] using connection'
      obtain ⟨⟨ms, reply⟩, vacant⟩ := onText_complete said
      refine ⟨fun sub holds => ?_, ?_⟩
      · exact vacant _ ((Engine.owned_iff grounded.sound grounded.labelled).mpr holds) rfl
      · let popped := s.updatePeer k' fun p => { p with incoming := p.incoming.tail }
        refine ⟨popped.tell k' ms, rfl, ?_⟩
        have reply : WebSocket.Session.onText p.protocol p.acknowledged (popped.engine.owned c)
            popped.settings.maxSubscriptions t = .reply ms := reply
        simp only [perform, readNext, peer, connection, looked, onItem]
        rw [reply]
        rfl
    · simp at complete
  | subscribed k' id' call =>
    simp only [tells] at complete
    split at complete
    · rename_i same
      subst same
      split at complete
      · rename_i fault answer
        obtain rfl : id = id' := by
          simpa [WebSocket.Session.rejection] using complete
        refine ⟨?_, s.tell k' (WebSocket.Session.rejection id fault.clientMessage), rfl, by
          simp only [perform, answer]⟩
        have stage := stage rfl
        generalize form : [Action.subscribed k' id call :: todo] = us at stage
        cases stage with
        | answered call' id'' r told refused =>
          obtain ⟨⟨rfl, rfl⟩, -⟩ : (id = id'' ∧ call = call') ∧ todo = [] := by simpa using form
          exact refused fault (Engine.told_once grounded.honored told (Engine.mem_of_reply answer))
        | ended es => cases es <;> simp at form
        | _ => simp at form
      · simp at complete
    · simp at complete
  | unsubscribed k' id' =>
    simp only [tells] at complete
    split at complete
    · rename_i same
      subst same
      simp only [peer] at complete
      obtain rfl : id = id' := by
        cases protocol : p.protocol <;>
          simp_all [WebSocket.Session.unsubscribed]
      refine ⟨?_, s.tell k' (WebSocket.Session.unsubscribed p.protocol id), rfl, by
        simp only [perform, peer]⟩
      have stage := stage rfl
      generalize form : [Action.unsubscribed k' id :: todo] = us at stage
      cases stage with
      | ended es id'' calm unheld =>
        cases es with
        | nil =>
          obtain ⟨rfl, -⟩ : id = id'' ∧ todo = [] := by simpa using form
          exact unheld
        | cons b es => simp at form
      | _ => simp at form
    · simp at complete
  | _ => simp [tells] at complete

theorem tells_reads {m : WebSocket.ServerMessage} (said : m ∈ s.tells k a) :
    a.reads? = some k ∧ a.engine? = none := by
  cases a with
  | read | subscribed | unsubscribed =>
    simp only [tells] at said
    split at said
    · rename_i same
      exact ⟨same ▸ rfl, rfl⟩
    · simp at said
  | _ => simp [tells] at said

theorem told_clear {pool : List Engine.Action} (grounded : Grounded s.engine pool)
    (sits : s.Sits k c) (reading : Reading k c s.engine ((a :: todo) :: others))
    (complete : .complete id ∈ s.tells k a) :
    Clear k c id (s.perform a).server.engine
      (((s.perform a).next ++ todo) :: ((s.perform a).started ++ others)) := by
  obtain ⟨unheld, s', engine, turn⟩ := told_turn grounded sits reading complete
  obtain ⟨whose, session⟩ := tells_reads complete
  have mine : readBy k (a :: todo) = true := by simp [readBy, whose]
  obtain ⟨-, rfl⟩ := (reading.alone mine).2.session session
  have nobody : (s'.readOn k).started = [] := by
    simp only [readOn]
    split <;> rfl
  rw [turn, readOn_server, engine, nobody, List.append_nil, List.nil_append]
  exact ⟨unheld, reading.rests mine⟩

theorem ended_clear {b : Engine.Action} {y : Subscriber} (ready : s.engine.ready b = true)
    (grounded : Grounded s.engine (b :: (inner todo ++ inner others.flatten)))
    (reading : Reading k c s.engine ((.engine b :: todo) :: others))
    (ends : Engine.endings x s.engine b ≠ []) (found : s.engine.subscribers[x]? = some y)
    (connection : y.connection = c) (clientId : y.clientId = id) :
    Clear k c id (s.perform (.engine b)).server.engine
      (((s.perform (.engine b)).next ++ todo) ::
        ((s.perform (.engine b)).started ++ others)) := by
  have holds : Holds s.engine c id x :=
    ⟨Engine.ending_registered ends, y, found, connection, clientId⟩
  exact ⟨Engine.ended_unheld ready grounded.sound ends holds fun s' other =>
      reading.single id s' x other holds,
    engine_unsought grounded (reading.unsought holds)⟩

theorem closes_clear (ready : s.ready a = true)
    (grounded : Grounded s.engine (inner ((a :: todo) :: others).flatten)) (sits : s.Sits k c)
    (reading : Reading k c s.engine ((a :: todo) :: others)) (closes : s.Closes k c id a) :
    Clear k c id (s.perform a).server.engine
      (((s.perform a).next ++ todo) :: ((s.perform a).started ++ others)) := by
  cases closes with
  | told complete => exact told_clear grounded sits reading complete
  | ended b x y same ends found connection clientId =>
    subst same
    exact ended_clear ready (inner_pending b todo others ▸ grounded)
      reading ends found connection clientId

/-! ## From then on -/

theorem inside_clear (fronted : Fronted (a :: todo))
    (grounded : Grounded s.engine (inner ((a :: todo) :: others).flatten))
    (apart : ∀ k', s.Sits k' c → k' = k) (silent : s.asksFor? k a ≠ some id)
    (clear : Clear k c id s.engine ((a :: todo) :: others)) :
    Clear k c id (s.perform a).server.engine
      (((s.perform a).next ++ todo) :: ((s.perform a).started ++ others)) := by
  cases session : a.engine? with
  | none =>
    have conduct := perform_conduct s a session
    have spared : Engine.Spared c (inner others.flatten) s.engine (s.perform a).server.engine :=
      conduct_spared conduct
    exact ⟨spared.unheld clear.unheld,
      session_unsought conduct (fronted_after session fronted) apart silent clear.unsought⟩
  | some b =>
    obtain rfl := eq_engine session
    rw [inner_pending] at grounded
    refine ⟨fun sub holds => ?_, engine_unsought grounded clear.unsought⟩
    rcases Engine.perform_holds grounded.sound holds with old | ⟨aim, -⟩
    · exact clear.unheld sub old
    · exact clear.unsought.unasked _ (List.mem_cons_self ..)
        (by simp [aims, inner, Action.engine?, aim])

/-- Whatever has ended is not the client's under that id. -/
def Unended (c : ConnectionId) (id : String) (log : Steps) : Prop :=
  ∀ p ∈ innerSteps log, ∀ x, Engine.endings x p.1 p.2 ≠ [] →
    ∀ y, p.1.subscribers[x]? = some y → ¬ (y.connection = c ∧ y.clientId = id)

/-- As long as its client does not ask for it nothing is registered for an id, and its session says
of it only that it is complete. -/
theorem reached_clear {w : World} (begun : first.engine = Engine.start setup hub)
    (nobody : first.peers = []) (before : Reached (World.start first) w.state w.tasks log)
    (sits : w.state.Sits k c) (clear : Clear k c id w.state.engine w.tasks)
    (reached : Reached w s ts more) (silent : ∀ q ∈ more, q.1.asksFor? k q.2 ≠ some id) :
    Clear k c id s.engine ts ∧ Unended c id more ∧
      ∀ m ∈ tellings k more, m.id? = some id → m = .complete id := by
  induction reached with
  | start => exact ⟨clear, by simp [Unended, innerSteps], by simp [tellings]⟩
  | shuffle perm _ ih =>
    obtain ⟨clear, rest⟩ := ih silent
    exact ⟨clear.perm perm, rest⟩
  | idle _ ih =>
    obtain ⟨clear, rest⟩ := ih silent
    exact ⟨clear.tail, rest⟩
  | @outside s ts more i onward ih =>
    obtain ⟨clear, rest⟩ := ih silent
    have arrival := input_arrival s i
    have spared : Engine.Spared c (inner ts.flatten) s.engine (i.act ⟨s, []⟩).state.engine :=
      arrival_spared arrival
    have seated := reached_seated begun nobody (before.trans onward)
    exact ⟨⟨spared.unheld clear.unheld, outside_unsought arrival (input_company s i) seated
      (reached_sits sits onward) clear.unsought⟩, rest⟩
  | @inside s a todo others more ready onward ih =>
    obtain ⟨clear, unended, quiet⟩ := ih fun q member => silent q (List.mem_append_left _ member)
    have silent := silent (s, a) (List.mem_append_right _ (List.mem_singleton.mpr rfl))
    have whole := before.trans onward
    have grounded := reached_grounded begun whole
    have there := reached_sits sits onward
    refine ⟨?_, ?_, ?_⟩
    · exact inside_clear (reached_fronted (by simp [World.start]) whole _ (List.mem_cons_self ..))
        grounded (fun k' other => (reached_seated begun nobody whole).apart k k' c there other)
        silent clear
    · intro p member x ends y found own
      rw [innerSteps_append] at member
      rcases List.mem_append.mp member with old | new
      · exact unended p old x ends y found own
      · obtain ⟨q, here, state, -⟩ := mem_innerSteps.mp new
        obtain rfl := List.mem_singleton.mp here
        rw [← state] at found
        exact clear.unheld x ⟨state ▸ Engine.ending_registered ends, y, found, own⟩
    · intro m said about
      rw [tellings_more] at said
      rcases List.mem_append.mp said with old | new
      · exact quiet m old about
      · exact tells_complete grounded silent clear.unsought new about

end Server

end SubscriptionGateway
