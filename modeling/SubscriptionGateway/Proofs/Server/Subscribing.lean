import SubscriptionGateway.Proofs.Server.Places
import SubscriptionGateway.Proofs.Server.Progress

/-!
What comes of a message with which a client subscribes. Its session may see at once that the id is
in use or that there is no place left. Otherwise it asks for the subscription and waits for the
answer, which comes whatever others do, and says something only when it is refused.
-/
namespace SubscriptionGateway

open Broker

namespace Engine

variable {e e' : Engine} {c c' : ConnectionId} {id id' : String} {s sub : SubscriptionId}
  {call : CallId} {r : Reply} {pool : List Action}

theorem reply_of_told (honored : Honored e pool) (told : (call, r) ∈ e.replies) :
    e.reply? call = some r := by
  cases found : e.reply? call with
  | none =>
    have absent : e.replies.find? (·.1 == call) = none := by simpa [reply?] using found
    exact absurd (List.find?_eq_none.mp absent _ told) (by simp)
  | some r' => rw [told_once honored (mem_of_reply found) told]

theorem SameRolls.holds (same : SameRolls e e') (holds : Holds e' c id s) : Holds e c id s := by
  obtain ⟨registered, record⟩ := holds
  rw [isRegistered, same.registered] at registered
  exact ⟨registered, by rwa [same.records s (List.contains_iff_mem.mp registered)] at record⟩

theorem Admits.holds (admits : Admits c id sub e e') (holds : Holds e' c' id' s) :
    Holds e c' id' s ∨ s = sub ∧ id' = id := by
  obtain ⟨registered, record⟩ := holds
  have member : s ∈ e'.registered := List.contains_iff_mem.mp registered
  rw [admits.registered] at member
  rcases List.mem_append.mp member with old | new
  · exact .inl ⟨List.contains_iff_mem.mpr old, by rwa [admits.records s old] at record⟩
  · obtain ⟨x, found, -, label⟩ := record
    obtain ⟨x', found', -, label', -⟩ := admits.active
    obtain rfl := List.mem_singleton.mp new
    obtain rfl : x = x' := Option.some.inj (found.symm.trans found')
    exact .inr ⟨rfl, label.symm.trans label'⟩

end Engine

namespace Server

open WebSocket (ServerMessage)
open Engine (Holds Spared Admits Asks)

variable {s : Server} {k : PeerId} {c : ConnectionId} {id : String} {a : Action} {e e₀ e' : Engine}
  {call : CallId} {r : Reply} {todo task : List Action} {ts us others : List (List Action)}
  {log own : Steps} {setup : Setup} {hub : Hub} {first : Server}

/-! ## Who says something -/

theorem tellings_turns (k : PeerId) (w : World) (moves : List Move) :
    tellings k (w.turns k moves) = tellings k (w.steps moves) := by
  induction moves generalizing w with
  | nil => rfl
  | cons v moves ih =>
    simp only [World.turns, World.steps_cons, tellings_append, ih]
    congr 1
    split
    · rfl
    · rename_i other
      refine (List.eq_nil_iff_forall_not_mem.mpr fun m said => other ?_).symm
      obtain ⟨q, member, said⟩ := List.mem_flatMap.mp said
      cases v with
      | input i => exact absurd member List.not_mem_nil
      | step place =>
        cases goes : w.actionAt machine place with
        | none => simp [World.noted, Running.noted, goes] at member
        | some a =>
          obtain rfl : q = (w.state, a) := by simpa [World.noted, Running.noted, goes] using member
          obtain ⟨-, todo, found⟩ := World.actionAt_task goes
          simp [World.isTurn, found, readBy, (tells_reads said).1]

/-! ## On the way to an answer -/

/-- Of all the steps one has put a subscription on the rolls, and no other has changed them. -/
def Enrols (c : ConnectionId) (id : String) (sub : SubscriptionId) (own : Steps) : Prop :=
  ∃ before q after, own = before ++ q :: after ∧
    Admits c id sub q.1.engine (q.1.perform q.2).server.engine ∧ ∀ p ∈ before ++ after, Neutral p

theorem Enrols.more {sub : SubscriptionId} (enrols : Enrols c id sub own) {p : Server × Action}
    (neutral : Neutral p) : Enrols c id sub (own ++ [p]) := by
  obtain ⟨before, q, after, rfl, admits, still⟩ := enrols
  refine ⟨before, q, after ++ [p], by simp, admits, fun p' member => ?_⟩
  rw [← List.append_assoc] at member
  rcases List.mem_append.mp member with old | new
  · exact still p' old
  · exact List.mem_singleton.mp new ▸ neutral

/-- What has been done to the rolls for a call that has had an answer, and what its connection has
got since it began. -/
inductive Done (c : ConnectionId) (id : String) (e₀ e : Engine) (own : Steps) : Reply → Prop where
  | admitted (sub : SubscriptionId) (enrols : Enrols c id sub own)
      (held : ∀ id' i, Holds e c id' i → Holds e₀ c id' i ∨ i = sub ∧ id' = id) :
    Done c id e₀ e own (.subscribed sub)
  | refused (fault : Fault) (neutral : ∀ q ∈ own, Neutral q)
      (held : ∀ id' i, Holds e c id' i → Holds e₀ c id' i) : Done c id e₀ e own (.failed fault)

def verdict (id : String) : Reply → List ServerMessage
  | .failed fault => WebSocket.Session.rejection id fault.clientMessage
  | _ => []

theorem Done.later (done : Done c id e₀ e own r)
    (holds : ∀ id' i, Holds e' c id' i → Holds e c id' i) :
    Done c id e₀ e' own r := by
  cases done with
  | admitted sub enrols held => exact .admitted sub enrols fun id' i h => held id' i (holds id' i h)
  | refused fault neutral held =>
    exact .refused fault neutral fun id' i h => held id' i (holds id' i h)

theorem Done.more {p : Server × Action} (done : Done c id e₀ e own r) (neutral : Neutral p) :
    Done c id e₀ e (own ++ [p]) r := by
  cases done with
  | admitted sub enrols held => exact .admitted sub (enrols.more neutral) held
  | refused fault still held =>
    refine .refused fault (fun q member => ?_) held
    rcases List.mem_append.mp member with old | new
    · exact still q old
    · exact List.mem_singleton.mp new ▸ neutral

inductive Handling (k : PeerId) (c : ConnectionId) (id : String) (call : CallId) (e₀ e : Engine) :
    List (List Action) → Steps → Prop where
  | asks (b : Engine.Action) (own : Steps) (neutral : ∀ q ∈ own, Neutral q)
      (silent : tellings k own = []) (held : ∀ id' i, Holds e c id' i → Holds e₀ c id' i) :
    Handling k c id call e₀ e [[.engine b, .subscribed k id call]] own
  | answered (r : Reply) (own : Steps) (told : (call, r) ∈ e.replies) (silent : tellings k own = [])
      (done : Done c id e₀ e own r) : Handling k c id call e₀ e [[.subscribed k id call]] own
  | settled (r : Reply) (own : Steps) (since : Nat) (before : Bool) (due? : Option Nat)
      (told : (call, r) ∈ e.replies) (said : tellings k own = verdict id r)
      (done : Done c id e₀ e own r) : Handling k c id call e₀ e [[.read k since before due?]] own

theorem Handling.spared (handling : Handling k c id call e₀ e us own) {pool : List Engine.Action}
    (spared : Spared c pool e e') : Handling k c id call e₀ e' us own := by
  cases handling with
  | asks b own neutral silent held =>
    exact .asks b own neutral silent fun id' i holds => held id' i (spared.holds id' i holds)
  | answered r own told silent done =>
    exact .answered r own (spared.told _ told) silent (done.later spared.holds)
  | settled r own since before due? told said done =>
    exact .settled r own since before due? (spared.told _ told) said (done.later spared.holds)

theorem tells_engine (s : Server) (k : PeerId) (b : Engine.Action) :
    s.tells k (.engine b) = [] := rfl

theorem Handling.turn (handling : Handling k c id call e₀ s.engine [a :: todo] own)
    (begun : first.engine = Engine.start setup hub) (nobody : first.peers = [])
    (reached : Reached (World.start first) s ((a :: todo) :: others) log) (sits : s.Sits k c)
    (silent : ∀ since before due?, a ≠ .read k since before due?) :
    Handling k c id call e₀ (s.perform a).server.engine (readers k [(s.perform a).next ++ todo])
      (own ++ [(s, a)]) := by
  have grounded := reached_grounded begun reached
  generalize same : [a :: todo] = us at handling
  cases handling with
  | asks b own neutral mute held =>
    obtain ⟨rfl, rfl⟩ : a = .engine b ∧ todo = [.subscribed k id call] := by simpa using same
    have mine : readBy k [.engine b, .subscribed k id call] = true := by
      simp [readBy, Action.reads?]
    obtain ⟨whose, aim⟩ :=
      (((reached_seated begun nobody reached).reading k c sits).alone mine).2.asking
    have mute' : tellings k (own ++ [(s, .engine b)]) = [] := by
      rw [tellings_more, mute, tells_engine, List.append_nil]
    rw [inner_pending] at grounded
    have reads : readers k [(s.perform (.engine b)).next ++ [.subscribed k id call]] = _ :=
      reads_subscribed _ k id call
    rw [reads]
    cases Engine.asks_outcome grounded.sound whose aim with
    | onward b' next _ _ _ _ same =>
      rw [next]
      refine .asks b' _ (fun q member => ?_) mute' fun id' i holds => held id' i (same.holds holds)
      rcases List.mem_append.mp member with old | new
      · exact neutral q old
      · exact List.mem_singleton.mp new ▸ same
    | refused fault next told same =>
      rw [next]
      refine .answered _ _ told mute' (.refused fault (fun q member => ?_) fun id' i holds =>
        held id' i (same.holds holds))
      rcases List.mem_append.mp member with old | new
      · exact neutral q old
      · exact List.mem_singleton.mp new ▸ same
    | admitted sub next told admits =>
      rw [next]
      refine .answered _ _ told mute'
        (.admitted sub ⟨own, _, [], rfl, admits, by simpa using neutral⟩
        fun id' i holds => ?_)
      exact (admits.holds holds).imp_left (held id' i)
  | answered r own told mute done =>
    obtain ⟨rfl, rfl⟩ : a = .subscribed k id call ∧ todo = [] := by simpa using same
    obtain ⟨p, here, -⟩ := sits
    have spared : Spared c [] s.engine (s.perform (.subscribed k id call)).server.engine :=
      conduct_spared (perform_conduct s (.subscribed k id call) rfl)
    have found := Engine.reply_of_told grounded.honored told
    have onward : ∃ since before due?,
        (s.perform (.subscribed k id call)).next = [.read k since before due?] := by
      simp only [perform, found]
      split
      · exact readOn_reads (tell_here here _)
      · exact readOn_reads here
    obtain ⟨since, before, due?, next⟩ := onward
    rw [List.append_nil, next, readers_read]
    refine .settled r _ since before due? (spared.told _ told) ?_
      ((done.later spared.holds).more (session_neutral s rfl))
    rw [tellings_more, mute, List.nil_append]
    cases r <;> simp [tells, found, verdict]
  | settled r own since before due? =>
    obtain ⟨rfl, -⟩ : a = .read k since before due? ∧ todo = [] := by simpa using same
    exact absurd rfl (silent since before due?)

/-! ## Reading that a client subscribes -/

theorem onSubscribe_cases (p : WebSocket.Protocol)
    (owned : List (SubscriptionId × String)) (most : Nat)
    (id : String) (q : Request) :
    (∃ x ∈ owned, x.2 = id) ∧
      WebSocket.Session.onSubscribe p owned most id q = WebSocket.Session.existing p id ∨
    (∀ x ∈ owned, x.2 ≠ id) ∧ most ≤ owned.length ∧
      WebSocket.Session.onSubscribe p owned most id q =
        .reply (WebSocket.Session.rejection id WebSocket.Session.tooManySubscriptions) ∨
    (∀ x ∈ owned, x.2 ≠ id) ∧ owned.length < most ∧
      WebSocket.Session.onSubscribe p owned most id q = .subscribe id q := by
  simp only [WebSocket.Session.onSubscribe]
  cases used : owned.any (·.2 == id) with
  | true =>
    left
    simpa using used
  | false =>
    right
    have free (x : SubscriptionId × String) (member : x ∈ owned) : x.2 ≠ id := fun same =>
      List.any_eq_false.mp used x member (by simp [same])
    by_cases full : most ≤ owned.length
    · exact .inl ⟨free, full, by simp [full]⟩
    · exact .inr ⟨free, Nat.lt_of_not_le full, by simp [full]⟩

theorem closeWith_next {p : Peer} (here : s.peers[k]? = some p)
    (connection : p.connection? = some c)
    (code : Nat) (reason : String) : (s.closeWith k code reason).next =
      [.engine (.release c), .engine (.answer s.engine.calls .done), .waitForWriter k] := by
  simp only [closeWith, hangUp, tell_here here, connection]
  rfl

structure Subscribes (k : PeerId) (c : ConnectionId) (id : String) (w : World)
    (place : Nat) (p : Peer)
    (a : Action) : Prop where
  goes : w.actionAt machine place = some a
  peer : w.state.peers[k]? = some p
  connection : p.connection? = some c
  acknowledged : p.acknowledged = true
  message : ∃ since before due? t q, a = .read k since before due? ∧
    w.state.look p since before = some (.item (.text t)) ∧
      p.protocol.decode t = .ok (.subscribe id q)

section Subscribes

variable {w : World} {place : Nat} {p : Peer}

theorem Subscribes.session (subscribes : Subscribes k c id w place p a) : a.engine? = none := by
  obtain ⟨since, before, due?, t, q, rfl, -⟩ := subscribes.message
  rfl

theorem Subscribes.sits (subscribes : Subscribes k c id w place p a) : w.state.Sits k c :=
  ⟨p, subscribes.peer, subscribes.connection⟩

theorem Subscribes.reacts (subscribes : Subscribes k c id w place p a) :
    ∃ q reaction, WebSocket.Session.onSubscribe p.protocol (w.state.engine.owned c)
        w.state.settings.maxSubscriptions id q = reaction ∧
      w.state.perform a = (w.state.popped k).react k c reaction ∧
      tellings k [(w.state, a)] = reaction.messages := by
  obtain ⟨since, before, due?, t, q, rfl, message, decoded⟩ := subscribes.message
  have reacts : WebSocket.Session.onText p.protocol p.acknowledged (w.state.engine.owned c)
      w.state.settings.maxSubscriptions t = WebSocket.Session.onSubscribe p.protocol
        (w.state.engine.owned c) w.state.settings.maxSubscriptions id q := by
    simp only [WebSocket.Session.onText, decoded, WebSocket.Session.onMessage,
      subscribes.acknowledged,
      ↓reduceIte]
  refine ⟨q, _, rfl, by rw [read_text subscribes.peer subscribes.connection message, reacts], ?_⟩
  have alone : tellings k [(w.state, .read k since before due?)] =
      w.state.tells k (.read k since before due?) := by simp [tellings]
  rw [alone]
  simp only [tells, ↓reduceIte, speaks, subscribes.peer, subscribes.connection, message,
    replies, reacts]

variable (subscribes : Subscribes k c id w place p a)
  (begun : first.engine = Engine.start setup hub)
  (nobody : first.peers = []) (reached : Reached (World.start first) w.state w.tasks log)

include subscribes begun nobody reached

theorem Subscribes.turn : w.turns k [.step place] = [(w.state, a)] ∧
    readers k (w.move (.step place)).tasks = readers k [(w.state.perform a).next] ∧
    Spared c [] w.state.engine (w.move (.step place)).state.engine := by
  have session := subscribes.session
  obtain ⟨since, before, due?, t, q, rfl, -⟩ := subscribes.message
  obtain ⟨taken, state, mine⟩ := read_turn begun nobody reached subscribes.sits subscribes.goes
  exact ⟨taken, mine, state ▸ conduct_spared (perform_conduct w.state _ session)⟩

theorem Subscribes.idles {later : List Move}
    (idle : readers k (w.move (.step place)).tasks = [] ∨
      ReaderWaits k (w.move (.step place)).tasks)
    (unheard : Unheard k ((w.move (.step place)).turns k later)) :
    w.turns k (.step place :: later) = [(w.state, a)] ∧
    readers k ((w.move (.step place)).play later).tasks = readers k (w.move (.step place)).tasks ∧
    ∀ x ∈ ((w.move (.step place)).play later).state.engine.owned c, x ∈ w.state.engine.owned c := by
  obtain ⟨taken, -, spared⟩ := subscribes.turn begun nobody reached
  have onward := reached_move reached (.step place)
  obtain ⟨same, nothing, held⟩ := idle_stays begun nobody onward
    (reached_sits subscribes.sits (reached_move .start _)) idle later unheard
  refine ⟨?_, same, ?_⟩
  · rw [← taken]
    exact (World.turns_append k w [.step place] later).trans
      ((congrArg _ nothing).trans (List.append_nil _))
  · exact (owned_fewer (reached_grounded begun reached)
      (reached_grounded begun (reached_play onward later))
      fun id i holds => spared.holds id i (held id i holds)).1

theorem Subscribes.rests {ms : List ServerMessage} {later : List Move}
    (done : w.state.perform a = (w.state.popped k).react k c (.reply ms))
    (unheard : Unheard k ((w.move (.step place)).turns k later)) :
    w.turns k (.step place :: later) = [(w.state, a)] ∧
    ReaderWaits k ((w.move (.step place)).play later).tasks ∧
    ∀ x ∈ ((w.move (.step place)).play later).state.engine.owned c, x ∈ w.state.engine.owned c := by
  obtain ⟨-, mine, -⟩ := subscribes.turn begun nobody reached
  obtain ⟨since, before, due?, next⟩ := readOn_reads (tell_here (popped_here subscribes.peer) ms)
  have waits : readers k (w.move (.step place)).tasks = [[.read k since before due?]] := by
    rw [mine, done, react, next, readers_read]
  obtain ⟨once, same, owned⟩ :=
    subscribes.idles begun nobody reached (.inr ⟨since, before, due?, waits⟩) unheard
  exact ⟨once, ⟨since, before, due?, same.trans waits⟩, owned⟩

end Subscribes

/-! ## What it comes to -/

inductive Upshot where
  | admitted
  | refused
  /-- It has got one before under this id. -/
  | taken

/-- What it comes to that a client subscribes under an id: what its connection had before and has
after it, what its reader has done and its session has said. -/
inductive Comes (k : PeerId) (c : ConnectionId) (id : String) (p : WebSocket.Protocol) (most : Nat)
    (w u : World) (own : Steps) (said : List ServerMessage) : Upshot → Prop where
  | admitted (sub : SubscriptionId) (free : ∀ x ∈ w.state.engine.owned c, x.2 ≠ id)
      (room : (w.state.engine.owned c).length < most)
      (told : (w.state.engine.calls, .subscribed sub) ∈ u.state.engine.replies)
      (enrols : Enrols c id sub own)
      (owned : ∀ x ∈ u.state.engine.owned c, x ∈ w.state.engine.owned c ∨ x = (sub, id))
      (silent : said = []) (waits : ReaderWaits k u.tasks) :
      Comes k c id p most w u own said .admitted
  | refused (message : String) (free : ∀ x ∈ w.state.engine.owned c, x.2 ≠ id)
      (why : if (w.state.engine.owned c).length < most then
          ∃ fault, (w.state.engine.calls, .failed fault) ∈ u.state.engine.replies ∧
            message = fault.clientMessage
        else message = WebSocket.Session.tooManySubscriptions)
      (neutral : ∀ q ∈ own, Neutral q)
      (owned : ∀ x ∈ u.state.engine.owned c, x ∈ w.state.engine.owned c)
      (rejects : said = [.error id [{ message := message }], .complete id])
      (waits : ReaderWaits k u.tasks) :
    Comes k c id p most w u own said .refused
  | taken (q : Server × Action) (use : ∃ x ∈ w.state.engine.owned c, x.2 = id) (once : own = [q])
      (neutral : Neutral q)
      (owned : ∀ x ∈ u.state.engine.owned c, x ∈ w.state.engine.owned c)
      (answer : match p with
        | .transport => said = [.close 4409 s!"Subscriber for {id} already exists"] ∧
            readers k u.tasks = [] ∧ ∃ call, (q.1.perform q.2).next =
              [.engine (.release c), .engine (.answer call .done), .waitForWriter k]
        | .legacy => said = [.error id [{ message := s!"Subscriber for {id} already exists" }]] ∧
            ReaderWaits k u.tasks) : Comes k c id p most w u own said .taken

/-- Asking for a subscription does not come to two things. -/
theorem Comes.unique {p : WebSocket.Protocol} {most : Nat} {w u : World} {said : List ServerMessage}
    {x y : Upshot} (one : Comes k c id p most w u own said x)
    (other : Comes k c id p most w u own said y) : x = y := by
  have either (free : ∀ x ∈ w.state.engine.owned c, x.2 ≠ id)
      (use : ∃ x ∈ w.state.engine.owned c, x.2 = id) : False := by
    obtain ⟨x, member, label⟩ := use
    exact free x member label
  cases one with
  | admitted sub free room told enrols owned silent =>
    cases other with
    | admitted => rfl
    | refused message _ _ _ _ rejects => simp [silent] at rejects
    | taken q use => exact (either free use).elim
  | refused message free why neutral owned rejects =>
    cases other with
    | admitted _ _ _ _ _ _ silent => simp [silent] at rejects
    | refused => rfl
    | taken q use => exact (either free use).elim
  | taken q use =>
    cases other with
    | admitted sub free | refused message free => exact (either free use).elim
    | taken => rfl

def Awaits (k : PeerId) (ts : List (List Action)) : Prop :=
  ∃ task ∈ ts, ∃ id call, .subscribed k id call ∈ task

def Action.isAnswered (k : PeerId) : Action → Bool
  | .subscribed k' .. => k' == k
  | _ => false

theorem Action.isAnswered_iff : a.isAnswered k = true ↔ ∃ id call, a = .subscribed k id call := by
  constructor
  · intro answered
    cases a with
    | subscribed k' id call =>
      obtain rfl : k' = k := eq_of_beq answered
      exact ⟨id, call, rfl⟩
    | _ => simp [isAnswered] at answered
  · rintro ⟨id, call, rfl⟩
    exact beq_self_eq_true k

instance : Decidable (Awaits k ts) :=
  decidable_of_iff (∃ task ∈ ts, ∃ a ∈ task, a.isAnswered k = true) <|
    exists_congr fun task => and_congr_right fun _ => by
      simp only [Action.isAnswered_iff]
      exact ⟨fun ⟨_, inside, id, call, same⟩ => ⟨id, call, same ▸ inside⟩,
        fun ⟨id, call, inside⟩ => ⟨_, inside, id, call, rfl⟩⟩

theorem awaits_readers (awaits : Awaits k ts) :
    ∃ task ∈ readers k ts, ∃ id call, .subscribed k id call ∈ task := by
  obtain ⟨task, member, id, call, inside⟩ := awaits
  have mine : readBy k task = true := List.any_eq_true.mpr ⟨_, inside, by simp [Action.reads?]⟩
  exact ⟨task, List.mem_filter.mpr ⟨member, mine⟩, id, call, inside⟩

theorem idle_awaits (idle : readers k ts = [] ∨ ReaderWaits k ts) : ¬ Awaits k ts := by
  intro awaits
  obtain ⟨task, member, id, call, inside⟩ := awaits_readers awaits
  rcases idle with gone | ⟨since, before, due?, waits⟩
  · simp [gone] at member
  · rw [waits] at member
    rw [List.mem_singleton.mp member] at inside
    simp at inside

theorem asking_awaits (mine : readers k ts = [task])
    (inside : ∃ id call, .subscribed k id call ∈ task) : Awaits k ts := by
  have member : task ∈ readers k ts := mine ▸ List.mem_cons_self ..
  exact ⟨task, List.mem_of_mem_filter member, inside⟩

theorem answer_taken {w : World} (begun : first.engine = Engine.start setup hub)
    (nobody : first.peers = []) (reached : Reached (World.start first) w.state w.tasks log)
    (sits : w.state.Sits k c) (mine : readers k w.tasks = [[.subscribed k id call]]) :
    ∃ w', Onward k w w' ∧ ¬ Awaits k w'.tasks := by
  obtain ⟨w', others, onward, turn, reads⟩ :=
    own_onward begun nobody reached sits mine rfl (by simp)
  obtain ⟨p, here, -⟩ := sits
  have next : ∃ since before due?,
      (w.state.perform (.subscribed k id call)).next = [.read k since before due?] := by
    simp only [perform]
    split
    · exact readOn_reads (tell_here here _)
    · exact readOn_reads here
  obtain ⟨since, before, due?, next⟩ := next
  rw [next, List.append_nil, readers_read] at reads
  exact ⟨w', onward, idle_awaits (.inr ⟨since, before, due?, reads⟩)⟩

theorem Handling.silent (handling : Handling k c id call e₀ e (readers k ts) own)
    (awaits : Awaits k ts) : tellings k own = [] := by
  generalize mine : readers k ts = us at handling
  cases handling with
  | asks b own _ silent => exact silent
  | answered r own _ silent => exact silent
  | settled r own since before due? =>
    exact absurd awaits (idle_awaits (.inr ⟨since, before, due?, mine⟩))

theorem Handling.ends {w : World} (begun : first.engine = Engine.start setup hub)
    (nobody : first.peers = []) (reached : Reached (World.start first) w.state w.tasks log)
    (sits : w.state.Sits k c)
    (handling : Handling k c id call e₀ w.state.engine (readers k w.tasks) own) :
    ∃ w', Onward k w w' ∧ ¬ Awaits k w'.tasks := by
  generalize mine : readers k w.tasks = us at handling
  cases handling with
  | asks b own =>
    obtain ⟨w', onward, answered⟩ := asks_answered begun nobody reached sits mine
    obtain ⟨log', reached'⟩ := onward.reached reached
    obtain ⟨w'', onward', ended⟩ := answer_taken begun nobody reached' (onward.sits sits) answered
    exact ⟨w'', onward.trans onward', ended⟩
  | answered r own => exact answer_taken begun nobody reached sits mine
  | settled r own since before due? =>
    exact ⟨w, .refl k w, idle_awaits (.inr ⟨since, before, due?, mine⟩)⟩

/-- When the answer has been taken the client is admitted or refused. -/
theorem Handling.comes {w u : World} {p : WebSocket.Protocol} {most : Nat}
    {pool pool' : List Engine.Action} (grounded : Engine.Grounded w.state.engine pool)
    (grounded' : Engine.Grounded u.state.engine pool')
    (free : ∀ x ∈ w.state.engine.owned c, x.2 ≠ id) (room : (w.state.engine.owned c).length < most)
    (handling : Handling k c id w.state.engine.calls w.state.engine u.state.engine
      (readers k u.tasks) own) (ended : ¬ Awaits k u.tasks) :
    ∃ x, Comes k c id p most w u own (tellings k own) x := by
  generalize mine : readers k u.tasks = us at handling
  cases handling with
  | asks b own | answered r own =>
    exact absurd (asking_awaits mine ⟨id, w.state.engine.calls, by simp⟩) ended
  | settled r own since before due? told said done =>
    have waits : ReaderWaits k u.tasks := ⟨since, before, due?, mine⟩
    cases done with
    | admitted sub enrols held =>
      refine ⟨.admitted, .admitted sub free room told enrols (fun x member => ?_) said waits⟩
      have holds := (Engine.owned_iff grounded'.sound grounded'.labelled).mp member
      exact (held x.2 x.1 holds).imp (Engine.owned_iff grounded.sound grounded.labelled).mpr
        fun new => Prod.ext new.1 new.2
    | refused fault neutral held =>
      refine ⟨.refused, .refused fault.clientMessage free ?_ neutral
        (owned_fewer grounded grounded' held).1 said waits⟩
      rw [if_pos room]
      exact ⟨fault, told, rfl⟩

section Comes

variable {w : World} {place : Nat} {p : Peer} {later : List Move}
  (subscribes : Subscribes k c id w place p a) (begun : first.engine = Engine.start setup hub)
  (nobody : first.peers = []) (reached : Reached (World.start first) w.state w.tasks log)
  (unheard : Unheard k ((w.move (.step place)).turns k later))

include subscribes begun nobody reached unheard

/-- An id that is in use. -/
theorem Subscribes.taken (use : ∃ x ∈ w.state.engine.owned c, x.2 = id) :
    let u := (w.move (.step place)).play later
    let own := w.turns k (.step place :: later)
    (readers k u.tasks = [] ∨ ReaderWaits k u.tasks) ∧
      Comes k c id p.protocol w.state.settings.maxSubscriptions w u own
        (tellings k own) .taken := by
  intro u own
  have neutral : Neutral (w.state, a) := session_neutral w.state subscribes.session
  obtain ⟨q, reaction, reacts, done, said⟩ := subscribes.reacts
  obtain ⟨-, mine, -⟩ := subscribes.turn begun nobody reached
  rcases onSubscribe_cases p.protocol (w.state.engine.owned c)
    w.state.settings.maxSubscriptions id q with
    ⟨-, answers⟩ | ⟨free, -⟩ | ⟨free, -⟩
  · obtain rfl := reacts.symm.trans answers
    cases speaks : p.protocol with
    | transport =>
      rw [speaks] at done said
      have leaves : (w.state.perform a).next =
          [.engine (.release c), .engine (.answer w.state.engine.calls .done), .waitForWriter k] :=
        done ▸ closeWith_next (popped_here subscribes.peer) subscribes.connection _ _
      have gone : readers k (w.move (.step place)).tasks = [] := by
        rw [mine, leaves]
        simp [readers, readBy, Action.reads?]
      obtain ⟨once, same, owned⟩ := subscribes.idles begun nobody reached (.inl gone) unheard
      refine ⟨.inl (same.trans gone), .taken (w.state, a) use once neutral owned ?_⟩
      rw [show own = _ from once, said]
      exact ⟨rfl, same.trans gone, _, leaves⟩
    | legacy =>
      rw [speaks] at done said
      obtain ⟨once, waits, owned⟩ := subscribes.rests begun nobody reached done unheard
      refine ⟨.inr waits, .taken (w.state, a) use once neutral owned ?_⟩
      rw [show own = _ from once, said]
      exact ⟨rfl, waits⟩
  all_goals
    obtain ⟨x, member, label⟩ := use
    exact absurd label (free x member)

theorem Subscribes.full (free : ∀ x ∈ w.state.engine.owned c, x.2 ≠ id)
    (full : w.state.settings.maxSubscriptions ≤ (w.state.engine.owned c).length) :
    let u := (w.move (.step place)).play later
    let own := w.turns k (.step place :: later)
    ReaderWaits k u.tasks ∧
      Comes k c id p.protocol w.state.settings.maxSubscriptions w u own (tellings k own)
        .refused := by
  intro u own
  have neutral : Neutral (w.state, a) := session_neutral w.state subscribes.session
  obtain ⟨q, reaction, reacts, done, said⟩ := subscribes.reacts
  rcases onSubscribe_cases p.protocol (w.state.engine.owned c)
    w.state.settings.maxSubscriptions id q with
    ⟨⟨x, member, label⟩, -⟩ | ⟨-, -, rejects⟩ | ⟨-, room, -⟩
  · exact absurd label (free x member)
  · obtain rfl := reacts.symm.trans rejects
    obtain ⟨once, waits, owned⟩ := subscribes.rests begun nobody reached done unheard
    refine ⟨waits, .refused WebSocket.Session.tooManySubscriptions free ?_ ?_ owned ?_ waits⟩
    · rw [if_neg (Nat.not_lt.mpr full)]
    · simpa [show own = _ from once] using neutral
    · rw [show own = _ from once, said]
      rfl
  · exact absurd room (Nat.not_lt.mpr full)

theorem Subscribes.handling (free : ∀ x ∈ w.state.engine.owned c, x.2 ≠ id)
    (room : (w.state.engine.owned c).length < w.state.settings.maxSubscriptions) :
    let u := (w.move (.step place)).play later
    Handling k c id w.state.engine.calls w.state.engine u.state.engine (readers k u.tasks)
      (w.turns k (.step place :: later)) := by
  intro u
  have neutral : Neutral (w.state, a) := session_neutral w.state subscribes.session
  obtain ⟨q, reaction, reacts, done, said⟩ := subscribes.reacts
  obtain ⟨taken, mine, spared⟩ := subscribes.turn begun nobody reached
  rcases onSubscribe_cases p.protocol (w.state.engine.owned c)
    w.state.settings.maxSubscriptions id q with
    ⟨⟨x, member, label⟩, -⟩ | ⟨-, full, -⟩ | ⟨-, -, asks⟩
  · exact absurd label (free x member)
  · exact absurd room (Nat.not_lt.mpr full)
  · obtain rfl := reacts.symm.trans asks
    have reads : readers k (w.move (.step place)).tasks =
        [[.engine (.subscribe w.state.engine.calls c id q),
          .subscribed k id w.state.engine.calls]] := by
      rw [mine, done]
      exact reads_subscribed [.subscribe w.state.engine.calls c id q] k id w.state.engine.calls
    have begins : Handling k c id w.state.engine.calls w.state.engine
        (w.move (.step place)).state.engine (readers k (w.move (.step place)).tasks)
          [(w.state, a)] := by
      rw [reads]
      exact .asks _ _ (by simpa using neutral) said spared.holds
    have handling :=
      turns_keep (P := Handling k c id w.state.engine.calls w.state.engine) begun nobody
      (fun handling spared => handling.spared spared)
      (fun reached sits _ silent handling => handling.turn begun nobody reached sits silent)
      (reached_move reached (.step place))
        (reached_sits subscribes.sits (reached_move .start _)) begins
      later unheard
    rw [← taken] at handling
    exact World.turns_append k w [.step place] later ▸ handling

end Comes

/-- Whatever an acknowledged client subscribes to, in either protocol and under whichever id, it
comes to exactly one of three things, and always may come to it without anybody's help. Its session
says nothing before. -/
theorem subscribe_exact (setup : Setup) (hub : Hub) (first : Server)
    (begun : first.engine = Engine.start setup hub) (nobody : first.peers = []) (k : PeerId)
    (c : ConnectionId) (id : String) (moves : List Move) :
    let w := (World.start first).play moves
    ∀ place p a, Subscribes k c id w place p a →
      ∀ later, Unheard k ((w.move (.step place)).turns k later) →
        let u := (w.move (.step place)).play later
        let own := w.turns k (.step place :: later)
        let said := tellings k (w.steps (.step place :: later))
        (Awaits k u.tasks → said = []) ∧
        (¬ Awaits k u.tasks →
          ∃! x, Comes k c id p.protocol first.settings.maxSubscriptions w u own said x) ∧
        ∃ further, (∀ v ∈ further, v.isInner = true) ∧ Unheard k (u.turns k further) ∧
          ¬ Awaits k (u.play further).tasks := by
  intro w place p a subscribes later unheard u own said
  have reached := play_reached (World.start first) moves
  have there := reached_play (reached_move reached (.step place)) later
  have sits : u.state.Sits k c := reached_sits
    (reached_sits subscribes.sits (reached_move .start _)) (play_reached _ later)
  have spoken : said = tellings k own := (tellings_turns k w _).symm
  have settings : w.state.settings = first.settings := reached_settings reached
  rw [spoken, ← settings]
  suffices settled : (Awaits k u.tasks → tellings k own = []) ∧
      (¬ Awaits k u.tasks → ∃ x, Comes k c id p.protocol w.state.settings.maxSubscriptions w u own
        (tellings k own) x) ∧ ∃ w', Onward k u w' ∧ ¬ Awaits k w'.tasks by
    obtain ⟨silent, comes, w', ⟨further, inner, unheard', rfl⟩, ended⟩ := settled
    refine ⟨silent, fun ended => ?_, further, inner, unheard', ended⟩
    obtain ⟨x, comes⟩ := comes ended
    exact ⟨x, comes, fun y also => also.unique comes⟩
  by_cases use : ∃ x ∈ w.state.engine.owned c, x.2 = id
  · obtain ⟨idle, comes⟩ := subscribes.taken begun nobody reached unheard use
    have ended := idle_awaits idle
    exact ⟨fun awaits => absurd awaits ended, fun _ => ⟨_, comes⟩, u, .refl k u, ended⟩
  have free (x : SubscriptionId × String) (member : x ∈ w.state.engine.owned c) : x.2 ≠ id :=
    fun same => use ⟨x, member, same⟩
  by_cases room : (w.state.engine.owned c).length < w.state.settings.maxSubscriptions
  · have handling := subscribes.handling begun nobody reached unheard free room
    exact ⟨handling.silent, handling.comes (reached_grounded begun reached)
      (reached_grounded begun there) free room, handling.ends begun nobody there sits⟩
  · obtain ⟨waits, comes⟩ :=
      subscribes.full begun nobody reached unheard free (Nat.le_of_not_lt room)
    have ended := idle_awaits (.inr waits)
    exact ⟨fun awaits => absurd awaits ended, fun _ => ⟨_, comes⟩, u, .refl k u, ended⟩

def staffAsking : List Move := staffStart.take 4

def staffAnswering : List Move := List.replicate 4 (.step 0)

theorem staff_subscribe_exact :
    ∃ p a, Subscribes 0 0 "1" ((World.start staffServer).play staffAsking) 1 p a ∧
      Comes 0 0 "1" p.protocol staffServer.settings.maxSubscriptions
        ((World.start staffServer).play staffAsking)
        ((((World.start staffServer).play staffAsking).move (.step 1)).play staffAnswering)
        (((World.start staffServer).play staffAsking).turns 0 (.step 1 :: staffAnswering))
          [] .admitted := by
  have exact :=
    subscribe_exact Engine.staffSetup Engine.staffHub staffServer rfl rfl 0 0 "1" staffAsking
  have asks : (((World.start staffServer).play staffAsking).heard? 0 1).map (fun x =>
        (x.1.acknowledged, x.1.connection?, x.1.protocol.subscribes? x.2)) =
      some (true, some 0, some "1") := by decide +kernel
  have unheard : Unheard 0 ((((World.start staffServer).play staffAsking).move (.step 1)).turns 0
      staffAnswering) := by decide +kernel
  have settled : ¬ Awaits 0 ((((World.start staffServer).play staffAsking).move (.step 1)).play
      staffAnswering).tasks := by decide +kernel
  have done : (((World.start staffServer).play staffAsking).turns 0
      (.step 1 :: staffAnswering)).length = 5 := by decide +kernel
  have mute : (tellings 0 (((World.start staffServer).play staffAsking).steps
      (.step 1 :: staffAnswering))).isEmpty = true := by decide +kernel
  generalize (World.start staffServer).play staffAsking = w at *
  obtain ⟨⟨p, t⟩, heard, known⟩ := Option.map_eq_some_iff.mp asks
  obtain ⟨acknowledged, connection, asks⟩ :
      p.acknowledged = true ∧ p.connection? = some 0 ∧ p.protocol.subscribes? t = some "1" := by
    simpa using known
  obtain ⟨here, since, before, due?, goes, message⟩ := World.of_heard heard
  obtain ⟨q, decoded⟩ := WebSocket.Protocol.subscribes_iff.mp asks
  have subscribes : Subscribes 0 0 "1" w 1 p (.read 0 since before due?) :=
    ⟨goes, here, connection, acknowledged, since, before, due?, t, q, rfl, message, decoded⟩
  obtain ⟨x, comes, -⟩ := (exact 1 p _ subscribes staffAnswering unheard).2.1 settled
  rw [List.isEmpty_iff.mp mute] at comes
  refine ⟨p, _, subscribes, ?_⟩
  cases x with
  | admitted => exact comes
  | refused =>
    cases comes with
    | refused _ _ _ _ _ rejects => simp at rejects
  | taken =>
    cases comes with
    | taken _ _ once => simp [once] at done

end Server

end SubscriptionGateway
