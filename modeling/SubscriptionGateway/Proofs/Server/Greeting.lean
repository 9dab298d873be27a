import SubscriptionGateway.Proofs.Server.Marks
import SubscriptionGateway.Proofs.Server.Silence

/-!
What a session says, and when. It greets its client once, and before that it says nothing about any
subscription: nobody asks for one on the client's connection, and there has been none. Whatever it
says belongs to the protocol that the client speaks.
-/
namespace SubscriptionGateway

open Broker

/-! ## Messages of a protocol -/

namespace WebSocket

theorem Envelope.text_id {e e' : Envelope} (same : e.json.text = e'.json.text) :
    e.id?.isSome = e'.id?.isSome := by
  have opens (e : Envelope) :
      e.json.chars.take 3 = ['\x7b', '"', if e.id?.isSome then 'i' else 't'] := by
    cases id : e.id? <;> simp [Envelope.json, id, Json.chars, Json.quoted, Json.escape]
  have alike := opens e
  rw [String.ofList_injective same, opens e'] at alike
  cases here : e.id?.isSome <;> cases there : e'.id?.isSome <;> simp_all

namespace Protocol

def has : Protocol → ServerMessage → Bool
  | .transport, .keepAlive => false
  | .legacy, .pong _ => false
  | _, _ => true

def kinds : Protocol → List String
  | .transport => ["connection_ack", "next", "error", "complete", "pong"]
  | .legacy => ["connection_ack", "ka", "data", "complete"]

theorem envelope_kind {p : Protocol} {m : ServerMessage} {e : Envelope} (has : p.has m = true)
    (envelope : p.envelope? m = some e) : e.kind ∈ p.kinds := by
  cases m with
  | close code reason => simp [envelope?] at envelope
  | _ =>
    cases p <;> obtain rfl := Option.some.inj envelope <;> simp_all [Protocol.has, kinds]

theorem envelope_about {p : Protocol} {m : ServerMessage} {e : Envelope}
    (envelope : p.envelope? m = some e) : e.id?.isSome = m.id?.isSome := by
  cases m with
  | close code reason => simp [envelope?] at envelope
  | _ => cases p <;> obtain rfl := Option.some.inj envelope <;> rfl

theorem encode_about {p : Protocol} {m m' : ServerMessage} {text : String}
    (one : p.encode? m = some text) (other : p.encode? m' = some text) :
    m.id?.isSome = m'.id?.isSome := by
  obtain ⟨e, envelope, rfl⟩ := Option.map_eq_some_iff.mp one
  obtain ⟨e', envelope', same⟩ := Option.map_eq_some_iff.mp other
  rw [← envelope_about envelope, ← envelope_about envelope', Envelope.text_id same]

/-- Nothing else reads like an acknowledgement. -/
theorem encode_ack {p : Protocol} {m : ServerMessage} (same : p.encode? m = p.encode? .ack) :
    m = .ack := by
  have about : m.id?.isSome = ServerMessage.ack.id?.isSome := encode_about (same.trans rfl) rfl
  cases m with
  | ack => rfl
  | keepAlive | pong =>
    have chars := String.ofList_injective (Option.some.inj same)
    cases p <;> simp [Envelope.json, Json.chars, Json.quoted, Json.escape] at chars
  | close => simp [encode?, envelope?] at same
  | next | error | complete => simp [ServerMessage.id?] at about

theorem decode_ping {p : Protocol} {text : String} {payload : Option Json}
    (decoded : p.decode text = .ok (.ping payload)) : p = .transport := by
  simp only [decode] at decoded
  split at decoded
  · simp only [ofEnvelope] at decoded
    split at decoded
    · simp at decoded
    split at decoded
    · split at decoded
      · simp at decoded
      · split at decoded <;> simp at decoded
    split at decoded
    · split at decoded <;> simp at decoded
    split at decoded
    · rfl
    · simp at decoded
    · simp at decoded
    · simp at decoded
  · simp at decoded

end Protocol

namespace Session

inductive AnswersText (p : Protocol) (greeted : Bool) : Reaction → Prop where
  | greets (new : greeted = false) : AnswersText p greeted (.acknowledge (greeting p))
  | replies (ms : List ServerMessage) (plain : ∀ m ∈ ms, m ≠ .ack)
      (known : ∀ m ∈ ms, m.id? ≠ none → greeted = true) (has : ∀ m ∈ ms, p.has m = true) :
    AnswersText p greeted (.reply ms)
  | closes (code : Nat) (reason : String) : AnswersText p greeted (.close code reason)
  | subscribes (id : String) (r : Request) (known : greeted = true) :
    AnswersText p greeted (.subscribe id r)
  | unsubscribes (id : String) (s : SubscriptionId) : AnswersText p greeted (.unsubscribe id s)
  | leaves : AnswersText p greeted .leave

theorem rejection_has (p : Protocol) (id message : String) :
    ∀ m ∈ rejection id message, m ≠ .ack ∧ p.has m = true := by
  cases p <;> simp [rejection, Protocol.has]

theorem unsubscribed_has (p : Protocol) (id : String) :
    ∀ m ∈ unsubscribed p id, m ≠ .ack ∧ p.has m = true := by
  cases p <;> simp [unsubscribed, Protocol.has]

theorem onText_answers (p : Protocol) (greeted : Bool) (owned : List (SubscriptionId × String))
    (most : Nat) (text : String) : AnswersText p greeted (onText p greeted owned most text) := by
  simp only [onText]
  split
  · rename_i m decoded
    cases m with
    | init payload =>
      simp only [onMessage]
      split
      · exact .closes _ _
      · rename_i new
        exact .greets (by simpa using new)
    | ping payload =>
      obtain rfl := Protocol.decode_ping decoded
      exact .replies _ (by simp) (by simp [ServerMessage.id?]) (by simp [Protocol.has])
    | pong => exact .replies [] (by simp) (by simp) (by simp)
    | subscribe id r =>
      simp only [onMessage, onSubscribe]
      split
      · rename_i known
        split
        · cases p with
          | transport => exact .closes _ _
          | legacy =>
            exact .replies _ (by simp) (fun _ _ _ => known) (by simp [Protocol.has])
        split
        · exact .replies _ (fun m said => (rejection_has p id _ m said).1) (fun _ _ _ => known)
            fun m said => (rejection_has p id _ m said).2
        · exact .subscribes id r known
      · exact .closes _ _
    | complete id =>
      simp only [onMessage]
      split
      · exact .unsubscribes id _
      · exact .replies [] (by simp) (by simp) (by simp)
    | terminate => exact .leaves
  · exact .closes _ _

end Session

end WebSocket

namespace Engine

variable {e : Engine} {a : Action} {x : SubscriptionId} {y : Subscriber} {rest : List Action}

theorem perform_recorded (sound : e.books.Sound (duties (a :: rest)))
    (found : (e.perform a).engine.subscribers[x]? = some y) :
    (∃ y', e.subscribers[x]? = some y' ∧ y'.connection = y.connection) ∨
      ∃ id, a.aim? e = some (y.connection, id) := by
  cases before : e.subscribers[x]? with
  | some y' =>
    obtain ⟨y'', found', same⟩ := perform_same e a before
    obtain rfl : y = y'' := by simpa [found] using found'
    exact .inl ⟨y', rfl, same.connection.symm⟩
  | none =>
    obtain ⟨call, c, id, r, rfl, rfl⟩ := absent_subscribes sound before found
    obtain ⟨-, compiled, rfl, -⟩ := subscribe_record found
    exact .inr ⟨id, rfl⟩

end Engine

namespace Server

open WebSocket
open Engine (Grounded)

variable {s s' : Server} {k : PeerId} {c : ConnectionId} {id : String} {e e' : Engine} {a : Action}
  {p p' : Peer} {task todo : List Action} {ts us others : List (List Action)} {log : Steps}
  {setup : Setup} {hub : Hub} {first : Server} {ms more : List ServerMessage}

/-! ## What is said in an action -/

structure Speech (p : Peer) (greets : Bool) (ms : List ServerMessage) : Prop where
  greeting : greets = true → p.acknowledged = false ∧ ms = Session.greeting p.protocol
  plain : greets = false → ∀ m ∈ ms, m ≠ .ack
  known : greets = false → ∀ m ∈ ms, m.id? ≠ none → p.acknowledged = true
  has : ∀ m ∈ ms, p.protocol.has m = true

theorem speech_silent (p : Peer) : Speech p false [] := ⟨by simp, by simp, by simp, by simp⟩

theorem speech_close (p : Peer) (code : Nat) (reason : String) :
    Speech p false [.close code reason] :=
  ⟨by simp, by simp, by simp [ServerMessage.id?], by cases p.protocol <;> simp [Protocol.has]⟩

theorem replies_speech (s : Server) (p : Peer) (c : ConnectionId) (i : Incoming) :
    Speech p (s.greetsFor p c i) (s.replies p c i) := by
  cases i with
  | text t =>
    simp only [greetsFor, replies]
    generalize reaction : Session.onText p.protocol p.acknowledged (s.engine.owned c)
      s.settings.maxSubscriptions t = r
    have answers := reaction ▸ Session.onText_answers p.protocol p.acknowledged (s.engine.owned c)
      s.settings.maxSubscriptions t
    cases answers with
    | greets new =>
      refine ⟨fun _ => ⟨new, rfl⟩, by simp [Reaction.isGreeting], by simp [Reaction.isGreeting], ?_⟩
      cases p.protocol <;> simp [Reaction.messages, Session.greeting, Protocol.has]
    | replies ms plain known has => exact ⟨by simp [Reaction.isGreeting], fun _ => plain,
        fun _ => known, has⟩
    | closes code reason => exact speech_close p code reason
    | subscribes | unsubscribes | leaves => exact speech_silent p
  | binary => exact speech_close p _ _
  | ping | pong | close | lost => exact speech_silent p

theorem tells_speech (here : s.peers[k]? = some p)
    (waits : a.reads? = some k → p.acknowledged = false → ∃ since before due?,
      a = .read k since before due?) : Speech p (s.greets k a) (s.tells k a) := by
  cases a with
  | read k' since before due? =>
    by_cases same : k' = k
    · subst same
      simp only [tells, greets, speaks, here, ↓reduceIte, beq_self_eq_true, Bool.true_and]
      cases s.look p since before with
      | none => cases p.connection? <;> exact speech_close p _ _
      | some news =>
        cases p.connection? with
        | none => cases news <;> exact speech_silent p
        | some c =>
          cases news with
          | item i => exact replies_speech s p c i
          | _ => exact speech_silent p
    · have other : (k' == k) = false := by simpa using same
      simp only [tells, same, ↓reduceIte, greets, other, Bool.false_and]
      exact speech_silent p
  | subscribed k' id call =>
    simp only [tells, greets]
    split
    · rename_i same
      subst same
      have known : p.acknowledged = true := Bool.not_eq_false _ |>.mp fun new => by
        simpa using waits rfl new
      split
      · rename_i fault _
        have plain := Session.rejection_has p.protocol id fault.clientMessage
        exact ⟨by simp, fun _ m said => (plain m said).1, fun _ _ _ _ => known,
          fun m said => (plain m said).2⟩
      · exact speech_silent p
    · exact speech_silent p
  | unsubscribed k' id =>
    simp only [tells, greets]
    split
    · rename_i same
      subst same
      have known : p.acknowledged = true := Bool.not_eq_false _ |>.mp fun new => by
        simpa using waits rfl new
      have plain := Session.unsubscribed_has p.protocol id
      rw [here]
      exact ⟨by simp, fun _ m said => (plain m said).1, fun _ _ _ _ => known,
        fun m said => (plain m said).2⟩
    · exact speech_silent p
  | _ => exact speech_silent p

/-! ## What is said in all -/

/-- There is one acknowledgement, and what is said about subscriptions comes after it. -/
structure Mannerly (ms : List ServerMessage) : Prop where
  once : ∀ before after, ms = before ++ .ack :: after → .ack ∉ before
  first : ∀ before m after, ms = before ++ m :: after → m.id? ≠ none → .ack ∈ before

theorem mannerly_nil : Mannerly [] := ⟨by simp, by simp⟩

theorem Mannerly.snoc {m : ServerMessage} (mannerly : Mannerly ms) (once : m = .ack → .ack ∉ ms)
    (first : m.id? ≠ none → .ack ∈ ms) : Mannerly (ms ++ [m]) where
  once before after same := by
    rcases List.eq_nil_or_concat' after with rfl | ⟨rest, last, rfl⟩
    · obtain ⟨rfl, rfl⟩ : ms = before ∧ m = .ack := by simpa using List.append_inj' same rfl
      exact once rfl
    · rw [← List.cons_append, ← List.append_assoc] at same
      exact mannerly.once before rest (List.append_inj' same rfl).1
  first before m' after same about := by
    rcases List.eq_nil_or_concat' after with rfl | ⟨rest, last, rfl⟩
    · obtain ⟨rfl, rfl⟩ : ms = before ∧ m = m' := by simpa using List.append_inj' same rfl
      exact first about
    · rw [← List.cons_append, ← List.append_assoc] at same
      exact mannerly.first before m' rest (List.append_inj' same rfl).1 about

theorem Mannerly.of_prefix (mannerly : Mannerly ms) (early : more <+: ms) : Mannerly more := by
  obtain ⟨rest, rfl⟩ := early
  exact ⟨fun before after same => mannerly.once before (after ++ rest) (by simp [same]),
    fun before m after same => mannerly.first before m (after ++ rest) (by simp [same])⟩

theorem Mannerly.append (mannerly : Mannerly ms) (plain : ∀ m ∈ more, m ≠ .ack)
    (known : ∀ m ∈ more, m.id? ≠ none → .ack ∈ ms) : Mannerly (ms ++ more) := by
  induction more generalizing ms with
  | nil => rwa [List.append_nil]
  | cons m more ih =>
    have next : Mannerly (ms ++ [m]) :=
      mannerly.snoc (fun ack => absurd ack (plain m (List.mem_cons_self ..)))
        (known m (List.mem_cons_self ..))
    have rest := ih next (fun m' later => plain m' (List.mem_cons_of_mem _ later))
      fun m' later about => List.mem_append_left _ (known m' (List.mem_cons_of_mem _ later) about)
    simpa using rest

theorem Mannerly.greeting (mannerly : Mannerly ms) (new : .ack ∉ ms) (p : Protocol) :
    Mannerly (ms ++ Session.greeting p) := by
  have greeted := mannerly.snoc (m := .ack) (fun _ => new) (by simp [ServerMessage.id?])
  cases p with
  | transport => exact greeted
  | legacy =>
    have kept : Mannerly (ms ++ [.ack] ++ [.keepAlive]) :=
      greeted.append (by simp) (by simp [ServerMessage.id?])
    simpa [Session.greeting] using kept

/-! ## Before a client is greeted -/

def Action.isTame : Action → Bool
  | .engine b => !b.asks
  | .subscribed .. | .unsubscribed .. => false
  | _ => true

theorem tame_reads (tame : a.isTame = true) (whose : a.reads? = some k) :
    ∃ since before due?, a = .read k since before due? := by
  cases a with
  | read k' since before due? =>
    obtain rfl : k' = k := by simpa [Action.reads?] using whose
    exact ⟨since, before, due?, rfl⟩
  | subscribed | unsubscribed => simp [Action.isTame] at tame
  | _ => simp [Action.reads?] at whose

theorem tame_aims (tame : ∀ a ∈ task, a.isTame = true) : aims e task = [] := by
  refine List.filterMap_eq_nil_iff.mpr fun b member => ?_
  obtain ⟨a, inside, own⟩ := List.mem_filterMap.mp member
  obtain rfl := eq_engine own
  refine Option.eq_none_iff_forall_ne_some.mpr fun p aim => ?_
  simpa [Action.isTame, Engine.aim_asks aim] using tame _ inside

theorem readOn_tame (s : Server) (k : PeerId) : ∀ b ∈ (s.readOn k).next, b.isTame = true := by
  simp only [readOn]
  split <;> simp [Action.isTame]

theorem hangUp_tame (s : Server) (k : PeerId) : ∀ b ∈ (s.hangUp k).next, b.isTame = true := by
  simp only [hangUp]
  split
  · simp
  split
  · simp [Action.isTame]
  · simp [ask, Engine.World.release, Action.isTame, Engine.Action.asks]

/-- A session that subscribes has greeted its client, and one that unsubscribes has subscribed. -/
theorem react_tame {r : Reaction} (answers : Session.AnswersText p.protocol false r)
    (nothing : ∀ id sub, r ≠ .unsubscribe id sub) :
    ∀ b ∈ (s.react k c r).next, b.isTame = true := by
  cases answers with
  | greets | replies => exact readOn_tame _ k
  | closes | leaves => exact hangUp_tame _ k
  | subscribes id r known => simp at known
  | unsubscribes id sub => exact absurd rfl (nothing id sub)

theorem readNext_tame (here : s.peers[k]? = some p) (connection : p.connection? = some c)
    (new : p.acknowledged = false) (nobody : s.engine.owned c = []) (since : Nat) (before : Bool) :
    ∀ b ∈ (s.readNext k since before).next, b.isTame = true := by
  simp only [readNext, here, connection]
  cases s.look p since before with
  | none => exact hangUp_tame _ k
  | some news =>
    cases news with
    | idle => exact readOn_tame s k
    | closed | cancelled => exact hangUp_tame s k
    | item i =>
      cases i with
      | text t =>
        have answers := Session.onText_answers p.protocol p.acknowledged (s.engine.owned c)
          s.settings.maxSubscriptions t
        rw [new] at answers
        simp only [onItem, new]
        refine react_tame (p := p) answers fun id sub ends => ?_
        simpa [updatePeer, nobody] using onText_unsubscribe ends
      | ping payload =>
        simp only [onItem]
        split
        · exact hangUp_tame _ k
        · exact readOn_tame _ k
      | pong payload =>
        simp only [onItem]
        split
        · exact hangUp_tame _ k
        · exact readOn_tame _ k
      | binary | close | lost => exact hangUp_tame _ k

/-- Nobody asks for a subscription on a connection, and there has been none. -/
structure Strange (k : PeerId) (c : ConnectionId) (e : Engine)
    (ts : List (List Action)) : Prop where
  unasked : ∀ id, ∀ task ∈ ts, (c, id) ∉ aims e task
  waits : ∀ task ∈ ts, ∀ a ∈ task, a.reads? = some k → ∃ since before due?,
    a = .read k since before due?
  nobody : ∀ (x : SubscriptionId) (y : Subscriber), e.subscribers[x]? = some y → y.connection ≠ c

theorem Strange.perm (strange : Strange k c e ts) (perm : ts.Perm us) : Strange k c e us where
  unasked id task member := strange.unasked id task (perm.mem_iff.mpr member)
  waits task member := strange.waits task (perm.mem_iff.mpr member)
  nobody := strange.nobody

theorem Strange.tail (strange : Strange k c e (task :: ts)) : Strange k c e ts where
  unasked id u member := strange.unasked id u (List.mem_cons_of_mem _ member)
  waits u member := strange.waits u (List.mem_cons_of_mem _ member)
  nobody := strange.nobody

theorem Strange.vacant {pool : List Engine.Action} (strange : Strange k c e ts)
    (grounded : Grounded e pool) : e.owned c = [] :=
  List.eq_nil_iff_forall_not_mem.mpr fun q member => by
    have held : Engine.Holds e c q.2 q.1 :=
      (Engine.owned_iff grounded.sound grounded.labelled).mp member
    obtain ⟨x, found, connection, -⟩ := held.record
    exact strange.nobody _ x found connection

theorem quiet_subscribers (quiet : Quiet e e') : e'.subscribers = e.subscribers := by
  induction quiet with
  | same => rfl
  | input i _ _ ih => exact (Engine.input_spares _ i).1.trans ih

theorem conduct_subscribers {f : Effect} (conduct : Conduct s a f) :
    f.server.engine.subscribers = s.engine.subscribers := by
  have called (same : f.server.engine = s.engine.newCall.2) :
      f.server.engine.subscribers = s.engine.subscribers := by rw [same]; rfl
  cases conduct with
  | alone engine => exact quiet_subscribers engine
  | waits _ _ _ _ _ engine => rw [engine]
  | asks _ _ _ engine => exact called engine
  | subscribes _ _ _ _ _ _ _ _ _ _ _ _ _ _ _ engine => exact called engine
  | unsubscribes _ _ _ _ _ _ _ _ _ engine => exact called engine
  | sends _ engine => exact called engine

theorem arrival_subscribers {w : World} (arrival : Arrival s w) :
    w.state.engine.subscribers = s.engine.subscribers := by
  cases arrival with
  | quiet engine => exact quiet_subscribers engine
  | joins engine => rw [engine]; rfl
  | requests _ _ _ _ engine => rw [engine]; rfl
  | calls _ _ engine => rw [engine]; rfl

theorem session_strange {f : Effect} (conduct : Conduct s a f) (calm : inner todo = [])
    (apart : ∀ k', s.Sits k' c → k' = k)
    (tame : a.reads? = some k → ∀ b ∈ f.next, b.isTame = true)
    (strange : Strange k c s.engine ((a :: todo) :: others)) :
    Strange k c f.server.engine ((f.next ++ todo) :: (f.started ++ others)) where
  unasked id := by
    refine session_unasked conduct calm (fun u member aim => ?_) (strange.unasked id)
    obtain ⟨k', whose, sits, -, mine⟩ := session_aims conduct member aim
    obtain rfl := apart k' sits
    rcases List.mem_cons.mp member with rfl | started
    · simp [tame_aims (tame whose)] at aim
    · simp [session_started conduct started] at mine
  waits u member b inside reads := by
    have old {task : List Action} (there : task ∈ (a :: todo) :: others) (within : b ∈ task) :=
      strange.waits task there b within reads
    have by_reader (within : b ∈ u) : readBy k u = true :=
      List.any_eq_true.mpr ⟨b, within, by simp [reads]⟩
    rcases List.mem_cons.mp member with rfl | member
    · rcases List.mem_append.mp inside with new | rest
      · have mine : readBy k f.next = true := List.any_eq_true.mpr ⟨b, new, by simp [reads]⟩
        exact tame_reads (tame (session_reads conduct (List.mem_cons_self ..) mine) b new) reads
      · exact old (List.mem_cons_self ..) (List.mem_cons_of_mem _ rest)
    rcases List.mem_append.mp member with new | there
    · simpa [session_started conduct new] using by_reader inside
    · exact old (List.mem_cons_of_mem _ there) inside
  nobody x y found := strange.nobody x y (conduct_subscribers conduct ▸ found)

theorem engine_strange {b : Engine.Action}
    (grounded : Grounded e (b :: (inner todo ++ inner others.flatten)))
    (strange : Strange k c e ((.engine b :: todo) :: others)) :
    Strange k c (e.perform b).engine (((e.perform b).next.map Action.engine ++ todo) ::
      ((e.perform b).started.map (·.map Action.engine) ++ others)) where
  unasked id := engine_unasked grounded (strange.unasked id)
  waits u member a inside reads := by
    rcases List.mem_cons.mp member with rfl | member
    · rcases List.mem_append.mp inside with new | rest
      · obtain ⟨b', -, rfl⟩ := List.mem_map.mp new
        simp [Action.reads?] at reads
      · exact strange.waits _ (List.mem_cons_self ..) a (List.mem_cons_of_mem _ rest) reads
    rcases List.mem_append.mp member with new | there
    · obtain ⟨es, -, rfl⟩ := List.mem_map.mp new
      obtain ⟨b', -, rfl⟩ := List.mem_map.mp inside
      simp [Action.reads?] at reads
    · exact strange.waits u (List.mem_cons_of_mem _ there) a inside reads
  nobody x y found same := by
    rcases Engine.perform_recorded grounded.sound found with ⟨y', old, alike⟩ | ⟨id, aim⟩
    · exact strange.nobody x y' old (alike.trans same)
    · exact strange.unasked id _ (List.mem_cons_self ..)
        (by simp [aims, inner, Action.engine?, aim, same])

theorem outside_strange {w : World} (arrival : Arrival s w) (company : Company s w)
    (seated : Seated s ts) (sits : s.Sits k c) (strange : Strange k c s.engine ts) :
    Strange k c w.state.engine (w.tasks ++ ts) where
  unasked id := outside_unasked arrival seated sits (strange.unasked id)
  waits u member a inside reads := by
    rcases List.mem_append.mp member with new | old
    · have mine : readBy k u = true := List.any_eq_true.mpr ⟨a, inside, by simp [reads]⟩
      exact absurd ((company_count company).2 u new k mine).1 (Nat.ne_of_lt sits.bound)
    · exact strange.waits u old a inside reads
  nobody x y found := strange.nobody x y (arrival_subscribers arrival ▸ found)

/-! ## Every reached server -/

theorem perform_absent (absent : (s.perform a).server.peers[k]? = none) : s.peers[k]? = none := by
  rw [List.getElem?_eq_none_iff] at absent ⊢
  rwa [(perform_attends s k a).count] at absent

theorem input_absent {i : Input} (absent : (i.act ⟨s, []⟩).state.peers[k]? = none) :
    s.peers[k]? = none := by
  cases here : s.peers[k]? with
  | none => rfl
  | some p =>
    obtain ⟨p', there, -⟩ := input_alters (k := k) s i p here
    simp [absent] at there

theorem reached_untold (begun : first.engine = Engine.start setup hub) (nobody : first.peers = [])
    (reached : Reached (World.start first) s ts log) (absent : s.peers[k]? = none) :
    tellings k log = [] := by
  induction reached with
  | start => rfl
  | shuffle _ _ ih => exact ih absent
  | idle _ ih => exact ih absent
  | outside i _ ih => exact ih (input_absent absent)
  | @inside s a todo others log _ before ih =>
    have absent := perform_absent absent
    rw [tellings_more, ih absent, List.nil_append]
    refine List.eq_nil_iff_forall_not_mem.mpr fun m said => ?_
    have mine : readBy k (a :: todo) = true := by simp [readBy, (tells_reads said).1]
    exact absurd ((reached_seated begun nobody before).present _ (List.mem_cons_self ..) k mine)
      (Nat.not_lt.mpr (List.getElem?_eq_none_iff.mp absent))

theorem reached_recorded (begun : first.engine = Engine.start setup hub) (nobody : first.peers = [])
    (reached : Reached (World.start first) s ts log) :
    ∀ (x : SubscriptionId) (y : Subscriber), s.engine.subscribers[x]? = some y →
      y.connection < s.engine.connections.length := by
  induction reached with
  | start => simp [World.start, begun, Engine.start]
  | shuffle _ _ ih => exact ih
  | idle _ ih => exact ih
  | @outside s _ _ i _ ih =>
    have arrival := input_arrival s i
    have spared : Engine.Spared 0 [] s.engine (i.act ⟨s, []⟩).state.engine := arrival_spared arrival
    intro x y found
    exact Nat.lt_of_lt_of_le (ih x y (arrival_subscribers arrival ▸ found)) spared.made
  | @inside s a todo others _ _ before ih =>
    intro x y found
    cases session : a.engine? with
    | none =>
      have conduct := perform_conduct s a session
      have spared : Engine.Spared 0 [] s.engine (s.perform a).server.engine :=
        conduct_spared conduct
      exact Nat.lt_of_lt_of_le (ih x y (conduct_subscribers conduct ▸ found)) spared.made
    | some b =>
      obtain rfl := eq_engine session
      have grounded := inner_pending b todo others ▸ reached_grounded begun before
      refine Nat.lt_of_lt_of_le ?_ (Nat.le_of_eq (Engine.perform_setup s.engine b).2.symm)
      rcases Engine.perform_recorded grounded.sound found with ⟨y', old, alike⟩ | ⟨id, aim⟩
      · exact alike ▸ ih x y' old
      · exact (reached_seated begun nobody before).aimed _ (List.mem_cons_self ..)
          (y.connection, id)
          (by simp [aims, inner, Action.engine?, aim])

structure Civil (k : PeerId) (c : ConnectionId) (p : Peer) (e : Engine) (ts : List (List Action))
    (said : List ServerMessage) : Prop where
  mannerly : Mannerly said
  greeted : p.acknowledged = true ↔ .ack ∈ said
  has : ∀ m ∈ said, p.protocol.has m = true
  strange : p.acknowledged = false → Strange k c e ts

theorem Civil.tells {said : List ServerMessage} {g : Bool} (civil : Civil k c p e ts said)
    (speech : Speech p g more) (protocol : p'.protocol = p.protocol)
    (greeted : p'.acknowledged = (p.acknowledged || g))
    (strange : p'.acknowledged = false → Strange k c e' us) :
    Civil k c p' e' us (said ++ more) where
  mannerly := by
    cases g with
    | true =>
      obtain ⟨new, rfl⟩ := speech.greeting rfl
      refine civil.mannerly.greeting (fun ack => ?_) _
      simp [civil.greeted.mpr ack] at new
    | false =>
      exact civil.mannerly.append (speech.plain rfl) fun m later about =>
        civil.greeted.mp (speech.known rfl m later about)
  greeted := by
    rw [greeted, List.mem_append, Bool.or_eq_true, civil.greeted]
    cases g with
    | true =>
      obtain ⟨-, rfl⟩ := speech.greeting rfl
      cases p.protocol <;> simp [Session.greeting]
    | false =>
      have none : .ack ∉ more := fun ack => speech.plain rfl _ ack rfl
      simp [none]
  has m member := by
    rw [protocol]
    exact (List.mem_append.mp member).elim (civil.has m) (speech.has m)
  strange := strange

theorem inside_strange (session : a.engine? = none) (fronted : Fronted (a :: todo))
    (grounded : Grounded s.engine (inner ((a :: todo) :: others).flatten))
    (apart : ∀ k', s.Sits k' c → k' = k) (here : s.peers[k]? = some p)
    (connection : p.connection? = some c) (new : p.acknowledged = false)
    (strange : Strange k c s.engine ((a :: todo) :: others)) :
    Strange k c (s.perform a).server.engine
      (((s.perform a).next ++ todo) :: ((s.perform a).started ++ others)) := by
  refine session_strange (perform_conduct s a session) (fronted_after session fronted) apart
    (fun whose => ?_) strange
  obtain ⟨since, before, due?, rfl⟩ :=
    strange.waits _ (List.mem_cons_self ..) a (List.mem_cons_self ..) whose
  exact readNext_tame here connection new (strange.vacant grounded) since before

theorem joined_strange {w : World} {since : Nat} {before : Bool} {due? : Option Nat}
    (arrival : Arrival s w) (seated : Seated s ts)
    (recorded : ∀ (x : SubscriptionId) (y : Subscriber), s.engine.subscribers[x]? = some y →
      y.connection < s.engine.connections.length)
    (tasks : w.tasks = [[.pick s.peers.length], [.read s.peers.length since before due?]]) :
    Strange s.peers.length s.engine.connections.length w.state.engine (w.tasks ++ ts) := by
  have spared : Engine.Spared 0 (inner ts.flatten) s.engine w.state.engine := arrival_spared arrival
  have either {u : List Action} (new : u ∈ w.tasks) : u = [.pick s.peers.length] ∨
      u = [.read s.peers.length since before due?] := by simpa [tasks] using new
  refine ⟨fun id u member aim => ?_, fun u member a inside reads => ?_, fun x y found same => ?_⟩
  · rcases List.mem_append.mp member with new | old
    · rcases either new with rfl | rfl <;> exact absurd aim List.not_mem_nil
    · rw [aims_same fun b inside => spared.aims b (mem_inner_flatten old inside)] at aim
      exact Nat.lt_irrefl _ (seated.aimed u old _ aim)
  · rcases List.mem_append.mp member with new | old
    · rcases either new with rfl | rfl
      · obtain rfl := List.mem_singleton.mp inside
        simp [Action.reads?] at reads
      · exact ⟨since, before, due?, List.mem_singleton.mp inside⟩
    · have mine : readBy s.peers.length u = true :=
        List.any_eq_true.mpr ⟨a, inside, by simp [reads]⟩
      exact absurd (seated.present u old _ mine) (Nat.lt_irrefl _)
  · exact Nat.ne_of_lt (recorded x y (arrival_subscribers arrival ▸ found)) same

theorem reached_civil (begun : first.engine = Engine.start setup hub) (nobody : first.peers = [])
    (reached : Reached (World.start first) s ts log) :
    ∀ p, s.peers[k]? = some p → p.connection? = some c →
      Civil k c p s.engine ts (tellings k log) := by
  induction reached with
  | start => simp [World.start, nobody]
  | shuffle perm _ ih =>
    intro p here connection
    obtain ⟨mannerly, greeted, has, strange⟩ := ih p here connection
    exact ⟨mannerly, greeted, has, fun new => (strange new).perm perm⟩
  | idle _ ih =>
    intro p here connection
    obtain ⟨mannerly, greeted, has, strange⟩ := ih p here connection
    exact ⟨mannerly, greeted, has, fun new => (strange new).tail⟩
  | @outside s ts log i before ih =>
    intro p' there connection
    have seated := reached_seated begun nobody before
    have arrival := input_arrival s i
    have company := input_company s i
    cases here : s.peers[k]? with
    | some p =>
      have touched := (input_alters s i).touched here there
      have sat := touched.connection.symm.trans connection
      have civil := ih p here sat
      have onward := civil.tells (speech_silent p) touched.protocol touched.greeted fun new =>
        outside_strange arrival company seated ⟨p, here, sat⟩
          (civil.strange (by rwa [touched.greeted, Bool.or_false] at new))
      rwa [List.append_nil] at onward
    | none =>
      have untold := reached_untold begun nobody before here
      obtain ⟨new, -⟩ := newcomer_fresh here there
      rw [untold]
      refine ⟨mannerly_nil, by simp [new], by simp, fun _ => ?_⟩
      rcases company_sits company ⟨p', there, connection⟩ with
        ⟨q, old, -⟩ | ⟨rfl, rfl, -, since, before', due?, tasks⟩
      · simp [here] at old
      · exact joined_strange arrival seated (reached_recorded begun nobody before) tasks
  | @inside s a todo others log ready before ih =>
    intro p' there connection
    have seated := reached_seated begun nobody before
    have fronted := reached_fronted (by simp [World.start]) before _ (List.mem_cons_self ..)
    have grounded := reached_grounded begun before
    obtain ⟨p, here, touched⟩ := perform_came there
    have sat := touched.connection.symm.trans connection
    have civil := ih p here sat
    rw [tellings_more]
    refine civil.tells (tells_speech here fun whose new => ?_) touched.protocol touched.greeted
      fun new => ?_
    · exact (civil.strange new).waits _ (List.mem_cons_self ..) a (List.mem_cons_self ..) whose
    · obtain ⟨new, -⟩ : p.acknowledged = false ∧ s.greets k a = false := by
        simpa [touched.greeted] using new
      have strange := civil.strange new
      cases session : a.engine? with
      | none =>
        exact inside_strange session fronted grounded
          (fun k' sits => seated.apart k k' c ⟨p, here, sat⟩ sits) here sat new strange
      | some b =>
        obtain rfl := eq_engine session
        exact engine_strange (inner_pending b todo others ▸ grounded) strange

end Server

end SubscriptionGateway
