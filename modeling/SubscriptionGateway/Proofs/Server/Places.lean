import SubscriptionGateway.Proofs.Server.Closing
import SubscriptionGateway.Proofs.Server.Marks
import SubscriptionGateway.Proofs.Server.Turns
import SubscriptionGateway.Proofs.WebSocket.Codec

/-!
The places of a client. Its session looks whether there is one left, and whether an id is taken,
when it reads that the client subscribes; the subscription comes later. As nobody else asks on the
connection in between, there is a place for whatever is asked for until it is there.
-/
namespace SubscriptionGateway

open Broker

namespace WebSocket

def Protocol.completes? (p : Protocol) (text : String) : Option String :=
  match p.decode text with
  | .ok (.complete id) => some id
  | _ => none

theorem Protocol.completes_iff {p : Protocol} {text id : String} :
    p.completes? text = some id ↔ p.decode text = .ok (.complete id) := by
  unfold completes?
  split
  · rename_i id' decoded
    simp [decoded]
  · rename_i other
    exact ⟨fun wrong => by simp at wrong, fun decoded => absurd decoded (other id)⟩

theorem Protocol.subscribes_iff {p : Protocol} {text id : String} :
    p.subscribes? text = some id ↔ ∃ r, p.decode text = .ok (.subscribe id r) := by
  unfold subscribes?
  split
  · rename_i id' r decoded
    simp [decoded]
  · rename_i other
    exact ⟨fun wrong => by simp at wrong, fun ⟨r, decoded⟩ => absurd decoded (other id r)⟩

theorem Session.onText_room {p : Protocol} {acknowledged : Bool}
    {owned : List (SubscriptionId × String)} {most : Nat} {text id : String} {r : Request}
    (reaction : Session.onText p acknowledged owned most text = .subscribe id r) :
    owned.length < most ∧ id ≠ "" := by
  obtain ⟨decoded, -⟩ := Server.onText_subscribe reaction
  refine ⟨?_, Protocol.decode_named decoded⟩
  simp only [Session.onText, decoded, Session.onMessage, Session.onSubscribe, Session.existing]
    at reaction
  split at reaction
  · split at reaction
    · split at reaction <;> simp at reaction
    · split at reaction
      · simp at reaction
      · rename_i room
        exact Nat.lt_of_not_le room
  · simp at reaction

end WebSocket

namespace Server

open Engine (Holds Unheld Spared Grounded SameRolls Strikes)

variable {s : Server} {k : PeerId} {c : ConnectionId} {id : String} {a : Action} {e e' : Engine}
  {todo task : List Action} {ts us others : List (List Action)} {log own : Steps} {setup : Setup}
  {hub : Hub} {first : Server} {most : Nat}

/-! ## Settings -/

theorem hangUp_settings (s : Server) (k : PeerId) : (s.hangUp k).server.settings = s.settings := by
  simp only [hangUp]
  split
  · rfl
  split <;> rfl

theorem stopWriting_settings (s : Server) (k : PeerId) :
    (s.stopWriting k).settings = s.settings := by
  simp only [stopWriting]
  split <;> rfl

theorem sendMessage_settings (s : Server) (k : PeerId) (p : Peer) (m : WebSocket.ServerMessage) :
    (s.sendMessage k p m).server.settings = s.settings := by
  rw [sendMessage_server]

theorem endStream_settings (s : Server) (k : StreamId) (x : Streaming) :
    (s.endStream k x).server.settings = s.settings := by
  simp only [endStream]
  split <;> rfl

theorem react_settings (s : Server) (k : PeerId) (c : ConnectionId) (r : WebSocket.Reaction) :
    (s.react k c r).server.settings = s.settings := by
  cases r with
  | reply | acknowledge =>
    simp only [react, readOn_server]
    rfl
  | close => exact hangUp_settings _ k
  | subscribe | unsubscribe => rfl
  | leave => exact hangUp_settings s k

theorem onItem_settings (s : Server) (k : PeerId) (p : Peer) (c : ConnectionId) (i : Incoming) :
    (s.onItem k p c i).server.settings = s.settings := by
  cases i with
  | text t => exact react_settings s k c _
  | binary => exact hangUp_settings _ k
  | ping payload =>
    simp only [onItem]
    split
    · exact hangUp_settings s k
    · rw [readOn_server]
      rfl
  | pong payload =>
    simp only [onItem]
    split
    · exact hangUp_settings s k
    · rw [readOn_server]
  | close => exact hangUp_settings _ k
  | lost => exact hangUp_settings s k

theorem readNext_settings (s : Server) (k : PeerId) (since : Nat) (before : Bool) :
    (s.readNext k since before).server.settings = s.settings := by
  simp only [readNext]
  split
  · rfl
  split
  · exact onItem_settings _ k _ _ _
  · rw [readOn_server]
  · exact hangUp_settings s k
  · exact hangUp_settings _ k

theorem pickNext_settings (s : Server) (k : PeerId) :
    (s.pickNext k).server.settings = s.settings := by
  simp only [pickNext]
  split
  · rfl
  split
  · rfl
  split
  · exact sendMessage_settings _ k _ _
  split
  · rfl
  split
  · exact sendMessage_settings _ k _ _
  · rfl

theorem flush_settings (s : Server) (k : PeerId) (isLast : Bool) :
    (s.flush k isLast).server.settings = s.settings := by
  simp only [flush]
  split
  · rfl
  split
  · rfl
  split
  · split
    · exact stopWriting_settings s k
    · rfl
  split
  · split
    · exact stopWriting_settings _ k
    · rfl
  split
  · exact stopWriting_settings s k
  · split
    · exact stopWriting_settings _ k
    · exact stopWriting_settings s k

theorem writeItem_settings (s : Server) (k : PeerId) (i : Item) :
    (s.writeItem k i).server.settings = s.settings := by
  simp only [writeItem]
  split
  · rfl
  split
  · rfl
  split
  · split
    · exact stopWriting_settings s k
    · rfl
  · rfl

theorem readBlocked_settings (s : Server) (k : PeerId) :
    (s.readBlocked k).server.settings = s.settings := by
  simp only [readBlocked]
  split
  · rfl
  split
  · rfl
  · split <;> rfl
  · split <;> rfl
  · split <;> rfl
  · rfl
  · rfl
  · rfl

theorem streamNext_settings (s : Server) (k : StreamId) :
    (s.streamNext k).server.settings = s.settings := by
  simp only [streamNext]
  split
  · rfl
  split
  · exact endStream_settings s k _
  split
  · rfl
  split
  · exact endStream_settings s k _
  split
  · exact endStream_settings s k _
  split
  · rfl
  · split
    · exact endStream_settings s k _
    · rfl

theorem answerStream_settings (s : Server) (k : StreamId) (call : CallId) :
    (s.answerStream k call).server.settings = s.settings := by
  simp only [answerStream]
  split
  · split <;> rfl
  · rfl

theorem perform_settings (s : Server) (a : Action) :
    (s.perform a).server.settings = s.settings := by
  cases a with
  | read k since before due? => exact readNext_settings s k since before
  | subscribed k id call =>
    simp only [perform]
    split <;> rw [readOn_server]
    rfl
  | unsubscribed k id =>
    simp only [perform]
    split
    · rw [readOn_server]
      rfl
    · rfl
  | endSocket k | endBlocked k => exact stopWriting_settings s k
  | pick k => exact pickNext_settings s k
  | write k i => exact writeItem_settings s k i
  | flush k isLast => exact flush_settings s k isLast
  | readBlocked k => exact readBlocked_settings s k
  | answerStream k call => exact answerStream_settings s k call
  | stream k => exact streamNext_settings s k
  | _ => rfl

theorem act_settings (s : Server) (i : Input) : (i.act ⟨s, []⟩).state.settings = s.settings := by
  cases i with
  | join header capacity stalled =>
    simp only [Input.act, World.openSocket]
    split <;> rfl
  | say k i =>
    simp only [Input.act, World.send]
    split <;> rfl
  | request accept body =>
    simp only [Input.act, World.requestStream]
    split
    · rfl
    split
    · rfl
    split <;> rfl
  | receive k =>
    simp only [Input.act, World.received]
    split <;> rfl
  | receiveChunks k =>
    simp only [Input.act, World.receivedChunks]
    split <;> rfl
  | _ => rfl

theorem reached_settings (reached : Reached (World.start first) s ts log) :
    s.settings = first.settings := by
  induction reached with
  | start => rfl
  | shuffle _ _ ih => exact ih
  | idle _ ih => exact ih
  | outside i _ ih => exact (act_settings _ i).trans ih
  | inside _ _ ih => exact (perform_settings _ _).trans ih

/-! ## Reading what a client subscribes to -/

theorem read_text {p : Peer} {since : Nat} {before : Bool} {due? : Option Nat} {t : String}
    (peer : s.peers[k]? = some p) (connection : p.connection? = some c)
    (message : s.look p since before = some (.item (.text t))) :
    s.perform (.read k since before due?) = (s.popped k).react k c
      (WebSocket.Session.onText p.protocol p.acknowledged (s.engine.owned c)
        s.settings.maxSubscriptions
        t) := by
  simp only [perform, readNext, peer, connection, message]
  rfl

theorem readOn_aims (s : Server) (k : PeerId) : aims e (s.readOn k).next = [] := by
  simp only [readOn]
  split <;> rfl

theorem hangUp_aims (s : Server) (k : PeerId) : aims e (s.hangUp k).next = [] := by
  simp only [hangUp]
  split
  · rfl
  split <;> rfl

theorem react_aims {r : WebSocket.Reaction} (asked : (c, id) ∈ aims e (s.react k c r).next) :
    ∃ q, r = .subscribe id q := by
  cases r with
  | reply ms => simp [react, readOn_aims] at asked
  | acknowledge ms => simp [react, readOn_aims] at asked
  | close code reason => simp [react, closeWith, hangUp_aims] at asked
  | leave => simp [react, hangUp_aims] at asked
  | subscribe id' q =>
    obtain rfl : id = id' := by
      simpa [react, ask, Engine.World.subscribe, aims, inner, Action.engine?, Engine.Action.aim?]
        using asked
    exact ⟨q, rfl⟩
  | unsubscribe id' sub =>
    simp [react, ask, Engine.World.unsubscribe, aims, inner, Action.engine?,
      Engine.Action.aim?] at asked

theorem session_room (session : a.engine? = none) (sits : s.Sits k c)
    (asked : (c, id) ∈ aims (s.perform a).server.engine (s.perform a).next)
    (whose : a.reads? = some k) :
    (s.engine.owned c).length < s.settings.maxSubscriptions ∧ id ≠ "" := by
  obtain ⟨k', whose', sits', asks, -⟩ :=
    session_aims (perform_conduct s a session) (List.mem_cons_self ..) asked
  obtain rfl : k' = k := by simpa [whose] using whose'.symm
  cases a with
  | read k'' since before due? =>
    obtain rfl : k'' = k' := by simpa [Action.reads?] using whose
    obtain ⟨p, peer, connection⟩ := sits
    simp only [asksFor?, ↓reduceIte, peer, connection] at asks
    split at asks
    · rename_i t _ message
      rw [read_text peer connection message] at asked
      obtain ⟨q, reaction⟩ := react_aims asked
      exact WebSocket.Session.onText_room reaction
    · simp at asks
  | _ => simp [asksFor?] at asks

/-! ## Places -/

/-- A connection owns as many subscriptions as it may at most, all under ids that are not empty, and
there is a place for what its reader asks for. -/
structure Room (most : Nat) (c : ConnectionId) (e : Engine) (us : List (List Action)) : Prop where
  few : (e.owned c).length ≤ most
  named : ∀ p ∈ e.owned c, p.2 ≠ ""
  place : ∀ id, (c, id) ∈ aims e us.flatten → (e.owned c).length < most ∧ id ≠ ""

theorem owned_fewer {pool pool' : List Engine.Action} (grounded : Grounded e pool)
    (grounded' : Grounded e' pool') (holds : ∀ id s, Holds e' c id s → Holds e c id s) :
    e'.owned c ⊆ e.owned c ∧ (e'.owned c).length ≤ (e.owned c).length := by
  have fewer : e'.owned c ⊆ e.owned c := by
    rintro ⟨s, id⟩ member
    have held := (Engine.owned_iff grounded'.sound grounded'.labelled).mp member
    exact (Engine.owned_iff grounded.sound grounded.labelled).mpr (holds id s held)
  have once : (e'.owned c).Nodup := List.Nodup.of_map _ (grounded'.sound.owned_nodup c)
  exact ⟨fewer, once.length_le_of_subset fewer⟩

theorem Room.less {pool pool' : List Engine.Action} {us' : List (List Action)}
    (room : Room most c e us)
    (grounded : Grounded e pool) (grounded' : Grounded e' pool')
    (holds : ∀ id s, Holds e' c id s → Holds e c id s)
    (asked : ∀ id, (c, id) ∈ aims e' us'.flatten → (c, id) ∈ aims e us.flatten) :
    Room most c e' us' := by
  obtain ⟨fewer, less⟩ := owned_fewer grounded grounded' holds
  refine ⟨Nat.le_trans less room.few, fun p member => room.named p (fewer member), fun id aim => ?_⟩
  obtain ⟨place, named⟩ := room.place id (asked id aim)
  exact ⟨Nat.lt_of_le_of_lt less place, named⟩

theorem mem_readers {p : ConnectionId × String} (asked : p ∈ aims e (readers k [task]).flatten) :
    p ∈ aims e task := by
  obtain ⟨u, member, aim⟩ := mem_aims_flatten.mp asked
  obtain rfl := List.mem_singleton.mp (List.mem_of_mem_filter member)
  exact aim

/-- Whoever asks for a subscription has a place for it, and takes this when it gets one. -/
theorem Room.asks {b : Engine.Action} {call : CallId} {pool : List Engine.Action}
    (room : Room most c e [[.engine b, .subscribed k id call]])
    (sound : e.books.Sound (Engine.duties (b :: pool))) (whose : b.ticket? = some call)
    (aim : b.aim? e = some (c, id)) :
    Room most c (e.perform b).engine
      (readers k [(e.perform b).next.map Action.engine ++ [.subscribed k id call]]) := by
  obtain ⟨place, named⟩ := room.place id (by simp [aims, inner, Action.engine?, aim])
  have calm {id' : String} {e' : Engine} : (c, id') ∉ aims e' [.subscribed k id call] := by
    simp [aims, inner, Action.engine?]
  cases Engine.asks_outcome sound whose aim with
  | onward b' next _ _ _ aim' same =>
    rw [next]
    refine ⟨same.owned c ▸ room.few, same.owned c ▸ room.named, fun id' asked => ?_⟩
    obtain rfl : id' = id := by
      simpa [aims, inner, Action.engine?, aim', eq_comm] using mem_readers asked
    exact ⟨same.owned c ▸ place, named⟩
  | refused fault next _ same =>
    rw [next]
    exact ⟨same.owned c ▸ room.few, same.owned c ▸ room.named, fun id' asked =>
      absurd (mem_readers asked) calm⟩
  | admitted sub next _ admits =>
    rw [next]
    refine ⟨?_, fun p member => ?_, fun id' asked => absurd (mem_readers asked) calm⟩
    · rw [admits.owned, List.length_append]
      exact place
    · rw [admits.owned] at member
      rcases List.mem_append.mp member with old | new
      · exact room.named p old
      · rw [List.mem_singleton.mp new]
        exact named

theorem Room.turn (room : Room first.settings.maxSubscriptions c s.engine [a :: todo])
    (begun : first.engine = Engine.start setup hub) (nobody : first.peers = [])
    (reached : Reached (World.start first) s ((a :: todo) :: others) log) (sits : s.Sits k c)
    (ready : s.ready a = true) (mine : readBy k (a :: todo) = true) :
    Room first.settings.maxSubscriptions c (s.perform a).server.engine
      (readers k [(s.perform a).next ++ todo]) := by
  have grounded := reached_grounded begun reached
  have after := reached_grounded begun (reached.inside ready)
  have stage := (((reached_seated begun nobody reached).reading k c sits).alone mine).2
  cases session : a.engine? with
  | none =>
    obtain ⟨whose, rfl⟩ := stage.session session
    have spared : Spared c [] s.engine (s.perform a).server.engine :=
      conduct_spared (perform_conduct s a session)
    obtain ⟨fewer, less⟩ := owned_fewer grounded after spared.holds
    refine ⟨Nat.le_trans less room.few, fun p member => room.named p (fewer member),
      fun id aim => ?_⟩
    have asked := mem_readers aim
    rw [List.append_nil] at asked
    obtain ⟨place, named⟩ := session_room session sits asked whose
    exact ⟨Nat.lt_of_le_of_lt less (reached_settings reached ▸ place), named⟩
  | some b =>
    obtain rfl := eq_engine session
    rw [inner_pending] at grounded
    by_cases asks : ∃ id, b.aim? s.engine = some (c, id)
    · obtain ⟨id, aim⟩ := asks
      generalize same : [Action.engine b :: todo] = us at stage room
      cases stage with
      | gone | waits | answered => simp at same
      | asks b' call id' whose aim' =>
        obtain ⟨rfl, rfl⟩ : b = b' ∧ todo = [.subscribed k id' call] := by simpa using same
        exact room.asks grounded.sound whose aim'
      | ends sub id' call =>
        obtain ⟨rfl, -⟩ : b = .unsubscribe sub ∧
          todo = [.engine (.answer call .done), .unsubscribed k id'] := by simpa using same
        simp [Engine.Action.aim?] at aim
      | ended es id' calm =>
        cases es with
        | nil => simp at same
        | cons b' es =>
          obtain ⟨rfl, -⟩ : b = b' ∧ todo = es.map Action.engine ++ [.unsubscribed k id'] := by
            simpa using same
          exact absurd (Engine.aim_asks aim) (by simp [calm b (List.mem_cons_self ..)])
    · have elsewhere (id : String) : b.aim? s.engine ≠ some (c, id) := fun aim => asks ⟨id, aim⟩
      have spared := Engine.perform_spared grounded elsewhere
      refine room.less grounded after spared.holds fun id aim => ?_
      have asked : (c, id) ∈ aims (s.engine.perform b).engine
        ((s.engine.perform b).next.map Action.engine ++ todo) := mem_readers aim
      rw [aims_append] at asked
      rcases List.mem_append.mp asked with new | old
      · exact absurd (brought_aims grounded mem_next new) (elsewhere id)
      · rw [aims_same fun b' member => spared.aims b' (List.mem_append_left _ member)] at old
        simp only [List.flatten_cons, List.flatten_nil, List.append_nil]
        rw [← List.singleton_append, aims_append]
        exact List.mem_append_right _ old

theorem fresh_room {w : World} {v : Move} (begun : first.engine = Engine.start setup hub)
    (nobody : first.peers = []) (reached : Reached (World.start first) w.state w.tasks log)
    (absent : ¬ w.state.Sits k c) (sits : (w.move v).state.Sits k c) :
    Room most c (w.move v).state.engine (readers k (w.move v).tasks) := by
  cases v with
  | step place =>
    refine absurd ?_ absent
    cases goes : w.actionAt machine place with
    | none => rwa [World.move, Running.move, (Running.step_eq_none_iff w place).mpr goes,
        Option.getD_none] at sits
    | some a =>
      obtain ⟨todo, others, turn⟩ := World.step_turn goes
      rw [turn.state] at sits
      exact (perform_sits w.state a).mp sits
  | input i =>
    obtain ⟨state, tasks⟩ := act_fresh w i
    have grounded := reached_grounded begun reached
    have seated := reached_seated begun nobody reached
    rw [World.move, Running.move, state] at sits
    rw [World.move, Running.move, state, tasks]
    rcases company_sits (input_company w.state i) sits with old | ⟨rfl, rfl, -, since,
      before, due?, new⟩
    · exact absurd old absent
    have spared : Spared w.state.engine.connections.length (inner w.tasks.flatten) w.state.engine
        (i.act ⟨w.state, []⟩).state.engine := arrival_spared (input_arrival w.state i)
    have unheld (id : String) (sub : SubscriptionId) :
        ¬ Holds (i.act ⟨w.state, []⟩).state.engine w.state.engine.connections.length id sub :=
      fun holds => Engine.fresh_unheld grounded (Nat.le_refl _) sub (spared.holds id sub holds)
    have after : Grounded (i.act ⟨w.state, []⟩).state.engine
        (inner ((i.act ⟨w.state, []⟩).tasks ++ w.tasks).flatten) :=
      reached_grounded begun (reached.outside i)
    have empty : (i.act ⟨w.state, []⟩).state.engine.owned w.state.engine.connections.length = [] :=
      List.eq_nil_iff_forall_not_mem.mpr fun p member =>
        unheld p.2 p.1 ((Engine.owned_iff after.sound after.labelled).mp member)
    refine ⟨by simp [empty], by simp [empty], fun id aim => ?_⟩
    obtain ⟨task, member, asked⟩ := mem_aims_flatten.mp aim
    obtain ⟨among, reads⟩ := List.mem_filter.mp member
    rcases List.mem_append.mp among with older | newer
    · exact absurd (seated.present task older _ reads) (Nat.lt_irrefl _)
    · have either : task = [.pick w.state.peers.length] ∨
          task = [.read w.state.peers.length since before due?] := by simpa [new] using newer
      rcases either with rfl | rfl <;> exact absurd asked List.not_mem_nil

theorem play_room (begun : first.engine = Engine.start setup hub) (nobody : first.peers = [])
    (moves : List Move) (sits : ((World.start first).play moves).state.Sits k c) :
    Room first.settings.maxSubscriptions c ((World.start first).play moves).state.engine
      (readers k ((World.start first).play moves).tasks) := by
  induction moves using List.reverseRecOn with
  | nil =>
    obtain ⟨p, here, -⟩ := sits
    simp [World.play, Running.play, World.start, nobody] at here
  | append_singleton moves v ih =>
    have reached := play_reached (World.start first) moves
    rw [World.play_append] at sits ⊢
    by_cases before : ((World.start first).play moves).state.Sits k c
    · have room := ih before
      have onward := reached_grounded begun (reached_move reached v)
      have grounded := reached_grounded begun reached
      change Room _ c (World.move _ v).state.engine (readers k (World.move _ v).tasks)
      cases move_goes begun nobody reached before v with
      | others _ same spared =>
        rw [same]
        refine room.less grounded onward spared.holds fun id aim => ?_
        rwa [aims_same spared.aims] at aim
      | own a todo others mine ready _ shuffled state same =>
        rw [same, state]
        rw [mine] at room
        have reads : readBy k (a :: todo) = true :=
          (List.mem_filter.mp (mine ▸ List.mem_cons_self .. : a :: todo ∈ readers k _)).2
        exact room.turn begun nobody (reached.shuffle shuffled) before ready reads
    · exact fresh_room begun nobody reached before sits

/-! ## Ending a subscription -/

theorem readOn_reads {p : Peer} (here : s.peers[k]? = some p) :
    ∃ since before due?, (s.readOn k).next = [.read k since before due?] := by
  simp only [readOn, here]
  exact ⟨_, _, _, rfl⟩

theorem readers_read (since : Nat) (before : Bool) (due? : Option Nat) :
    readers k [[.read k since before due?]] = [[.read k since before due?]] := by
  simp [readers, readBy, Action.reads?]

theorem tell_here {p : Peer} (here : s.peers[k]? = some p) (ms : List WebSocket.ServerMessage) :
    (s.tell k ms).peers[k]? = some { p with control := p.control ++ ms } := by
  simp [tell, updatePeer, here]

/-- How far the reader of a client is with ending one of its subscriptions: what it has still to do,
and what it has done since it has read that. -/
inductive Leaving (k : PeerId) (c : ConnectionId) (id : String) (sub : SubscriptionId)
    (asked : Server × Action) (e : Engine) : List (List Action) → Steps → Prop where
  | begins (call : CallId) (sole : ∀ s, Holds e c id s → s = sub) :
    Leaving k c id sub asked e
      [[.engine (.unsubscribe sub), .engine (.answer call .done), .unsubscribed k id]] [asked]
  | struck (s : Server) (es : List Engine.Action) (rest : Steps)
      (forms : ∀ b ∈ es, (∃ d, b = .leave d sub) ∨ ∃ call, b = .answer call .done)
      (strikes : Strikes sub s.engine (s.engine.perform (.unsubscribe sub)).engine)
      (neutral : ∀ q ∈ rest, Neutral q) (unheld : Unheld e c id) :
    Leaving k c id sub asked e [es.map .engine ++ [.unsubscribed k id]]
      (asked :: (s, .engine (.unsubscribe sub)) :: rest)
  | settled (s : Server) (rest : Steps) (since : Nat) (before : Bool) (due? : Option Nat)
      (strikes : Strikes sub s.engine (s.engine.perform (.unsubscribe sub)).engine)
      (neutral : ∀ q ∈ rest, Neutral q) (unheld : Unheld e c id) :
    Leaving k c id sub asked e [[.read k since before due?]]
      (asked :: (s, .engine (.unsubscribe sub)) :: rest)

theorem Leaving.spared {sub : SubscriptionId} {asked : Server × Action}
    (leaving : Leaving k c id sub asked e us own) {pool : List Engine.Action}
    (spared : Spared c pool e e') : Leaving k c id sub asked e' us own := by
  cases leaving with
  | begins call sole => exact .begins call fun s holds => sole s (spared.holds id s holds)
  | struck s es rest forms strikes neutral unheld =>
    exact .struck s es rest forms strikes neutral (spared.unheld unheld)
  | settled s rest since before due? strikes neutral unheld =>
    exact .settled s rest since before due? strikes neutral (spared.unheld unheld)

/-- After the end of its binding's member nothing that the reader does changes the rolls. -/
theorem leaves_neutral {b : Engine.Action} {sub : SubscriptionId} {pool : List Engine.Action}
    (grounded : Grounded s.engine (b :: pool))
    (form : (∃ d, b = .leave d sub) ∨ ∃ call, b = .answer call .done) :
    Neutral (s, .engine b) ∧ (s.engine.perform b).next = [] ∧ b.asks = false := by
  rcases form with ⟨d, rfl⟩ | ⟨call, rfl⟩
  · have cancelled : s.engine.books.phase sub = some .cancelled :=
      grounded.sound.leaving d sub (by simp [Engine.duties, Engine.Action.leaves?])
    have outsider : sub ∉ s.engine.registered := fun member => by
      simpa [cancelled] using (grounded.sound.active_iff sub).mp member
    exact ⟨Engine.leave_sameRolls d outsider, rfl, rfl⟩
  · exact ⟨Engine.answer_sameRolls s.engine call .done, rfl, rfl⟩

theorem Leaving.turn {sub : SubscriptionId} {asked : Server × Action}
    (leaving : Leaving k c id sub asked s.engine [a :: todo] own)
    (begun : first.engine = Engine.start setup hub)
    (reached : Reached (World.start first) s ((a :: todo) :: others) log) (sits : s.Sits k c)
    (silent : ∀ since before due?, a ≠ .read k since before due?) :
    Leaving k c id sub asked (s.perform a).server.engine (readers k [(s.perform a).next ++ todo])
      (own ++ [(s, a)]) := by
  have grounded := reached_grounded begun reached
  have reads (es : List Engine.Action) : readers k [es.map Action.engine ++ [.unsubscribed k id]] =
      [es.map Action.engine ++ [.unsubscribed k id]] := by simp [readers, readBy, Action.reads?]
  generalize same : [a :: todo] = us at leaving
  cases leaving with
  | begins call sole =>
    obtain ⟨rfl, rfl⟩ : a = .engine (.unsubscribe sub) ∧
      todo = [.engine (.answer call .done), .unsubscribed k id] := by simpa using same
    rw [inner_pending] at grounded
    have shape : (s.perform (.engine (.unsubscribe sub))).next ++
        [.engine (.answer call .done), .unsubscribed k id] =
          ((s.engine.perform (.unsubscribe sub)).next ++ [Engine.Action.answer call .done]).map
            .engine ++
            [.unsubscribed k id] := by simp [perform, ofEngine]
    rw [shape, reads]
    refine .struck s _ [] (fun b member => ?_) (Engine.unsubscribe_strikes grounded.sound) (by simp)
      (Engine.unsubscribe_unheld grounded.sound sole)
    rcases List.mem_append.mp member with new | last
    · left
      obtain ⟨d, left⟩ := Engine.perform_brings s.engine (.unsubscribe sub) b (mem_next b new)
      exact ⟨d, left⟩
    · exact .inr ⟨call, List.mem_singleton.mp last⟩
  | struck s' es rest forms strikes neutral unheld =>
    cases es with
    | nil =>
      obtain ⟨rfl, rfl⟩ : a = .unsubscribed k id ∧ todo = [] := by simpa using same
      obtain ⟨p, here, -⟩ := sits
      obtain ⟨since, before, due?, next⟩ :=
        readOn_reads (tell_here here (WebSocket.Session.unsubscribed p.protocol id))
      have spared : Spared c [] s.engine (s.perform (.unsubscribed k id)).server.engine :=
        conduct_spared (perform_conduct s (.unsubscribed k id) rfl)
      have onward : (s.perform (.unsubscribed k id)).next = [.read k since before due?] := by
        simp only [perform, here, next]
      rw [List.append_nil, onward, readers_read, List.cons_append, List.cons_append]
      refine .settled s' _ since before due? strikes (fun q member => ?_) (spared.unheld unheld)
      rcases List.mem_append.mp member with old | new
      · exact neutral q old
      · rw [List.mem_singleton.mp new]
        exact session_neutral s rfl
    | cons b es =>
      obtain ⟨rfl, rfl⟩ : a = .engine b ∧ todo = es.map Action.engine ++ [.unsubscribed k id] := by
        simpa using same
      rw [inner_pending] at grounded
      obtain ⟨calm, next, plain⟩ := leaves_neutral grounded (forms b (List.mem_cons_self ..))
      have elsewhere (id' : String) : b.aim? s.engine ≠ some (c, id') := fun aim => by
        simp [Engine.aim_asks aim] at plain
      have spared := Engine.perform_spared grounded elsewhere
      have onward : (s.perform (.engine b)).next = [] := by simp [perform, ofEngine, next]
      rw [onward, List.nil_append, reads, List.cons_append, List.cons_append]
      refine .struck s' es _ (fun b member => forms b (List.mem_cons_of_mem _ member)) strikes
        (fun q member => ?_) (spared.unheld unheld)
      rcases List.mem_append.mp member with old | new
      · exact neutral q old
      · rw [List.mem_singleton.mp new]
        exact calm
  | settled s' rest since before due? =>
    obtain ⟨rfl, -⟩ : a = .read k since before due? ∧ todo = [] := by simpa using same
    exact absurd rfl (silent since before due?)

theorem subscriptionFor_iff (once : ∀ p ∈ e.owned c, ∀ q ∈ e.owned c, p.2 = q.2 → p = q)
    (id : String) (sub : SubscriptionId) :
    e.subscriptionFor? c id = some sub ↔ (sub, id) ∈ e.owned c := by
  simp only [Engine.subscriptionFor?, Option.map_eq_some_iff]
  constructor
  · rintro ⟨⟨sub', id'⟩, found, rfl⟩
    obtain rfl : id' = id := by simpa using List.find?_some found
    exact List.mem_of_find?_eq_some found
  · intro member
    cases found : (e.owned c).find? (·.2 == id) with
    | none => exact absurd (List.find?_eq_none.mp found _ member) (by simp)
    | some p =>
      have label : p.2 = id := by simpa using List.find?_some found
      exact ⟨p, rfl, by rw [once p (List.mem_of_find?_eq_some found) _ member label]⟩

theorem owned_once (begun : first.engine = Engine.start setup hub) (nobody : first.peers = [])
    (reached : Reached (World.start first) s ts log) (sits : s.Sits k c) :
    ∀ p ∈ s.engine.owned c, ∀ q ∈ s.engine.owned c, p.2 = q.2 → p = q := by
  have grounded := reached_grounded begun reached
  have held {p : SubscriptionId × String} (member : p ∈ s.engine.owned c) :
    Holds s.engine c p.2 p.1 :=
    (Engine.owned_iff grounded.sound grounded.labelled).mp member
  intro p member q member' same
  have single := ((reached_seated begun nobody reached).reading k c sits).single p.2 p.1 q.1
  exact Prod.ext (single (held member) (same ▸ held member')) same

theorem read_complete {p : Peer} {since : Nat} {before : Bool} {due? : Option Nat} {t : String}
    (peer : s.peers[k]? = some p) (connection : p.connection? = some c)
    (message : s.look p since before = some (.item (.text t)))
    (decoded : p.protocol.decode t = .ok (.complete id)) :
    s.perform (.read k since before due?) = match s.engine.subscriptionFor? c id with
      | some sub => (s.popped k).react k c (.unsubscribe id sub)
      | none => (s.popped k).react k c (.reply []) := by
  rw [read_text peer connection message]
  simp only [WebSocket.Session.onText, decoded, WebSocket.Session.onMessage,
    Engine.subscriptionFor?]
  cases (s.engine.owned c).find? (·.2 == id) <;> rfl

/-- A connection owns as many subscriptions as settings allow at most, whatever the client says, the
brokers bring and the engine does, and no two of them under one id, and none without an id. So an id
means one subscription at most. When the client ends an id that means nothing, its session changes
no rolls. When the id means a subscription, the session strikes this one out as soon as its reader
goes on, and changes nothing else until it has read the next message; then the id means nothing. -/
theorem places_kept (setup : Setup) (hub : Hub) (first : Server)
    (begun : first.engine = Engine.start setup hub) (nobody : first.peers = []) (k : PeerId)
    (c : ConnectionId) (moves : List Move) :
    let w := (World.start first).play moves
    let e := w.state.engine
    w.state.Sits k c →
      (e.owned c).length ≤ first.settings.maxSubscriptions ∧ ((e.owned c).map (·.2)).Nodup ∧
      (∀ p ∈ e.owned c, p.2 ≠ "") ∧
      (∀ id sub, e.subscriptionFor? c id = some sub ↔ (sub, id) ∈ e.owned c) ∧
      ∀ place since before due? p t id,
        w.actionAt machine place = some (.read k since before due?) → w.state.peers[k]? = some p →
        w.state.look p since before = some (.item (.text t)) →
        p.protocol.decode t = .ok (.complete id) →
        ∀ later, Unheard k ((w.move (.step place)).turns k later) →
          let asked := (w.state, Action.read k since before due?)
          let u := (w.move (.step place)).play later
          let own := w.turns k (.step place :: later)
          Neutral asked ∧
          match e.subscriptionFor? c id with
          | none => own = [asked]
          | some sub =>
            (own = [asked] ∧ ∃ place',
              u.actionAt machine place' = some (.engine (.unsubscribe sub)) ∧
              Strikes sub u.state.engine (u.state.engine.perform (.unsubscribe sub)).engine) ∨
            ∃ s rest, own = asked :: (s, .engine (.unsubscribe sub)) :: rest ∧
              Strikes sub s.engine (s.engine.perform (.unsubscribe sub)).engine ∧
              (∀ q ∈ rest, Neutral q) ∧ u.state.engine.subscriptionFor? c id = none := by
  intro w e sits
  have reached := play_reached (World.start first) moves
  have room := play_room begun nobody moves sits
  have grounded := reached_grounded begun reached
  have once := owned_once begun nobody reached sits
  refine ⟨room.few, ?_, room.named, subscriptionFor_iff once, ?_⟩
  · have distinct : (e.owned c).Nodup := List.Nodup.of_map _ (grounded.sound.owned_nodup c)
    exact distinct.map_on once
  intro place since before due? p t id goes peer message decoded later unheard asked u own
  have seat := sits
  obtain ⟨p', here, connection⟩ := seat
  obtain rfl : p' = p := Option.some.inj (here.symm.trans peer)
  obtain ⟨taken, state, mine⟩ := read_turn begun nobody reached sits goes
  have apart : own = [asked] ++ (w.move (.step place)).turns k later :=
    (World.turns_append k w [.step place] later).trans (congrArg (· ++ _) taken)
  have onward := reached_move reached (.step place)
  have sits' : (w.move (.step place)).state.Sits k c := reached_sits sits (reached_move .start _)
  have read : w.state.perform (.read k since before due?) = _ :=
    read_complete peer connection message decoded
  refine ⟨session_neutral w.state rfl, ?_⟩
  rw [apart]
  cases found : e.subscriptionFor? c id with
  | none =>
    obtain ⟨since', before', due', next⟩ := readOn_reads (tell_here (popped_here peer) [])
    have waits : readers k (w.move (.step place)).tasks = [[.read k since' before' due']] := by
      rw [mine, read, show w.state.engine.subscriptionFor? c id = none from found]
      exact congrArg (readers k [·]) next |>.trans (readers_read ..)
    obtain ⟨-, nothing, -⟩ := idle_stays begun nobody onward sits'
      (.inr ⟨since', before', due', waits⟩) later unheard
    rw [nothing, List.append_nil]
  | some sub =>
    have owns : (sub, id) ∈ e.owned c := (subscriptionFor_iff once id sub).mp found
    have sole (s : SubscriptionId) (holds : Holds (w.move (.step place)).state.engine c id s) :
        s = sub := by
      have spared : Spared c [] e (w.move (.step place)).state.engine := by
        rw [state]
        exact conduct_spared (perform_conduct w.state (.read k since before due?) rfl)
      have owns' :=
        (Engine.owned_iff grounded.sound grounded.labelled).mpr (spared.holds id s holds)
      exact congrArg Prod.fst (once _ owns' _ owns rfl)
    have begins : Leaving k c id sub asked (w.move (.step place)).state.engine
        (readers k (w.move (.step place)).tasks) [asked] := by
      rw [mine, read, show w.state.engine.subscriptionFor? c id = some sub from found]
      have reads : readers k [((w.state.popped k).react k c (.unsubscribe id sub)).next] =
          [[.engine (.unsubscribe sub), .engine (.answer (w.state.popped k).engine.calls .done),
            .unsubscribed k id]] := by
        simp [react, ask, Engine.World.unsubscribe, Engine.newCall, readers, readBy, Action.reads?]
      rw [reads]
      exact .begins _ sole
    have leaving := turns_keep (P := Leaving k c id sub asked) begun nobody
      (fun leaving spared => leaving.spared spared)
      (fun reached sits _ silent leaving => leaving.turn begun reached sits silent)
      onward sits' begins later unheard
    have there := reached_play onward later
    have means := subscriptionFor_iff (owned_once begun nobody there
      (reached_sits sits' (play_reached _ later))) id
    have grounded' := reached_grounded begun there
    have forgotten (unheld : Unheld u.state.engine c id) :
        u.state.engine.subscriptionFor? c id = none := by
      refine Option.eq_none_iff_forall_ne_some.mpr fun s found => unheld s ?_
      exact (Engine.owned_iff grounded'.sound grounded'.labelled).mp ((means s).mp found)
    generalize still : readers k u.tasks = us at leaving
    generalize (w.move (.step place)).turns k later = more at leaving ⊢
    generalize same : [asked] ++ more = own at leaving ⊢
    cases leaving with
    | begins call sole =>
      obtain ⟨place', found'⟩ := reader_place still
      refine .inl ⟨rfl, place', by simp [Running.actionAt, found']; rfl, ?_⟩
      have whole := there.shuffle (World.task_turn found' rfl).2.before
      have pooled := reached_grounded begun whole
      rw [inner_pending] at pooled
      exact Engine.unsubscribe_strikes pooled.sound
    | struck s es rest forms strikes neutral unheld =>
      exact .inr ⟨s, rest, rfl, strikes, neutral, forgotten unheld⟩
    | settled s rest since before due? strikes neutral unheld =>
      exact .inr ⟨s, rest, rfl, strikes, neutral, forgotten unheld⟩

def staffStopping : List Move :=
  staffStart ++ [.input (.say 0 (.text "\x7b\"id\":\"1\",\"type\":\"stop\"\x7d"))]

def staffStopped : List Move := List.replicate 4 (.step 0)

theorem staff_places_kept :
    ((World.start staffServer).play staffStopping).state.engine.owned 0 = [(0, "1")] ∧
    ((((World.start staffServer).play staffStopping).state.engine.owned 0).map (·.2)).Nodup ∧
    ∃ asked s rest, ((World.start staffServer).play staffStopping).turns 0
      (.step 3 :: staffStopped) =
        asked :: (s, .engine (.unsubscribe 0)) :: rest ∧
      Strikes 0 s.engine (s.engine.perform (.unsubscribe 0)).engine := by
  have sat : (((World.start staffServer).play staffStopping).state.peers[0]?.map
      (·.connection?)) = some (some 0) := by decide +kernel
  have sits : ((World.start staffServer).play staffStopping).state.Sits 0 0 :=
    Option.map_eq_some_iff.mp sat
  obtain ⟨-, distinct, -, -, ends⟩ :=
    places_kept Engine.staffSetup Engine.staffHub staffServer rfl rfl
    0 0 staffStopping sits
  have stops : (((World.start staffServer).play staffStopping).heard? 0 3).map
      (fun x => x.1.protocol.completes? x.2) = some (some "1") := by decide +kernel
  have unheard : Unheard 0 ((((World.start staffServer).play staffStopping).move (.step 3)).turns 0
      staffStopped) := by decide +kernel
  have done : (((World.start staffServer).play staffStopping).turns 0
      (.step 3 :: staffStopped)).length = 5 := by decide +kernel
  have owns : ((World.start staffServer).play staffStopping).state.engine.owned 0 = [(0, "1")] := by
    decide +kernel
  have named : ((World.start staffServer).play staffStopping).state.engine.subscriptionFor? 0 "1" =
      some 0 := by decide +kernel
  generalize (World.start staffServer).play staffStopping = w at *
  obtain ⟨⟨p, t⟩, heard, completes⟩ := Option.map_eq_some_iff.mp stops
  obtain ⟨here, since, before, due?, goes, message⟩ := World.of_heard heard
  have ended := (ends 3 since before due? p t "1" goes here message
    (WebSocket.Protocol.completes_iff.mp completes) staffStopped unheard).2
  simp only [named] at ended
  rcases ended with ⟨pending, -⟩ | ⟨s, rest, own, strikes, -⟩
  · simp [pending] at done
  · exact ⟨owns, distinct, _, s, rest, own, strikes⟩

end Server

end SubscriptionGateway
