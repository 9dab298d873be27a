import SubscriptionGateway.Proofs.Server.Output
import SubscriptionGateway.Proofs.Server.Closing

/-!
The grammar of what goes out on a WebSocket. It comes from a session, whose messages go first, and
from the engine, whose frames wait in a queue of their own. Still there is one acknowledgement, what
is about subscriptions comes after it, and a close is the last.
-/
namespace SubscriptionGateway

open Broker

namespace Server

open WebSocket

variable {s : Server} {k : PeerId} {c : ConnectionId} {a : Action} {p : Peer}
  {ts : List (List Action)} {log : Steps} {setup : Setup} {hub : Hub} {first : Server}

theorem reached_heard (begun : first.engine = Engine.start setup hub) (nobody : first.peers = [])
    (reached : Reached (World.start first) s ts log) :
    tellings k log = sendings k log ++ s.unsent k := by
  induction reached with
  | start => simp [tellings, sendings, unsent, World.start, nobody]
  | shuffle _ _ ih => exact ih
  | idle _ ih => exact ih
  | outside i _ ih => rwa [(input_company _ i).unsent]
  | @inside s a todo others log ready before ih =>
    cases here : s.peers[k]? with
    | some p =>
      obtain ⟨p', there, -, -, control⟩ := (perform_attends s k a).peer p here
      have waits : s.unsent k ++ s.tells k a = s.sends k a ++ (s.perform a).server.unsent k := by
        simpa [unsent, here, there] using control
      rw [tellings_more, sendings_more, ih, List.append_assoc, waits, List.append_assoc]
    | none =>
      have absent : (s.perform a).server.peers[k]? = none := by
        rw [List.getElem?_eq_none_iff] at here ⊢
        rwa [(perform_attends s k a).count]
      have silent : s.sends k a = [] := by cases a <;> simp [sends, here]
      have untold := reached_untold begun nobody before here
      rw [reached_untold begun nobody (before.inside ready) absent, sendings_more, silent]
      simp only [unsent, here, absent, untold, List.append_nil] at ih ⊢
      exact ih

theorem frame_greeted {f : Frame} (begun : first.engine = Engine.start setup hub)
    (nobody : first.peers = []) (reached : Reached (World.start first) s ts log)
    (here : s.peers[k]? = some p) (connection : p.connection? = some c)
    (waits : f ∈ s.engine.queueOf c) : .ack ∈ tellings k log := by
  obtain ⟨r, queued⟩ := Engine.mem_entered.mp ((reached_queued begun reached c).subset waits)
  obtain ⟨x, whose⟩ := reached_spoken reached queued
  have said := Engine.mem_spoken queued whose
  obtain ⟨_, -, attended, parting⟩ :=
    reached_always begun (Engine.start_parting setup hub x) reached
  have civil := reached_civil begun nobody reached p here connection
  cases found : s.engine.subscribers[x]? with
  | none => simp [(parting.absent found).2.1.spoken] at said
  | some y =>
    obtain ⟨whom, -⟩ := Engine.spoken_addressed attended parting found _ said
    refine civil.greeted.mp (Bool.not_eq_false _ |>.mp fun new => ?_)
    exact (civil.strange new).nobody x y found whom.symm

/-! ## What a writer takes -/

/-- A writer takes a message of the session, or a frame when the session has nothing to say. -/
inductive Takes (s : Server) (k : PeerId) (p : Peer) (sent taken : List ServerMessage) : Prop where
  | nothing (sends : sent = []) (takes : taken = [])
  | session (m : ServerMessage) (rest : List ServerMessage) (waits : p.control = m :: rest)
      (sends : sent = [m]) (takes : taken = [m])
  | frame (f : Frame) (c : ConnectionId) (silent : p.control = []) (sends : sent = [])
      (takes : taken = [.ofFrame f]) (connection : p.connection? = some c)
      (waits : f ∈ s.engine.queueOf c)

theorem picks_takes (here : s.peers[k]? = some p) (a : Action) :
    Takes s k p (s.sends k a) (s.picks k a) := by
  cases a with
  | pick k' =>
    by_cases same : k' = k
    · subst same
      simp only [picks, sends, passes, here, ↓reduceIte]
      split
      · exact .nothing rfl rfl
      cases control : p.control with
      | cons m rest => exact .session m rest control rfl rfl
      | nil =>
        cases connection : p.connection? with
        | none => exact .nothing rfl rfl
        | some c =>
          simp only [Engine.takeFrames]
          cases found : s.engine.connections[c]? with
          | none => exact .nothing rfl rfl
          | some x =>
            cases queue : x.queue with
            | nil => exact .nothing rfl (by simp [queue])
            | cons f rest =>
              exact .frame f c control rfl (by simp [queue]) connection
                (by simp [Engine.queueOf, found, queue])
    · exact .nothing (by simp [sends, same]) (by simp [picks, sends, passes, same])
  | _ => exact .nothing rfl rfl

/-- What a writer has taken, besides what the session has said, comes after the greeting. -/
structure Heard (q : Protocol) (sent taken : List ServerMessage) : Prop where
  mannerly : Mannerly taken
  has : ∀ m ∈ taken, q.has m = true
  all : ∀ m ∈ sent, m ∈ taken
  known : ∀ m ∈ taken, m ∈ sent ∨ .ack ∈ sent

variable {q : Protocol} {sent taken : List ServerMessage}

theorem Heard.session {m : ServerMessage} (heard : Heard q sent taken)
    (mannerly : Mannerly (sent ++ [m])) (has : q.has m = true) :
    Heard q (sent ++ [m]) (taken ++ [m]) where
  mannerly := by
    refine heard.mannerly.snoc (fun ack taken => ?_) fun about =>
      heard.all _ (mannerly.first sent m [] rfl about)
    exact mannerly.once sent [] (by rw [ack]) ((heard.known _ taken).elim id id)
  has m' member := (List.mem_append.mp member).elim (heard.has m') fun new =>
    List.mem_singleton.mp new ▸ has
  all m' member := (List.mem_append.mp member).elim
    (fun old => List.mem_append_left _ (heard.all m' old)) (List.mem_append_right _)
  known m' member := by
    rcases List.mem_append.mp member with old | new
    · exact (heard.known m' old).imp (List.mem_append_left _) (List.mem_append_left _)
    · exact .inl (List.mem_append_right _ new)

theorem Heard.frame (heard : Heard q sent taken) (f : Frame) (greeted : .ack ∈ sent) :
    Heard q sent (taken ++ [.ofFrame f]) where
  mannerly := by
    refine heard.mannerly.snoc (fun ack => ?_) fun _ => heard.all _ greeted
    cases body : f.body <;> simp [ServerMessage.ofFrame, body] at ack
  has m member := by
    rcases List.mem_append.mp member with old | new
    · exact heard.has m old
    · obtain rfl := List.mem_singleton.mp new
      cases body : f.body <;> cases q <;> simp [ServerMessage.ofFrame, body, Protocol.has]
  all m member := List.mem_append_left _ (heard.all m member)
  known m member := by
    rcases List.mem_append.mp member with old | new
    · exact heard.known m old
    · exact .inr greeted

theorem reached_picked (begun : first.engine = Engine.start setup hub) (nobody : first.peers = [])
    (reached : Reached (World.start first) s ts log) :
    ∀ p, s.peers[k]? = some p → p.connection? = some c →
      Heard p.protocol (sendings k log) (picked k log) := by
  induction reached with
  | start => simp [World.start, nobody]
  | shuffle _ _ ih => exact ih
  | idle _ ih => exact ih
  | @outside s ts log i before ih =>
    intro p' there connection
    cases here : s.peers[k]? with
    | some p =>
      have touched := (input_alters s i).touched here there
      rw [touched.protocol]
      exact ih p here (touched.connection.symm.trans connection)
    | none =>
      have untold := reached_untold begun nobody before here
      rw [reached_heard begun nobody before, List.append_eq_nil_iff] at untold
      rw [untold.1, (reached_unwritten before here).1]
      exact ⟨mannerly_nil, by simp, by simp, by simp⟩
  | @inside s a todo others log _ before ih =>
    intro p' there connection
    obtain ⟨p, here, touched⟩ := perform_came there
    have sat := touched.connection.symm.trans connection
    have heard := ih p here sat
    have civil := reached_civil begun nobody before p here sat
    have told := reached_heard (k := k) begun nobody before
    have unsent : s.unsent k = p.control := by simp [unsent, here]
    rw [touched.protocol, sendings_more, picked_more]
    cases picks_takes here a with
    | nothing sends takes =>
      rw [sends, takes, List.append_nil, List.append_nil]
      exact heard
    | session m rest waits sends takes =>
      rw [sends, takes]
      rw [unsent, waits] at told
      refine heard.session (civil.mannerly.of_prefix ⟨rest, by simp [told]⟩) (civil.has m ?_)
      simp [told]
    | frame f c' silent sends takes same waits =>
      rw [sends, takes, List.append_nil]
      rw [unsent, silent, List.append_nil] at told
      exact heard.frame f (told ▸ frame_greeted begun nobody before here same waits)

/-! ## What is written -/

/-- What may stand on the socket of a client. -/
structure Grammatical (q : Protocol) (laid : List Item) : Prop where
  once : ∀ before i after, laid = before ++ i :: after → itemOf? q .ack = some i → i ∉ before
  /-- It comes before whatever is about a subscription. -/
  first : ∀ before i after m, laid = before ++ i :: after → itemOf? q m = some i →
    m.id?.isSome = true → ∃ j ∈ before, itemOf? q .ack = some j
  last : ∀ before i after, laid = before ++ i :: after → i.isClose = true → after = []
  /-- Every text is a message of the protocol. -/
  kinds : ∀ text, .text text ∈ laid → ∃ m e, q.envelope? m = some e ∧ text = e.json.text ∧
    e.kind ∈ q.kinds

variable {laid before after : List Item} {i : Item} {m m' : ServerMessage} {ms : List ServerMessage}

theorem itemOf_about (one : itemOf? q m = some i) (other : itemOf? q m' = some i) :
    m.id?.isSome = m'.id?.isSome := by
  rcases itemOf_form one with ⟨text, encoded, rfl⟩ | ⟨code, reason, rfl, rfl⟩
  · rcases itemOf_form other with ⟨text', encoded', same⟩ | ⟨_, _, -, same⟩
    · obtain rfl : text = text' := by simpa using same
      exact Protocol.encode_about encoded encoded'
    · simp at same
  · rcases itemOf_form other with ⟨_, -, same⟩ | ⟨_, _, rfl, -⟩
    · simp at same
    · rfl

theorem itemOf_ack (one : itemOf? q m = some i) (ack : itemOf? q .ack = some i) : m = .ack := by
  rcases itemOf_form ack with ⟨text, encoded, rfl⟩ | ⟨_, _, close, -⟩
  · rcases itemOf_form one with ⟨text', encoded', same⟩ | ⟨_, _, -, same⟩
    · obtain rfl : text = text' := by simpa using same
      exact Protocol.encode_ack (encoded'.trans encoded.symm)
    · simp at same
  · simp at close

/-- Where a message has been written it has been taken, after the same as has been written. -/
theorem written_place (forms : laid.filter (·.isWorded) = ms.filterMap (itemOf? q))
    (place : laid = before ++ i :: after) (item : itemOf? q m = some i) :
    ∃ early m' late, ms = early ++ m' :: late ∧ itemOf? q m' = some i ∧
      before.filter (·.isWorded) = early.filterMap (itemOf? q) := by
  rw [place, List.filter_append, List.filter_cons_of_pos (itemOf_worded item)] at forms
  obtain ⟨one, other, rfl, early, rest⟩ := List.filterMap_eq_append_iff.mp forms.symm
  obtain ⟨none, m', late, rfl, nothing, item', -⟩ := List.filterMap_eq_cons_iff.mp rest
  refine ⟨one ++ none, m', late, by simp, item', ?_⟩
  rw [List.filterMap_append, early, List.filterMap_eq_nil_iff.mpr nothing, List.append_nil]

theorem mannerly_grammatical (forms : laid.filter (·.isWorded) = ms.filterMap (itemOf? q))
    (mannerly : Mannerly ms) (has : ∀ m ∈ ms, q.has m = true)
    (last : ∀ before i after, laid = before ++ i :: after → i.isClose = true → after = []) :
    Grammatical q laid where
  last := last
  once before i after place ack twice := by
    obtain ⟨early, m, late, rfl, item, same⟩ := written_place forms place ack
    obtain rfl := itemOf_ack item ack
    have worded : i ∈ before.filter (·.isWorded) := List.mem_filter.mpr ⟨twice, itemOf_worded ack⟩
    rw [same] at worded
    obtain ⟨m, member, item'⟩ := List.mem_filterMap.mp worded
    obtain rfl := itemOf_ack item' ack
    exact mannerly.once early late rfl member
  first before i after m place item about := by
    obtain ⟨early, m', late, rfl, item', same⟩ := written_place forms place item
    have greeted : .ack ∈ early := mannerly.first early m' late rfl (by
      rw [← Option.isSome_iff_ne_none, ← itemOf_about item item', about])
    have form : itemOf? q .ack = some (.text _) := rfl
    refine ⟨_, ?_, form⟩
    have there := List.mem_filterMap.mpr ⟨_, greeted, form⟩
    rw [← same] at there
    exact List.mem_of_mem_filter there
  kinds text member := by
    have worded : .text text ∈ laid.filter (·.isWorded) := List.mem_filter.mpr ⟨member, rfl⟩
    rw [forms] at worded
    obtain ⟨m, told, item⟩ := List.mem_filterMap.mp worded
    rcases itemOf_form item with ⟨text', encoded, same⟩ | ⟨_, _, -, same⟩
    · obtain rfl : text = text' := by simpa using same
      obtain ⟨e, envelope, rfl⟩ := Option.map_eq_some_iff.mp encoded
      exact ⟨m, e, envelope, rfl, Protocol.envelope_kind (has m told) envelope⟩
    · simp at same

/-- What is written on the socket of a session, whatever its client says, the brokers bring and the
engine answers, and in whichever order its reader, its writer and everybody else go on, is
grammatical. Its messages are those that the writer has taken, in their order. Nobody subscribes on
the connection before the session has said that it acknowledges it. What the client reads is what
has been written. -/
theorem session_grammar (setup : Setup) (hub : Hub) (first : Server)
    (begun : first.engine = Engine.start setup hub) (nobody : first.peers = []) (k : PeerId)
    (c : ConnectionId) (moves : List Move) (p : Peer) :
    let w := (World.start first).play moves
    let log := (World.start first).steps moves
    w.state.peers[k]? = some p → p.connection? = some c →
      Grammatical p.protocol (written k log) ∧
      (written k log).filter (·.isWorded) <+: (picked k log).filterMap (itemOf? p.protocol) ∧
      (∀ (x : SubscriptionId) (y : Subscriber), w.state.engine.subscribers[x]? = some y →
        y.connection = c → .ack ∈ tellings k log) ∧
      p.wire.items.Sublist (((written k log).map Item.asRead).filter (!·.isFinished)) := by
  intro w log here connection
  have reached := play_reached (World.start first) moves
  have civil := reached_civil begun nobody reached p here connection
  have heard := reached_picked begun nobody reached p here connection
  have penned := reached_penned nobody reached p here connection
  obtain ⟨ms, early, forms⟩ := List.prefix_filterMap_iff.mp penned.order
  have has (m : ServerMessage) (member : m ∈ ms) := heard.has m (early.subset member)
  refine ⟨mannerly_grammatical forms (heard.mannerly.of_prefix early) has penned.final,
    penned.order, fun x y found own => ?_, penned.wire⟩
  refine civil.greeted.mp (Bool.not_eq_false _ |>.mp fun new => ?_)
  exact (civil.strange new).nobody x y found own

def staffAgain : List Move :=
  staffStart ++ [.input (.say 0 (.text ("\x7b\"id\":\"1\",\"type\":\"start\",\"payload\":" ++
      "\x7b\"query\":\"subscription \x7b employee \x7b id \x7d \x7d\"\x7d\x7d"))), .step 3,
    .input (.say 0 (.text "\x7b\"type\":\"connection_init\"\x7d")), .step 3] ++
    List.replicate 17 (.step 0)

theorem staff_session_grammar :
    (written 0 ((World.start staffServer).steps staffAgain)).map Item.isClose =
      [false, false, false, true] ∧
    ∃ p, ((World.start staffServer).play staffAgain).state.peers[0]? = some p ∧
      p.connection? = some 0 ∧ Grammatical p.protocol (written 0 ((World.start staffServer).steps
        staffAgain)) ∧ .ack ∈ tellings 0 ((World.start staffServer).steps staffAgain) := by
  obtain ⟨came, entered, wrote⟩ :
      (((World.start staffServer).play staffAgain).state.peers[0]?.map (·.connection?) =
        some (some 0)) ∧
      (((World.start staffServer).play staffAgain).state.engine.subscribers[0]?.map (·.connection) =
        some 0) ∧
      (written 0 ((World.start staffServer).steps staffAgain)).map Item.isClose =
        [false, false, false, true] := by decide +kernel
  obtain ⟨p, here, connection⟩ := Option.map_eq_some_iff.mp came
  obtain ⟨y, found, own⟩ := Option.map_eq_some_iff.mp entered
  obtain ⟨grammatical, -, greeted, -⟩ := session_grammar Engine.staffSetup Engine.staffHub
    staffServer rfl rfl 0 0 staffAgain p here connection
  exact ⟨wrote, p, here, connection, grammatical, greeted 0 y found own⟩

end Server

end SubscriptionGateway
