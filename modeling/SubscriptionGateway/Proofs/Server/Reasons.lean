import SubscriptionGateway.Proofs.Server.Grammar

/-!
For which reasons a session closes its socket, and which of them fit in a close frame. The reasons
quote ids and types of messages that a client has chosen, and are not cut, so those that quote much
are no frame to the client; it reads the end of the stream and neither code nor reason.
-/
namespace SubscriptionGateway

namespace WebSocket

inductive CloseCause where
  | unreadable
  | unreadableRequest
  | missingId (kind : String)
  | unsupported (kind : String)
  | unauthorized
  | taken (id : String)
  | tooManyInits
  | initTimeout
  | binary
  deriving DecidableEq

/-- Bytes of a reason that a close frame has room for besides the code. -/
def reasonLimit : Nat := 123

namespace CloseCause

def code : CloseCause → Nat
  | .unauthorized => CloseCode.unauthorized
  | .taken _ => CloseCode.subscriberExists
  | .tooManyInits => CloseCode.tooManyInits
  | .initTimeout => CloseCode.initTimeout
  | _ => CloseCode.invalidMessage

/-- What is said, but for the words of the parser of a text that cannot be read. -/
def head (p : Protocol) : CloseCause → String
  | .unreadable => DecodeError.unreadable.message
  | .unreadableRequest => DecodeError.unreadableRequest.message
  | .missingId kind => (DecodeError.missingId kind).message
  | .unsupported kind => (DecodeError.unsupported kind p).message
  | .unauthorized => "Unauthorized"
  | .taken id => s!"Subscriber for {id} already exists"
  | .tooManyInits => "Too many initialisation requests"
  | .initTimeout => "Connection initialisation timeout"
  | .binary => "Binary messages are not supported"

def reason (p : Protocol) (words : Option String) (cause : CloseCause) : String :=
  match cause, words with
  | .unreadable, some w => cause.head p ++ ": " ++ w
  | .unreadableRequest, some w => cause.head p ++ ": " ++ w
  | _, _ => cause.head p

def Short (p : Protocol) (words : Option String) : CloseCause → Prop
  | .unreadable => ∀ w ∈ words, w.utf8ByteSize ≤ 97
  | .unreadableRequest => ∀ w ∈ words, w.utf8ByteSize ≤ 96
  | .unsupported kind => kind.utf8ByteSize + p.name.utf8ByteSize ≤ 91
  | .taken id => id.utf8ByteSize ≤ 93
  | _ => True

/-- Only messages of two types need an id. -/
def Proper (p : Protocol) : CloseCause → Prop
  | .missingId kind => kind = p.subscribeKind ∨ kind = p.completeKind
  | _ => True

end CloseCause

namespace Session

def closes? (p : Protocol) (acknowledged : Bool) (owned : List (SubscriptionId × String))
    (text : String) : Option CloseCause :=
  match p.decode text with
  | .error .unreadable => some .unreadable
  | .error .unreadableRequest => some .unreadableRequest
  | .error (.missingId kind) => some (.missingId kind)
  | .error (.unsupported kind _) => some (.unsupported kind)
  | .ok (.init _) => if acknowledged then some .tooManyInits else none
  | .ok (.subscribe id _) =>
    if !acknowledged then some .unauthorized
    else if p = .transport ∧ owned.any (·.2 == id) then some (.taken id)
    else none
  | .ok _ => none

end Session

variable {p : Protocol} {acknowledged : Bool} {owned : List (SubscriptionId × String)} {most : Nat}
  {text : String} {cause : CloseCause} {words : Option String}

/-! ## Bytes -/

theorem unsupported_size (kind : String) (p : Protocol) :
    ((CloseCause.unsupported kind).head p).utf8ByteSize =
      32 + kind.utf8ByteSize + p.name.utf8ByteSize := by
  have before : "Unsupported message type '".utf8ByteSize = 26 := by rfl
  have between : "' for ".utf8ByteSize = 6 := by rfl
  change ("Unsupported message type '" ++ kind ++ "' for " ++ p.name).utf8ByteSize = _
  rw [String.utf8ByteSize_append, String.utf8ByteSize_append, String.utf8ByteSize_append, before,
    between]
  omega

theorem taken_size (id : String) (p : Protocol) :
    ((CloseCause.taken id).head p).utf8ByteSize = 30 + id.utf8ByteSize := by
  have before : "Subscriber for ".utf8ByteSize = 15 := by rfl
  have after : " already exists".utf8ByteSize = 15 := by rfl
  change ("Subscriber for " ++ id ++ " already exists").utf8ByteSize = _
  rw [String.utf8ByteSize_append, String.utf8ByteSize_append, before, after]
  omega

theorem missingId_size (kind : String) (p : Protocol) :
    ((CloseCause.missingId kind).head p).utf8ByteSize = 35 + kind.utf8ByteSize := by
  have before : "Message of type '".utf8ByteSize = 17 := by rfl
  have after : "' is missing an id".utf8ByteSize = 18 := by rfl
  change ("Message of type '" ++ kind ++ "' is missing an id").utf8ByteSize = _
  rw [String.utf8ByteSize_append, String.utf8ByteSize_append, before, after]
  omega

theorem words_size (w : String) (p : Protocol) :
    (CloseCause.unreadable.reason p (some w)).utf8ByteSize = 26 + w.utf8ByteSize ∧
      (CloseCause.unreadableRequest.reason p (some w)).utf8ByteSize = 27 + w.utf8ByteSize := by
  have unread : "Invalid message received: ".utf8ByteSize = 26 := by rfl
  have request : "Invalid subscribe payload: ".utf8ByteSize = 27 := by rfl
  constructor
  · change ("Invalid message received: " ++ w).utf8ByteSize = _
    rw [String.utf8ByteSize_append, unread]
  · change ("Invalid subscribe payload: " ++ w).utf8ByteSize = _
    rw [String.utf8ByteSize_append, request]

theorem fixed_size (fixed : cause ∈ [.unreadable, .unreadableRequest, .unauthorized, .tooManyInits,
    .initTimeout, .binary]) : (cause.head p).utf8ByteSize ≤ reasonLimit := by
  simp only [List.mem_cons, List.not_mem_nil, or_false] at fixed
  rcases fixed with rfl | rfl | rfl | rfl | rfl | rfl <;> cases p <;> decide +kernel

/-- A reason has room in a close frame just if what it quotes is short enough. -/
theorem reason_fits (proper : cause.Proper p) :
    (cause.reason p words).utf8ByteSize ≤ reasonLimit ↔ cause.Short p words := by
  cases cause with
  | unreadable =>
    cases words with
    | none => exact iff_of_true (fixed_size (by simp)) (by simp [CloseCause.Short])
    | some w =>
      have size := (words_size w p).1
      simp only [CloseCause.Short, Option.mem_some_iff, forall_eq', reasonLimit]
      omega
  | unreadableRequest =>
    cases words with
    | none => exact iff_of_true (fixed_size (by simp)) (by simp [CloseCause.Short])
    | some w =>
      have size := (words_size w p).2
      simp only [CloseCause.Short, Option.mem_some_iff, forall_eq', reasonLimit]
      omega
  | unsupported kind =>
    have size := unsupported_size kind p
    simp only [CloseCause.reason, CloseCause.Short, reasonLimit]
    omega
  | taken id =>
    have size := taken_size id p
    simp only [CloseCause.reason, CloseCause.Short, reasonLimit]
    omega
  | missingId kind =>
    have size := missingId_size kind p
    have short : kind.utf8ByteSize ≤ 9 := by
      rcases proper with rfl | rfl <;> cases p <;> decide
    simp only [CloseCause.reason, CloseCause.Short, iff_true, reasonLimit]
    omega
  | unauthorized | tooManyInits | initTimeout | binary =>
    exact iff_of_true (fixed_size (by simp)) trivial

/-! ## Which cause a text is -/

theorem ofEnvelope_error {e : Envelope} {fault : DecodeError}
    (refused : p.ofEnvelope e = .error fault) :
    (∀ kind, fault = .missingId kind → kind = p.subscribeKind ∨ kind = p.completeKind) ∧
      ∀ kind q, fault = .unsupported kind q → q = p := by
  have nameless {fault : DecodeError} (none : e.id = .error fault) : fault = .missingId e.kind := by
    unfold Envelope.id at none
    split at none
    · split at none
      · exact (Except.error.inj none).symm
      · cases none
    · exact (Except.error.inj none).symm
  unfold Protocol.ofEnvelope at refused
  split at refused
  · cases refused
  split at refused
  · rename_i subscribes
    split at refused
    · rename_i err missing
      obtain rfl := Except.error.inj refused
      rw [nameless missing]
      simp [subscribes]
    · split at refused
      · cases refused
      · cases refused
        simp
  split at refused
  · rename_i completes
    split at refused
    · rename_i err missing
      obtain rfl := Except.error.inj refused
      rw [nameless missing]
      simp [completes]
    · cases refused
  split at refused <;> cases refused
  simp

theorem decode_error {fault : DecodeError} (refused : p.decode text = .error fault) :
    (∀ kind, fault = .missingId kind → kind = p.subscribeKind ∨ kind = p.completeKind) ∧
      ∀ kind q, fault = .unsupported kind q → q = p := by
  unfold Protocol.decode at refused
  split at refused
  · exact ofEnvelope_error refused
  · cases refused
    simp

theorem closes_proper (closes : Session.closes? p acknowledged owned text = some cause) :
    cause.Proper p := by
  unfold Session.closes? at closes
  split at closes
  case h_3 kind refused =>
    obtain rfl := Option.some.inj closes
    exact (decode_error refused).1 kind rfl
  case h_5 =>
    split at closes
    · cases closes
      trivial
    · cases closes
  case h_6 =>
    split at closes
    · cases closes
      trivial
    split at closes
    · cases closes
      trivial
    · cases closes
  all_goals cases closes <;> trivial

theorem onText_closes (closes : Session.closes? p acknowledged owned text = some cause) :
    Session.onText p acknowledged owned most text = .close cause.code (cause.reason p none) := by
  unfold Session.closes? at closes
  unfold Session.onText
  split at closes
  case h_4 kind q refused =>
    obtain rfl := (decode_error refused).2 kind q rfl
    cases closes
    rw [refused]
    rfl
  case h_5 payload decoded =>
    split at closes
    · rename_i greeted
      cases closes
      simp only [decoded, Session.onMessage, greeted, ↓reduceIte]
      rfl
    · cases closes
  case h_6 id r decoded =>
    split at closes
    · rename_i unknown
      cases closes
      have unknown : acknowledged = false := by simpa using unknown
      simp only [decoded, Session.onMessage, unknown, Bool.false_eq_true, ↓reduceIte]
      rfl
    rename_i known
    split at closes
    · rename_i both
      obtain ⟨rfl, twice⟩ := both
      cases closes
      have known : acknowledged = true := by simpa using known
      simp only [decoded, Session.onMessage, Session.onSubscribe, known, twice, ↓reduceIte]
      rfl
    · cases closes
  case h_7 => cases closes
  all_goals
    rename_i refused
    cases closes
    rw [refused]
    rfl

theorem onText_goes (stays : Session.closes? p acknowledged owned text = none) (code : Nat)
    (reason : String) :
    .close code reason ∉ (Session.onText p acknowledged owned most text).messages := by
  unfold Session.closes? at stays
  unfold Session.onText
  split at stays
  case h_5 payload decoded =>
    split at stays
    · cases stays
    · rename_i new
      cases p <;> simp [decoded, Session.onMessage, new, Reaction.messages, Session.greeting]
  case h_6 id r decoded =>
    split at stays
    · cases stays
    rename_i known
    split at stays
    · cases stays
    rename_i other
    have known : acknowledged = true := by simpa using known
    simp only [decoded, Session.onMessage, Session.onSubscribe, known, ↓reduceIte]
    split
    · rename_i twice
      cases p with
      | transport => exact absurd ⟨rfl, twice⟩ other
      | legacy => simp [Session.existing, Reaction.messages]
    split <;> simp [Reaction.messages, Session.rejection]
  case h_7 m notInit notSubscribe decoded =>
    cases m with
    | init payload => exact absurd rfl (notInit payload)
    | subscribe id r => exact absurd rfl (notSubscribe id r)
    | complete id =>
      simp only [decoded, Session.onMessage]
      split <;> simp [Reaction.messages]
    | ping | pong | terminate => simp [decoded, Session.onMessage, Reaction.messages]
  all_goals cases stays

end WebSocket

namespace Server

open WebSocket

variable {s : Server} {k : PeerId} {a : Action} {p : Peer} {cause : CloseCause} {code : Nat}
  {reason : String} {ts : List (List Action)} {log : Steps} {w₀ : World}

def closesAfter? (s : Server) (p : Peer) (c : ConnectionId) : Incoming → Option CloseCause
  | .text t => Session.closes? p.protocol p.acknowledged (s.engine.owned c) t
  | .binary => some .binary
  | _ => none

def closesFor? (s : Server) (k : PeerId) : Action → Option CloseCause
  | .read k' since before _ =>
    if k' = k then
      match s.peers[k]? with
      | none => none
      | some p =>
        match p.connection?, s.look p since before with
        | some c, some (.item i) => s.closesAfter? p c i
        | _, some _ => none
        | _, none => some .initTimeout
    else none
  | _ => none

theorem closesAfter_proper {c : ConnectionId} {i : Incoming}
    (closes : s.closesAfter? p c i = some cause) : cause.Proper p.protocol := by
  cases i with
  | text t => exact closes_proper closes
  | binary => cases closes; trivial
  | _ => cases closes

theorem closesFor_proper (here : s.peers[k]? = some p) (closes : s.closesFor? k a = some cause) :
    cause.Proper p.protocol := by
  unfold closesFor? at closes
  split at closes
  · split at closes
    · rw [here] at closes
      simp only at closes
      split at closes
      · exact closesAfter_proper closes
      · cases closes
      · cases closes
        trivial
    · cases closes
  · cases closes

theorem subscribed_unclosed (s : Server) (k' : PeerId) (id : String) (call : CallId) :
    .close code reason ∉ s.tells k (.subscribed k' id call) := by
  simp only [tells]
  split
  · split
    · simp [Session.rejection]
    · exact List.not_mem_nil
  · exact List.not_mem_nil

theorem replies_closes (c : ConnectionId) (i : Incoming) :
    .close code reason ∈ s.replies p c i ↔ ∃ cause, s.closesAfter? p c i = some cause ∧
      cause.code = code ∧ cause.reason p.protocol none = reason := by
  cases i with
  | text t =>
    simp only [replies, closesAfter?]
    cases closes : Session.closes? p.protocol p.acknowledged (s.engine.owned c) t with
    | some cause =>
      rw [onText_closes closes]
      simp [Reaction.messages, eq_comm]
    | none => simpa using onText_goes closes code reason
  | binary =>
    simp [replies, closesAfter?, CloseCause.code, CloseCause.reason, CloseCause.head, eq_comm]
  | _ => simp [replies, closesAfter?]

/-- A session says that it closes its socket just if its reader has come to a cause for it. -/
theorem tells_closes (here : s.peers[k]? = some p) : .close code reason ∈ s.tells k a ↔
    ∃ cause, s.closesFor? k a = some cause ∧ cause.code = code ∧
      cause.reason p.protocol none = reason := by
  cases a with
  | read k' since before due? =>
    by_cases same : k' = k
    · subst same
      simp only [tells, closesFor?, speaks, here, ↓reduceIte]
      cases looked : s.look p since before with
      | none =>
        cases p.connection? <;>
          simp [CloseCause.code, CloseCause.reason, CloseCause.head, eq_comm]
      | some news =>
        cases connection : p.connection? with
        | none => cases news <;> simp
        | some c =>
          cases news with
          | item i => exact replies_closes c i
          | _ => simp
    · simp [tells, closesFor?, same]
  | subscribed k' id call =>
    simp only [closesFor?, reduceCtorEq, false_and, exists_false, iff_false]
    exact subscribed_unclosed s k' id call
  | unsubscribed k' id =>
    simp only [tells, closesFor?, reduceCtorEq, false_and, exists_false, iff_false, here]
    split
    · cases p.protocol <;> simp [Session.unsubscribed]
    · exact List.not_mem_nil
  | _ => simp [tells, closesFor?]

theorem absent_unclosed (absent : s.peers[k]? = none) : s.closesFor? k a = none := by
  cases a <;> simp [closesFor?, absent]

theorem absent_untold (absent : s.peers[k]? = none) : .close code reason ∉ s.tells k a := by
  cases a with
  | read k' since before due? => simp [tells, speaks, absent]
  | subscribed k' id call => exact subscribed_unclosed s k' id call
  | unsubscribed k' id => simp [tells, absent]
  | _ => simp [tells]

/-! ## What reaches a client -/

theorem asRead_close (code : Nat) (reason : String) :
    (Item.close (some (code, reason))).asRead =
      if reason.utf8ByteSize ≤ reasonLimit then .close (some (code, reason)) else .finished := by
  have room : Item.controlLimit < (Item.close (some (code, reason))).payloadBytes ↔
      ¬reason.utf8ByteSize ≤ reasonLimit := by
    simp only [Item.payloadBytes, Item.controlLimit, reasonLimit]
    omega
  simp only [Item.asRead, room, ite_not]

theorem reached_protocol (reached : Reached w₀ s ts log) : ∀ q ∈ log, ∀ p, q.1.peers[k]? = some p →
    ∃ p', s.peers[k]? = some p' ∧ p'.protocol = p.protocol := by
  induction reached with
  | start => simp
  | shuffle _ _ ih => exact ih
  | idle _ ih => exact ih
  | outside i _ ih =>
    intro q member p there
    obtain ⟨p', here, same⟩ := ih q member p there
    obtain ⟨p'', here', touched⟩ := input_alters (k := k) _ i p' here
    exact ⟨p'', here', touched.protocol.trans same⟩
  | @inside s a todo others log ready before ih =>
    intro q member p there
    have onward {p' : Peer} (here : s.peers[k]? = some p') (same : p'.protocol = p.protocol) :
        ∃ p'', (s.perform a).server.peers[k]? = some p'' ∧ p''.protocol = p.protocol := by
      obtain ⟨p'', here', -, protocol, -⟩ := (perform_attends s k a).peer p' here
      exact ⟨p'', here', protocol.trans same⟩
    rcases List.mem_append.mp member with old | new
    · obtain ⟨p', here, same⟩ := ih q old p there
      exact onward here same
    · obtain rfl := List.mem_singleton.mp new
      exact onward there rfl

/-- A session says that it closes its socket just if its reader has come to a cause for it, and the
reason it gives is as long as the id, the type or the words of a parser that it quotes let it be.
With a parser's words or without, it has room in a close frame just if these are short enough, and
if they are not the client reads neither the code nor the reason but the end of the stream. -/
theorem close_reasons (first : Server) (k : PeerId) (moves : List Move) (p : Peer) :
    let w := (World.start first).play moves
    let log := (World.start first).steps moves
    w.state.peers[k]? = some p →
      (∀ code reason, .close code reason ∈ tellings k log ↔
        ∃ q ∈ log, ∃ cause, q.1.closesFor? k q.2 = some cause ∧ cause.code = code ∧
          cause.reason p.protocol none = reason) ∧
      ∀ q ∈ log, ∀ cause, q.1.closesFor? k q.2 = some cause → ∀ words,
        let said := Item.close (some (cause.code, cause.reason p.protocol words))
        ((cause.reason p.protocol words).utf8ByteSize ≤ reasonLimit ↔
          cause.Short p.protocol words) ∧
        (cause.Short p.protocol words → said.asRead = said) ∧
        (¬cause.Short p.protocol words → said.asRead = .finished) := by
  intro w log here
  have reached := play_reached (World.start first) moves
  have seen (q : Server × Action) (member : q ∈ log) {p' : Peer} (there : q.1.peers[k]? = some p') :
      p'.protocol = p.protocol := by
    obtain ⟨p'', here', same⟩ := reached_protocol reached q member p' there
    obtain rfl : p = p'' := by simpa [w, here] using here'
    exact same.symm
  constructor
  · intro code reason
    unfold tellings
    rw [List.mem_flatMap]
    refine exists_congr fun q => and_congr_right fun member => ?_
    cases there : q.1.peers[k]? with
    | none => simp [absent_untold there, absent_unclosed there]
    | some p' =>
      rw [tells_closes there, seen q member there]
  · intro q member cause closes words said
    obtain ⟨p', there⟩ : ∃ p', q.1.peers[k]? = some p' := by
      rw [← Option.ne_none_iff_exists']
      intro absent
      rw [absent_unclosed absent] at closes
      cases closes
    have proper := closesFor_proper there closes
    rw [seen q member there] at proper
    have fits : (cause.reason p.protocol words).utf8ByteSize ≤ reasonLimit ↔
        cause.Short p.protocol words := reason_fits proper
    refine ⟨fits, fun short => ?_, fun long => ?_⟩
    · rw [asRead_close, if_pos (fits.mpr short)]
    · rw [asRead_close, if_neg fun room => long (fits.mp room)]

def lengthyId : String := String.ofList (List.replicate 100 'i')

def lengthySubscribe : Incoming :=
  .text ("\x7b\"id\":\"" ++ lengthyId ++ "\",\"type\":\"subscribe\",\"payload\":" ++
    "\x7b\"query\":\"subscription \x7b employee \x7b id \x7d \x7d\"\x7d\x7d")

def lengthyTwice : List Move :=
  [.input (.join (some "graphql-transport-ws") 1024 false),
    .input (.say 0 (.text "\x7b\"type\":\"connection_init\"\x7d")), .step 1,
    .input (.say 0 lengthySubscribe), .step 1, .step 0, .step 0, .step 0, .step 0,
    .input (.say 0 lengthySubscribe), .step 3]

/-- The session of a client that subscribes twice under a long id says that it closes with a code
that the client never reads. -/
theorem lengthy_close_reason :
    let log := (World.start staffServer).steps lengthyTwice
    ∃ reason, .close CloseCode.subscriberExists reason ∈ tellings 0 log ∧
      ¬reason.utf8ByteSize ≤ reasonLimit ∧
      (Item.close (some (CloseCode.subscriberExists, reason))).asRead = .finished := by
  intro log
  obtain ⟨came, closes⟩ :
      ((World.start staffServer).play lengthyTwice).state.peers[0]?.map (·.protocol) =
        some .transport ∧
      some (.taken lengthyId) ∈ ((World.start staffServer).steps lengthyTwice).map fun q =>
        q.1.closesFor? 0 q.2 := by decide +kernel
  obtain ⟨p, here, protocol⟩ := Option.map_eq_some_iff.mp came
  obtain ⟨q, member, closes⟩ := List.mem_map.mp closes
  obtain ⟨said, reach⟩ := close_reasons staffServer 0 lengthyTwice p here
  have told := (said _ _).mpr ⟨q, member, _, closes, rfl, rfl⟩
  obtain ⟨fits, -, lost⟩ := reach q member _ closes none
  have long : ¬lengthyId.utf8ByteSize ≤ 93 := by decide +kernel
  exact ⟨_, told, fun room => long (fits.mp room), lost long⟩

end Server

end SubscriptionGateway
