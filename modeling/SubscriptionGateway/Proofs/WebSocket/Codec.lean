import SubscriptionGateway.WebSocket.Message
import SubscriptionGateway.Proofs.Json.Readback

/-!
The two protocols' messages as texts. What a server says can be read off its text: the name its type
has in the protocol, its id and its payload; only the older protocol's errors are written as data.
What a client asks for arrives as it was asked, as far as the reader of JSON changes none of its
values, and nothing that needs an id is taken without one.
-/
namespace SubscriptionGateway

/-- A null counts as absent. -/
def Json.present (j : Json) : Option Json := if j.isNull then none else some j

theorem Record.nullable_any (j : Json) : Record.nullable Json.any? j = some j.present := by
  cases j <;> rfl

namespace Json

theorem rereadMembers?_append (as bs : Members) :
    rereadMembers? (as ++ bs) =
      (rereadMembers? as).bind fun as => (rereadMembers? bs).map (as ++ ·) := by
  induction as with
  | nil => simp [rereadMembers?]
  | cons member as ih =>
    obtain ⟨key, value⟩ := member
    rw [List.cons_append, rereadMembers?, rereadMembers?, ih]
    cases value.reread? <;> cases rereadMembers? as <;> cases rereadMembers? bs <;> rfl

def rereadPart? : Option Json → Option (Option Json)
  | none => some none
  | some j => j.reread?.map some

theorem rereadMembers?_part (name : String) (j? : Option Json) :
    rereadMembers? (j?.map fun j => (name, j)).toList =
      (rereadPart? j?).map fun j? => (j?.map fun j => (name, j)).toList := by
  cases j? with
  | none => rfl
  | some j => cases read : j.reread? <;> simp [rereadMembers?, rereadPart?, read]

end Json

namespace Request

def reread? (r : Request) : Option Request :=
  (Json.rereadPart? r.variables?).bind fun variables? =>
    (Json.rereadPart? r.extensions?).map fun extensions? => { r with variables?, extensions? }

def present (r : Request) : Request :=
  { r with
    variables? := r.variables?.bind Json.present
    extensions? := r.extensions?.bind Json.present }

theorem reread?_json (r : Request) : r.json.reread? = r.reread?.map json := by
  have name : ∀ n? : Option String,
      Json.rereadMembers? (n?.map fun n => ("operationName", Json.string n)).toList =
        some (n?.map fun n => ("operationName", Json.string n)).toList := by
    intro n?
    cases n? <;> rfl
  have unmarked : ∀ members : Json.Members,
      Json.isMarked (("query", .string r.query) :: members) = false := by
    intro members
    rfl
  unfold json Json.reread?
  simp only [List.cons_append, unmarked, Bool.false_eq_true, if_false,
    Json.rereadMembers?, Json.reread?,
    Json.rereadMembers?_append, Json.rereadMembers?_part, name]
  unfold reread?
  cases Json.rereadPart? r.variables? with
  | none => rfl
  | some variables? => cases Json.rereadPart? r.extensions? <;> rfl

theorem ofJson?_json (r : Request) : ofJson? r.json = some r.present := by
  obtain ⟨query, variables?, operationName?, extensions?⟩ := r
  have text : ∀ name :
    String, Record.nullable Json.asString? (.string name) = some (some name) := by
    intro name
    rfl
  cases variables? <;> cases operationName? <;> cases extensions? <;>
    simp [ofJson?, json, present, Record.ofJson?, Record.optional, Record.required,
      Record.withDefault,
      Record.get?, Json.Members.get?, Json.asString?, Record.nullable_any, text]

def Stable (r : Request) : Prop :=
  (∀ v ∈ r.variables?, v.Stable) ∧ ∀ x ∈ r.extensions?, x.Stable

theorem reread?_stable {r : Request} (settled : r.Stable) : r.reread? = some r := by
  have part : ∀ {j? : Option Json}, (∀ j ∈ j?, j.Stable) → Json.rereadPart? j? = some j? := by
    intro j? settled
    cases j? with
    | none => rfl
    | some j => rw [Json.rereadPart?, Json.reread?_stable j (settled j rfl)]; rfl
  unfold reread?
  rw [part settled.1, part settled.2]
  rfl

end Request

namespace Shape

theorem ofMembers_known (members : Json.Members) :
    (Form.ofMembers members).all (·.1.isSome) = true := by
  induction members with
  | nil => rfl
  | cons member members ih => exact ih

theorem ofMembers_names (known : String → Bool) (members : Json.Members) :
    ((Form.ofMembers members).filterMap fun m => m.1.filter known) =
      (Json.Members.keys members).filter known := by
  induction members with
  | nil => rfl
  | cons member members ih =>
    obtain ⟨key, value⟩ := member
    cases given : known key <;>
      simp [Form.ofMembers, Json.Members.keys, given, Option.filter] at ih ⊢ <;> exact ih

/-- Where no key is there twice a record is read field by field. -/
theorem record_of {fields : List (String × Shape)} {members : Json.Members} {limit : Nat}
    (keys : (Json.Members.keys members).Nodup) :
    value? (.record fields) (limit + 1) (Form.of (.object members)) =
      (memberValues? fields limit (Form.ofMembers members)).map .object := by
  unfold Form.of value?
  dsimp only
  rw [if_pos (ofMembers_known members), ofMembers_names, if_pos (keys.filter _)]

end Shape

namespace WebSocket

namespace Envelope

variable {e : Envelope}

theorem json_distinct (e : Envelope) :
    ∃ members, e.json = .object members ∧ (Json.Members.keys members).Nodup := by
  obtain ⟨id?, kind, payload?⟩ := e
  refine ⟨_, rfl, ?_⟩
  cases id? <;> cases payload? <;> simp [Json.Members.keys]

theorem read?_text (distinct : ∀ p ∈ e.payload?, p.Distinct)
    (shallow : ∀ p ∈ e.payload?, p.depth < Json.depthLimit) :
    read? e.json.text =
      match e.payload? with
      | none => some e
      | some p => p.reread?.map fun p => { e with payload? := p.present } := by
  obtain ⟨members, object, keys⟩ := e.json_distinct
  have value : ∀ p ∈ e.payload?, Form.value? Json.readText? 126 (Form.of p) = p.reread? := by
    intro p given
    exact Json.value?_of p 126 (distinct p given) (Nat.le_of_lt_succ (shallow p given))
  unfold read? Json.readShaped? Json.text shape
  rw [String.toList_ofList, Form.read?_chars, Option.bind_some, object,
    show Json.depthLimit = 126 + 1 from rfl, Shape.record_of keys]
  obtain ⟨id?, kind, payload?⟩ := e
  cases object
  cases payload? with
  | none =>
    cases id? <;>
      simp [Form.ofMembers, Form.of, Shape.value?, Shape.memberValues?, ofJson?, Record.ofJson?,
        Record.optional,
        Record.required, Record.withDefault, Record.get?, Json.Members.get?, Json.asString?,
        Record.nullable]
  | some p =>
    have read := value p rfl
    cases id? <;> cases reads : p.reread? <;>
      simp [Form.ofMembers, Form.of, Shape.value?, Shape.memberValues?, ofJson?, Record.ofJson?,
        Record.optional,
        Record.required, Record.withDefault, Record.get?, Json.Members.get?, Json.asString?,
        Record.nullable_any, Record.nullable.eq_2, read, reads]

end Envelope

def ClientMessage.HasId : ClientMessage → Prop
  | .subscribe id _ | .complete id => id ≠ ""
  | _ => True

namespace Protocol

variable {p : Protocol} {id : String} {r : Request}

theorem subscribeKind_other (p : Protocol) : p.subscribeKind ≠ "connection_init" := by
  cases p <;> decide

theorem completeKind_other (p : Protocol) :
    p.completeKind ≠ "connection_init" ∧ p.completeKind ≠ p.subscribeKind := by
  cases p <;> decide

theorem ofEnvelope_subscribe (p : Protocol) (given : id ≠ "") (r : Request) :
    p.ofEnvelope ⟨some id, p.subscribeKind, some r.json⟩ = .ok (.subscribe id r.present) := by
  unfold ofEnvelope
  dsimp only
  rw [if_neg p.subscribeKind_other, if_pos rfl]
  simp [Envelope.id, given, Request.ofJson?_json]

theorem decode_subscribe (p : Protocol) (given : id ≠ "") (distinct : r.json.Distinct)
    (shallow : r.json.depth < Json.depthLimit) :
    p.decode (Envelope.json ⟨some id, p.subscribeKind, some r.json⟩).text =
      match r.reread? with
      | some r => .ok (.subscribe id r.present)
      | none => .error .unreadable := by
  have read := Envelope.read?_text (e := ⟨some id, p.subscribeKind, some r.json⟩)
    (fun _ given => Option.some.inj given ▸ distinct)
      (fun _ given => Option.some.inj given ▸ shallow)
  unfold decode
  rw [read]
  dsimp only
  rw [r.reread?_json]
  cases r.reread? with
  | none => rfl
  | some r =>
    dsimp only [Option.map_some]
    exact ofEnvelope_subscribe p given r

theorem ofEnvelope_nameless {e : Envelope}
    (needs : e.kind = p.subscribeKind ∨ e.kind = p.completeKind)
    (nameless : e.id? = none ∨ e.id? = some "") : p.ofEnvelope e = .error (.missingId e.kind) := by
  have id : e.id = .error (.missingId e.kind) := by
    unfold Envelope.id
    rcases nameless with none | empty
    · rw [none]
    · rw [empty]; rfl
  unfold ofEnvelope
  rcases needs with kind | kind
  · rw [kind, if_neg p.subscribeKind_other, if_pos rfl, ← kind, id]
  · rw [kind, if_neg p.completeKind_other.1, if_neg p.completeKind_other.2, if_pos rfl, ← kind, id]

theorem id_given {e : Envelope} {id : String} (given : e.id = .ok id) : id ≠ "" := by
  unfold Envelope.id at given
  split at given
  next i _ =>
    split at given
    next => cases given
    next some_ => exact Except.ok.inj given ▸ some_
  next => cases given

theorem decode_named {text : String} {m : ClientMessage} (decoded : p.decode text = .ok m) :
    m.HasId := by
  unfold decode at decoded
  split at decoded
  next e _ =>
    unfold ofEnvelope at decoded
    split at decoded
    next => cases decoded; trivial
    next =>
    split at decoded
    next =>
      split at decoded
      next => cases decoded
      next id given =>
        split at decoded
        next => cases decoded; exact id_given given
        next => cases decoded
    next =>
    split at decoded
    next =>
      split at decoded
      next => cases decoded
      next id given => cases decoded; exact id_given given
    next =>
    split at decoded <;> cases decoded <;> trivial
  next => cases decoded

end Protocol

/-! ## What a server says -/

namespace ServerMessage

def isClose : ServerMessage → Bool
  | .close _ _ => true
  | _ => false

def typeName? : Protocol → ServerMessage → Option String
  | _, .ack => some "connection_ack"
  | .transport, .keepAlive => some "ping"
  | .legacy, .keepAlive => some "ka"
  | .transport, .next _ _ => some "next"
  | .legacy, .next _ _ => some "data"
  | .transport, .error _ _ => some "error"
  | .legacy, .error _ _ => some "data"
  | _, .complete _ => some "complete"
  | _, .pong _ => some "pong"
  | _, .close _ _ => none

def carriedId? : ServerMessage → Option String
  | .next id _ | .error id _ | .complete id => some id
  | _ => none

/-- The older protocol puts errors where data would be. -/
def payload? : Protocol → ServerMessage → Option Json
  | _, .next _ payload => some payload
  | .transport, .error _ errors => some (.array (errors.map ClientError.json))
  | .legacy, .error _ errors =>
      some (.object [("errors", .array (errors.map ClientError.json)), ("data", .null)])
  | _, .pong payload? => payload?
  | _, _ => none

/-- The message that a protocol writes as it writes the given one: errors of the older one are
data. -/
def told : Protocol → ServerMessage → ServerMessage
  | .legacy, .error id errors =>
    .next id (.object [("errors", .array (errors.map ClientError.json)), ("data", .null)])
  | _, m => m

end ServerMessage

end WebSocket

theorem ClientError.json_injective : Function.Injective ClientError.json := by
  intro a b same
  obtain ⟨message, path?, extensions?⟩ := a
  obtain ⟨message', path?', extensions?'⟩ := b
  cases path? <;> cases path?' <;> cases extensions? <;> cases extensions?' <;>
    simp_all [ClientError.json]

namespace WebSocket

theorem Envelope.json_injective : Function.Injective Envelope.json := by
  intro a b same
  obtain ⟨id?, kind, payload?⟩ := a
  obtain ⟨id?', kind', payload?'⟩ := b
  cases id? <;> cases id?' <;> cases payload? <;> cases payload?' <;> simp_all [Envelope.json]

namespace Protocol

variable {p : Protocol} {m m' : ServerMessage}

theorem envelope?_eq (p : Protocol) (open_ : m.isClose = false) :
    ∃ kind, m.typeName? p = some kind ∧
    p.envelope? m = some ⟨m.carriedId?, kind, m.payload? p⟩ := by
  cases m <;> cases p <;> first | exact ⟨_, rfl, rfl⟩ | cases open_

theorem encode_eq (p : Protocol) (open_ : m.isClose = false) : ∃ e, p.envelope? m = some e ∧
    p.encode m = .ok e.json.text := by
  obtain ⟨kind, -, envelope⟩ := envelope?_eq p open_
  refine ⟨_, envelope, ?_⟩
  unfold encode encode?
  rw [envelope]
  rfl

theorem told_of_envelope (open_ : m.isClose = false) (same : p.envelope? m = p.envelope? m') :
    m.told p = m'.told p := by
  have errors :
    ∀ {es es' : List ClientError}, es.map ClientError.json = es'.map ClientError.json → es = es' :=
    fun same => List.map_injective_iff.mpr ClientError.json_injective same
  cases p <;> cases m <;> cases m' <;>
    simp_all [envelope?, ServerMessage.told, Outcome.errorsBody, ServerMessage.isClose]
  case transport.error.error => exact errors same.2

theorem envelope?_told (p : Protocol) (m : ServerMessage) :
    p.envelope? (m.told p) = p.envelope? m := by
  cases p <;> cases m <;> rfl

theorem encode_inj (open_ : m.isClose = false) (open' : m'.isClose = false) :
    p.encode m = p.encode m' ↔ m.told p = m'.told p := by
  constructor
  · intro same
    obtain ⟨e, envelope, encoded⟩ := encode_eq p open_
    obtain ⟨e', envelope', encoded'⟩ := encode_eq p open'
    rw [encoded, encoded', Except.ok.injEq] at same
    apply told_of_envelope open_
    rw [envelope, envelope', Envelope.json_injective (Json.text_injective same)]
  · intro same
    unfold encode encode?
    rw [← envelope?_told p m, ← envelope?_told p m', same]

/-- What the text of a message says: the name of its type, its id and its payload, and nothing
more. -/
structure Carries (p : Protocol) (m : ServerMessage) (members : Json.Members) : Prop where
  keys : ∀ key ∈ Json.Members.keys members, key ∈ ["id", "type", "payload"]
  kind : members.get? "type" = (m.typeName? p).map .string
  id : members.get? "id" = m.carriedId?.map .string
  payload : members.get? "payload" = m.payload? p
  /-- As an envelope is read, a null payload is as good as none. -/
  envelope : (Envelope.ofJson? (.object members)).map (fun e => (some e.kind, e.id?, e.payload?)) =
    some (m.typeName? p, m.carriedId?, (m.payload? p).bind Json.present)

theorem carries_of_envelope {e : Envelope} (open_ : m.isClose = false)
    (written : p.envelope? m = some e) :
    ∃ members, e.json = .object members ∧ Carries p m members := by
  obtain ⟨kind, named, envelope⟩ := envelope?_eq p open_
  rw [written, Option.some.injEq] at envelope
  subst envelope
  refine ⟨_, rfl, ?_⟩
  have text : ∀ name :
    String, Record.nullable Json.asString? (.string name) = some (some name) := by
    intro name
    rfl
  constructor
  · cases m.carriedId? <;> cases m.payload? p <;> simp [Json.Members.keys]
  · rw [named]
    cases m.carriedId? <;> simp [Json.Members.get?]
  · cases m.carriedId? <;> cases m.payload? p <;> simp [Json.Members.get?]
  · cases m.carriedId? <;> cases m.payload? p <;> simp [Json.Members.get?]
  · rw [named]
    cases m.carriedId? <;> cases m.payload? p <;>
      simp [Envelope.ofJson?, Record.ofJson?, Record.optional, Record.required, Record.withDefault,
        Record.get?, Json.Members.get?, Json.asString?, Record.nullable_any, text]

theorem encode_carries (p : Protocol) (open_ : m.isClose = false) : ∃ text members,
    p.encode m = .ok text ∧ Json.parse? text = some (.object members) ∧ Carries p m members ∧
    ∀ m' : ServerMessage, m'.isClose = false → (p.encode m' = .ok text ↔ m'.told p = m.told p) := by
  obtain ⟨e, envelope, encoded⟩ := encode_eq p open_
  obtain ⟨members, object, carries⟩ := carries_of_envelope open_ envelope
  refine ⟨_, members, encoded, by rw [Json.parse?_text, object], carries, ?_⟩
  intro m' open'
  rw [← encoded]
  exact encode_inj open' open_

/-- What is asked under an id arrives: exactly as it was asked if the reader changes none of its
values, and with what the reader makes of them otherwise. -/
theorem decode_request {id : String} {r : Request} (p : Protocol) (given : id ≠ "")
    (distinct : r.json.Distinct) (shallow : r.json.depth < Json.depthLimit) :
    (r.Stable →
      p.decode (Envelope.json ⟨some id, p.subscribeKind, some r.json⟩).text =
        .ok (.subscribe id r.present)) ∧
    p.decode (Envelope.json ⟨some id, p.subscribeKind, some r.json⟩).text =
      match r.reread? with
      | some r => .ok (.subscribe id r.present)
      | none => .error .unreadable := by
  have decoded := decode_subscribe p given distinct shallow
  constructor
  · intro settled
    rw [decoded, Request.reread?_stable settled]
  · exact decoded

theorem decode_nameless {text : String} {e : Envelope} (p : Protocol)
    (read : Envelope.read? text = some e)
    (needs : e.kind = p.subscribeKind ∨ e.kind = p.completeKind)
    (nameless : e.id? = none ∨ e.id? = some "") : p.decode text = .error (.missingId e.kind) := by
  unfold decode
  rw [read]
  exact ofEnvelope_nameless needs nameless

/-- Both codecs are faithful. A message is told by its text, and a request by its own as far as the
reader keeps its values; nothing that needs an id is taken without one. -/
theorem codecs_faithful (p : Protocol) :
    (∀ m : ServerMessage, m.isClose = false → ∃ text members,
      p.encode m = .ok text ∧ Json.parse? text = some (.object members) ∧ Carries p m members ∧
      ∀ m' : ServerMessage, m'.isClose = false → (p.encode m' = .ok text ↔ m'.told p = m.told p)) ∧
    (∀ (id : String) (r : Request), id ≠ "" → r.json.Distinct → r.json.depth < Json.depthLimit →
      (r.Stable →
        p.decode (Envelope.json ⟨some id, p.subscribeKind, some r.json⟩).text =
          .ok (.subscribe id r.present)) ∧
      p.decode (Envelope.json ⟨some id, p.subscribeKind, some r.json⟩).text =
        match r.reread? with
        | some r => .ok (.subscribe id r.present)
        | none => .error .unreadable) ∧
    (∀ text e, Envelope.read? text = some e →
      (e.kind = p.subscribeKind ∨ e.kind = p.completeKind) → (e.id? = none ∨ e.id? = some "") →
      p.decode text = .error (.missingId e.kind)) ∧
    (∀ text m, p.decode text = .ok m → m.HasId) := by
  refine ⟨?_, ?_, ?_, ?_⟩
  · intro m open_
    exact encode_carries p open_
  · intro id r given distinct shallow
    exact decode_request p given distinct shallow
  · intro text e read needs nameless
    exact decode_nameless p read needs nameless
  · intro text m decoded
    exact decode_named decoded

def plainRequest : Request where
  query := "subscription($n:Int){a(n:$n)}"
  variables? := some (.object [("n", .number (.integer 7 (by decide))), ("t", .string "a\n\"b")])
  extensions? := some .null

theorem plainRequest_distinct : plainRequest.json.Distinct := by
  simp [plainRequest, Request.json, Json.Distinct, Json.DistinctMembers, Json.Members.keys]

theorem plainRequest_stable : plainRequest.Stable := by
  have seven := Json.stable_integer 7 (by decide)
  simp [plainRequest, Request.Stable, Json.Stable, Json.StableMembers, Json.isMarked, Form.textMark]
  exact seven

theorem codecs_faithful_plain :
    (∃ text, Protocol.legacy.encode (.error "1" [{ message := "no \"a\"" }]) = .ok text ∧
      Protocol.legacy.encode (.next "1" (.object [("errors",
        .array [.object [("message", .string "no \"a\"")]]), ("data", .null)])) = .ok text) ∧
    Protocol.legacy.decode (Envelope.json ⟨some "1", "start", some plainRequest.json⟩).text =
      .ok (.subscribe "1" plainRequest.present) ∧
    (ClientMessage.subscribe "1" plainRequest.present).HasId ∧
    Protocol.legacy.decode (Envelope.json ⟨some "", "stop", none⟩).text = .error
      (.missingId "stop") := by
  obtain ⟨encodes, arrives, refuses, named⟩ := codecs_faithful .legacy
  have arrived := (arrives "1" plainRequest (by decide) plainRequest_distinct (by decide)).1
    plainRequest_stable
  refine ⟨?_, arrived, named _ _ arrived, ?_⟩
  · obtain ⟨text, -, encoded, -, -, same⟩ := encodes (.error "1" [{ message := "no \"a\"" }]) rfl
    exact ⟨text, encoded, (same _ rfl).mpr rfl⟩
  · exact refuses _ ⟨some "", "stop", none⟩ (Envelope.read?_text (by simp) (by simp))
      (.inr rfl) (.inr rfl)

/-! ## Values that do not arrive as they are -/

theorem arrives_reread {p : Protocol} {id : String} {r : Request} (given : id ≠ "")
    (distinct : r.json.Distinct) (shallow : r.json.depth < Json.depthLimit)
    (arrives : p.decode (Envelope.json ⟨some id, p.subscribeKind, some r.json⟩).text =
      .ok (.subscribe id r.present)) : r.reread?.map Request.present = some r.present := by
  rw [decode_subscribe p given distinct shallow] at arrives
  cases read : r.reread? with
  | none => rw [read] at arrives; cases arrives
  | some r' =>
    rw [read] at arrives
    simpa using arrives

/-- Three times ten to the 25th: a number that the reader takes for its neighbour. -/
def roundedRequest : Request where
  query := "subscription{a}"
  variables? := some (.object [("x", .number (.double ⟨false, 6984919309616089, 32, by decide⟩))])

/-- An object of the shape that the reader keeps for a text within the text. -/
def markedRequest : Request where
  query := "subscription{a}"
  variables? := some (.object [(Form.textMark, .string "1")])

theorem rounded_changed :
    roundedRequest.reread?.map Request.present ≠ some roundedRequest.present := by
  decide +kernel

theorem marked_changed :
    markedRequest.reread?.map Request.present ≠ some markedRequest.present := by
  decide +kernel

/-- Some requests within the limit do not arrive as they were asked. -/
theorem requests_changed :
    (roundedRequest.json.Distinct ∧ roundedRequest.json.depth < Json.depthLimit ∧
      Protocol.transport.decode
        (Envelope.json ⟨some "1", "subscribe", some roundedRequest.json⟩).text ≠
        .ok (.subscribe "1" roundedRequest.present)) ∧
    markedRequest.json.Distinct ∧ markedRequest.json.depth < Json.depthLimit ∧
      Protocol.transport.decode
        (Envelope.json ⟨some "1", "subscribe", some markedRequest.json⟩).text ≠
        .ok (.subscribe "1" markedRequest.present) := by
  have rounded : roundedRequest.json.Distinct := by
    simp [roundedRequest, Request.json, Json.Distinct, Json.DistinctMembers, Json.Members.keys]
  have marked : markedRequest.json.Distinct := by
    simp [markedRequest, Request.json, Json.Distinct, Json.DistinctMembers, Json.Members.keys]
  refine ⟨⟨rounded, by decide, ?_⟩, marked, by decide, ?_⟩
  · intro arrives
    exact rounded_changed (arrives_reread (p := .transport) (by decide) rounded (by decide) arrives)
  · intro arrives
    exact marked_changed (arrives_reread (p := .transport) (by decide) marked (by decide) arrives)

end Protocol

end WebSocket

end SubscriptionGateway
