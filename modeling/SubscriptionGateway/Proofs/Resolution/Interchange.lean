import SubscriptionGateway.Proofs.GraphQL.Readback
import SubscriptionGateway.Proofs.Resolution.Completion

/-!
Records held here and another graph that holds them are interchangeable. The other graph is only
known by what it does with a request: it reads the text of the query, and of the record it sends the
fields that this asks for, siblings of one name taken together. The text has no aliases, so it asks
for all that the projection looks at, and the projection comes to the same on what is sent as on the
whole record.
-/
namespace SubscriptionGateway

namespace GraphQL

def Node.name? : Node → Option String
  | .field _ name _ _ _ => some name
  | _ => none

def Node.inside (name : String) : Node → List Node
  | .field _ n _ _ selections => if n = name then selections else []
  | _ => []

def fieldNames (nodes : List Node) : List String := nodes.filterMap Node.name?

def below (name : String) (nodes : List Node) : List Node := nodes.flatMap (Node.inside name)

variable {s : Selection} {nodes : List Node}

theorem fieldNames_node (member : s.node ∈ nodes) : s.field ∈ fieldNames nodes := by
  refine List.mem_filterMap.mpr ⟨s.node, member, ?_⟩
  rw [Selection.node_eq]
  rfl

theorem below_node (member : s.node ∈ nodes) :
    ∀ u ∈ s.selections, u.node ∈ below s.field nodes := by
  intro u inner
  refine List.mem_flatMap.mpr ⟨s.node, member, ?_⟩
  rw [Selection.node_eq, Node.inside, if_pos rfl]
  exact Selection.mem_nodes inner

end GraphQL

namespace Subgraph

open GraphQL Json

mutual

/-- A value of a record and what is sent of it, by what is selected below the field it stands in.
A value whose shape does not fit the selection has nothing that is sent of it. -/
inductive SentOf : List Node → Json → Json → Prop where
  | null {nodes} : SentOf nodes .null .null
  | scalar {j} : j.isScalar = true → SentOf [] j j
  | list {nodes js sent} : js.length = sent.length →
      (∀ (i : Nat) (h : i < js.length) (h' : i < sent.length), SentOf nodes js[i] sent[i]) →
      SentOf nodes (.array js) (.array sent)
  | object {nodes source sent} : nodes ≠ [] → SentOfAll nodes source sent →
      SentOf nodes (.object source) (.object sent)

/-- An object and what is sent of it: a member for every field that is asked for and no other, null
where the object has none. The type name is sent as it stands. -/
inductive SentOfAll : List Node → Members → Members → Prop where
  | fields {nodes source sent} :
      (∀ name, Members.contains sent name = true ↔ name ∈ fieldNames nodes) →
      (∀ v, Members.get? sent "__typename" = some v → v = Members.held source "__typename") →
      (∀ name v, name ≠ "__typename" → Members.get? sent name = some v →
        SentOf (below name nodes) (Members.held source name) v) →
      SentOfAll nodes source sent

end

/-- What another graph that holds the records does with a request. It takes the type name from the
representation and answers with the entity, or with null when it has none that fits. -/
def Honest (r : EntityRecords) (request : Json) (x : Exchange) : Prop :=
  ∀ text known typeName nodes,
    request = .object [("query", .string text),
      ("variables", .object [("representations", .array [.object known])])] →
    Members.get? known "__typename" = some (.string typeName) →
    askedFor? text = some nodes →
    ∃ status bytes sent, x = .answered status bytes ∧ ¬(400 ≤ status ∧ status < 600) ∧
      Json.readShaped? shape (Utf8.chars bytes) =
        some (.object [("data", .object [("_entities", .array [sent])])]) ∧
      match r.find? typeName known with
      | none => sent = .null
      | some record => ∃ ms, sent = .object ms ∧ SentOfAll nodes record ms

def reply (exchange : Json → Exchange) (q : EntityRequest) : Except Fault (Option Members) :=
  entity (exchange (body q))

theorem read_entity {bytes : List UInt8} {sent : Json}
    (sends : Json.readShaped? shape (Utf8.chars bytes) =
      some (.object [("data", .object [("_entities", .array [sent])])])) :
    read bytes = .ok sent.asObject? := by
  rw [read, sends]
  rfl

end Subgraph

namespace Projection

open GraphQL Json Subgraph

theorem held_of_get? {ms : Members} {name : String} {v : Json} (found : ms.get? name = some v) :
    ms.held name = v := by
  rw [Members.held, found, Option.getD_some]

mutual

theorem answers_alike : ∀ {nodes : List Node} {j sent : Json} (t : Selection),
    SentOf nodes j sent → (∀ u ∈ t.selections, u.node ∈ nodes) → AlikeWhereSelected t j sent
  | _, _, _, _, .null, _ => .same
  | _, _, _, _, .scalar _, _ => .same
  | _, _, _, t, .list same each, asked =>
    .list same fun i h h' => answers_alike t (each i h h') asked
  | _, _, _, t, .object _ all, asked => by
    obtain ⟨typename, below⟩ := answersAll_alike t.selections all asked
    exact .object (fun u member isTypename => (typename u member isTypename).resolve_left (by simp))
      below

theorem answersAll_alike : ∀ {nodes : List Node} {source sent : Members} (set : List Selection),
    SentOfAll nodes source sent → (∀ u ∈ set, u.node ∈ nodes) →
      SameTypename false set source sent ∧ AlikeBelow set source sent
  | _, source, sent, set, .fields has typename each, asked => by
    refine ⟨fun u member isTypename => .inr ?_, fun u member isField => ?_⟩
    · have present := (has u.field).mpr (fieldNames_node (asked u member))
      rw [show u.field = "__typename" by simpa [Selection.isTypename] using isTypename] at present
      obtain ⟨v, found⟩ := Option.isSome_iff_exists.mp present
      exact (typename v found).symm.trans (held_of_get? found).symm
    · have present := (has u.field).mpr (fieldNames_node (asked u member))
      obtain ⟨v, found⟩ := Option.isSome_iff_exists.mp present
      have other : u.field ≠ "__typename" := by simpa [Selection.isTypename] using isField
      rw [held_of_get? found]
      exact answers_alike u (each u.field v other found) (below_node (asked u member))

end

end Projection

namespace Resolution

open GraphQL Projection Json

variable {s : CompiledSubscription} {r : EntityRecords} {payload : List UInt8}
  {ms known record sent : Members} {selections : List Selection}

theorem representation_typename (typed : checkType s.field ms = .ok ())
    (represented : representation s.field ms = some known) :
    known.get? "__typename" = some (.string s.field.typeName) := by
  have named (key : String) (j : Json) (held : ms.held key = j) (value : j ≠ .null)
    (before : Members)
      (known : before.get? "__typename" = some (.string s.field.typeName)) :
      (before.insert key j).get? "__typename" = some (.string s.field.typeName) := by
    rw [Members.get?_insert]
    split
    · rename_i same
      subst same
      rw [checkType_held, held] at typed
      cases j with
      | null => exact absurd rfl value
      | string name =>
        simp only at typed
        split at typed
        · rename_i same
          rw [same]
        · cases typed
      | _ => cases typed
    · exact known
  rw [representation_held] at represented
  refine List.foldlRecOn (motive := fun acc => ∀ known, acc = some known →
    Members.get? known "__typename" = some (.string s.field.typeName)) _ _ ?_ ?_ known represented
  · rintro known ⟨⟩
    rfl
  intro acc begins key _ known steps
  obtain ⟨before, rfl, inserted⟩ := Option.bind_eq_some_iff.mp steps
  split at inserted
  · cases inserted
  · cases inserted
    exact named key _ rfl ‹_› before (begins before rfl)

theorem held_complete {name : String} :
    (complete ms (some record)).held name = (ms.get? name).getD (record.held name) := by
  rw [Members.held, get?_complete, Option.getD_some, Members.held]
  cases ms.get? name <;> rfl

/-- Completed by what is sent, the payload shows what it shows when it is completed by the
record. -/
theorem complete_alike (below : AlikeBelow selections record sent) :
    AlikeBelow selections (complete ms (some record)) (complete ms (some sent)) := by
  intro t member isField
  rw [held_complete, held_complete]
  cases ms.get? t.field with
  | none => exact below t member isField
  | some v => exact .same

theorem start_parts {hasEntities : Bool} {started : Started} {wanted : EntityRequest}
    (starts : start s hasEntities payload = .ok started) (wants : started.wanted = some wanted) :
    checkType s.field started.object = .ok () ∧ wanted.typeName = s.field.typeName ∧
      wanted.selections = s.operation.root.selections ∧ s.operation.root.selections ≠ [] ∧
      representation s.field started.object = some wanted.representation := by
  rw [start] at starts
  split at starts
  · cases starts
  split at starts
  · cases starts
  rename_i object _ _ typed
  cases starts
  dsimp only at wants
  split at wants
  · rename_i asks
    obtain ⟨known, represented, rfl⟩ := Option.map_eq_some_iff.mp wants
    refine ⟨typed, rfl, rfl, fun empty => ?_, represented⟩
    rw [empty] at asks
    simp [lacks] at asks
  · cases wants

/-- For every operation that is accepted: the query asks for all fields that are selected, and
another graph that answers honestly for some records leads to the same data or the same fault as the
records do themselves, however the payload and the record share the fields. The resolver of an
engine comes to the same outcome over either. -/
theorem subgraph_interchangeable {request : Request} {op : SubscriptionOperation}
    (accepted : SubscriptionOperation.ofRequest request = .ok op) (f : EventField) (key : SourceKey)
    (isName : IsName f.typeName) (r : EntityRecords) (exchange : Json → Subgraph.Exchange)
    (payload : List UInt8)
    (honest : ∀ started wanted, start ⟨op, f, key⟩ true payload = .ok started →
      started.wanted = some wanted →
      Subgraph.Honest r (Subgraph.body wanted) (exchange (Subgraph.body wanted))) :
    (op.root.selections ≠ [] → askedFor? (Subgraph.query f.typeName op.root.selections) =
      some (Selection.nodes op.root.selections)) ∧
    data ⟨op, f, key⟩ (some (Subgraph.reply exchange)) payload =
      data ⟨op, f, key⟩ (some r.reply) payload ∧
    ∀ source : EntitySource, (∀ q, (source q).answer? = some (Subgraph.reply exchange q)) →
      (Resolver.ofSource (some source) ⟨op, f, key⟩ payload).outcome? =
        (Resolver.ofSource (some r.source) ⟨op, f, key⟩ payload).outcome? := by
  have named := (root_named accepted).inner
  have same : data ⟨op, f, key⟩ (some (Subgraph.reply exchange)) payload =
      data ⟨op, f, key⟩ (some r.reply) payload := by
    rw [data, data]
    cases starts : start ⟨op, f, key⟩ true payload with
    | error fault => simp only [Option.isSome_some, starts]
    | ok started =>
      simp only [Option.isSome_some, starts]
      cases wants : started.wanted with
      | none => rfl
      | some wanted =>
        obtain ⟨typed, type, selected, filled, represented⟩ := start_parts starts wants
        obtain ⟨typeName, known, selections⟩ := wanted
        obtain rfl : typeName = f.typeName := type
        obtain rfl : selections = op.root.selections := selected
        obtain ⟨status, bytes, sent, answers, fine, sends, entity⟩ :=
          honest started _ starts wants _ known f.typeName _ rfl
            (representation_typename typed represented) (askedFor_query isName named filled)
        have read : Subgraph.reply exchange ⟨f.typeName, known, op.root.selections⟩ =
            .ok sent.asObject? := by
          rw [Subgraph.reply, answers, Subgraph.entity, if_neg fine, Subgraph.read_entity sends]
        simp only [read, EntityRecords.reply]
        cases found : r.find? f.typeName known with
        | none =>
          rw [found] at entity
          rw [entity]
          rfl
        | some record =>
          rw [found] at entity
          obtain ⟨ms, rfl, all⟩ := entity
          -- What is sent differs from the record in what no selection looks at.
          have below := (answersAll_alike op.root.selections all fun u => Selection.mem_nodes).2
          simp only [asObject?, finish]
          rw [root_alike (complete_alike below)]
  refine ⟨askedFor_query isName named, same, fun source answers => ?_⟩
  have records : ∀ q, (r.source q).answer? = some (r.reply q) := fun _ => rfl
  rw [ofSource_data answers, same, ofSource_data records]

def petsRequest : Request where
  query := "subscription \x7b e \x7b id a: details \x7b forename \x7d " ++
    "b: details \x7b surname pets \x7b __typename name \x7d \x7d missing \x7d \x7d"
  operationName? := none
  variables? := none

def petsSelections : List Selection :=
  [.leaf "id", ⟨"a", "details", [.leaf "forename"]⟩,
    ⟨"b", "details", [.leaf "surname", .object "pets" [.leaf "__typename", .leaf "name"]]⟩,
    .leaf "missing"]

def petsOperation : SubscriptionOperation := ⟨none, .object "e" petsSelections, .nil⟩

def petsField : EventField := ⟨"e", "default", ["employeeUpdated"], "Employee", ["id"], []⟩

def petsSubscription : CompiledSubscription :=
  ⟨petsOperation, petsField, .ofTopics "default" ["employeeUpdated"]⟩

def petsPayload : List UInt8 := "\x7b\"id\":1\x7d".toUTF8.toList

def petsDetails : Members :=
  [("forename", .string "Jens"), ("surname", .string "Neuse"),
    ("pets", .array [.object [("name", .string "Rex"), ("age", .ofNat 3)], .null])]

def petsRecord : Members :=
  [("id", .ofNat 1), ("details", .object petsDetails), ("extra", .bool true)]

def petsRecords : EntityRecords := ⟨[("Employee", [petsRecord])]⟩

def sentDetails : Members :=
  [("forename", .string "Jens"), ("surname", .string "Neuse"),
    ("pets", .array [.object [("__typename", .null), ("name", .string "Rex")], .null])]

def sentEntity : Members :=
  [("id", .ofNat 1), ("details", .object sentDetails), ("missing", .null)]

def sentBytes : List UInt8 :=
  ("\x7b\"data\":\x7b\"_entities\":[\x7b\"id\":1,\"details\":\x7b\"forename\":\"Jens\"," ++
    "\"surname\":\"Neuse\",\"pets\":[\x7b\"__typename\":null,\"name\":\"Rex\"\x7d,null]\x7d," ++
    "\"missing\":null\x7d]\x7d\x7d").toUTF8.toList

def petsData : Json :=
  .object [("e", .object [("id", .ofNat 1), ("a", .object [("forename", .string "Jens")]),
    ("b", .object [("surname", .string "Neuse"),
      ("pets", .array [.object [("__typename", .null), ("name", .string "Rex")], .null])]),
    ("missing", .null)])]

theorem contains_iff_keys {name : String} : ms.contains name = true ↔ name ∈ ms.keys := by
  induction ms with
  | nil => simp [Members.contains, Members.get?, Members.keys]
  | cons m rest ih =>
    obtain ⟨k, v⟩ := m
    rw [Members.contains, Members.get?, Members.keys, List.map_cons, List.mem_cons]
    split
    · rename_i same
      simp [same]
    · rename_i differs
      rw [← Members.contains, ih, Members.keys]
      simp [Ne.symm differs]

theorem mem_of_get? {name : String} {v : Json} (found : ms.get? name = some v) :
    (name, v) ∈ ms := by
  induction ms with
  | nil => cases found
  | cons m rest ih =>
    obtain ⟨k, w⟩ := m
    rw [Members.get?] at found
    split at found
    · rename_i same
      cases found
      exact same ▸ List.mem_cons_self
    · exact List.mem_cons_of_mem _ (ih found)

theorem answersAll_of_mem {nodes : List Node}
    (same : ∀ name, name ∈ sent.keys ↔ name ∈ fieldNames nodes)
    (typename : ∀ v, sent.get? "__typename" = some v → v = ms.held "__typename")
    (each : ∀ name v, name ≠ "__typename" → (name, v) ∈ sent →
      Subgraph.SentOf (below name nodes) (ms.held name) v) :
    Subgraph.SentOfAll nodes ms sent :=
  .fields (fun name => contains_iff_keys.trans (same name)) typename
    fun name v other found => each name v other (mem_of_get? found)

theorem pets_sent : Subgraph.SentOfAll (Selection.nodes petsSelections) petsRecord sentEntity := by
  have pets : Subgraph.SentOf (Selection.nodes [.leaf "__typename", .leaf "name"])
      (.object [("name", .string "Rex"), ("age", .ofNat 3)])
      (.object [("__typename", .null), ("name", .string "Rex")]) := by
    refine .object (List.cons_ne_nil _ _) (answersAll_of_mem (fun name => ?_) ?_ ?_)
    · simp [Members.keys, fieldNames, Selection.nodes, Selection.node, Selection.leaf, Node.name?]
    · rintro v ⟨⟩
      rfl
    · rintro name v other member
      rcases member with _ | ⟨_, _ | ⟨_, none⟩⟩
      · exact absurd rfl other
      · exact .scalar rfl
      · cases none
  have details : Subgraph.SentOf
      (Selection.nodes [.leaf "forename", .leaf "surname",
        .object "pets" [.leaf "__typename", .leaf "name"]])
      (.object petsDetails) (.object sentDetails) := by
    refine .object (List.cons_ne_nil _ _) (answersAll_of_mem (fun name => ?_) ?_ ?_)
    · simp [Members.keys, fieldNames, Selection.nodes, Selection.node, Selection.leaf,
        Selection.object,
        Node.name?, sentDetails]
    · rintro v ⟨⟩
    · rintro name v - member
      rcases member with _ | ⟨_, _ | ⟨_, _ | ⟨_, none⟩⟩⟩
      · exact .scalar rfl
      · exact .scalar rfl
      · refine .list rfl fun i h h' => ?_
        rcases i with _ | _ | i
        · exact pets
        · exact .null
        · exact absurd (Nat.lt_of_succ_lt_succ (Nat.lt_of_succ_lt_succ h)) (Nat.not_lt_zero i)
      · cases none
  refine answersAll_of_mem (fun name => ?_) ?_ ?_
  · simp [Members.keys, fieldNames, Selection.nodes, Selection.node, Selection.leaf, Node.name?,
      petsSelections, sentEntity]
  · rintro v ⟨⟩
  · rintro name v - member
    rcases member with _ | ⟨_, _ | ⟨_, _ | ⟨_, none⟩⟩⟩
    · exact .scalar rfl
    · exact details
    · exact .null
    · cases none

theorem pets_accepted : SubscriptionOperation.ofRequest petsRequest = .ok petsOperation := by cbv

theorem pets_isName : IsName petsField.typeName :=
  ⟨'E', ['m', 'p', 'l', 'o', 'y', 'e', 'e'], by rfl, by rfl, List.all_eq_true.mp (by rfl)⟩

theorem pets_honest (started : Started) (wanted : EntityRequest)
    (starts : start petsSubscription true petsPayload = .ok started)
    (wants : started.wanted = some wanted) :
    Subgraph.Honest petsRecords (Subgraph.body wanted) (.answered 200 sentBytes) := by
  have asked := askedFor_query pets_isName (root_named pets_accepted).inner (List.cons_ne_nil _ _)
  have sends : Json.readShaped? Subgraph.shape (Utf8.chars sentBytes) =
      some (.object [("data", .object [("_entities", .array [.object sentEntity])])]) := by
    decide +kernel
  obtain ⟨typeName, known, selections⟩ := wanted
  obtain ⟨typed, rfl, rfl, -, represented⟩ := start_parts starts wants
  intro text known' type nodes request named asks
  simp only [Subgraph.body, object.injEq, List.cons.injEq, Prod.mk.injEq, string.injEq,
    array.injEq, true_and, and_true] at request
  obtain ⟨rfl, rfl⟩ := request
  obtain rfl : petsField.typeName = type :=
    string.inj (Option.some.inj ((representation_typename typed represented).symm.trans named))
  obtain rfl : Selection.nodes petsSelections = nodes := Option.some.inj (asked.symm.trans asks)
  have object : started.object = [("id", .ofNat 1)] := by
    have decoded : decode petsPayload = .ok [("id", .ofNat 1)] := by decide +kernel
    exact Except.ok.inj ((start_object starts).symm.trans decoded)
  obtain rfl : known = [("__typename", .string "Employee"), ("id", .ofNat 1)] := by
    rw [object] at represented
    exact Option.some.inj (represented.symm.trans (by decide +kernel))
  have found : petsRecords.find? petsField.typeName
      [("__typename", .string "Employee"), ("id", .ofNat 1)] = some petsRecord := by decide +kernel
  refine ⟨200, sentBytes, .object sentEntity, rfl, by decide, sends, ?_⟩
  rw [found]
  exact ⟨sentEntity, rfl, pets_sent⟩

theorem pets_interchangeable :
    SubscriptionOperation.ofRequest petsRequest = .ok petsOperation ∧ IsName petsField.typeName ∧
      askedFor? (Subgraph.query "Employee" petsSelections) = some (Selection.nodes petsSelections) ∧
      data petsSubscription (some petsRecords.reply) petsPayload = .ok petsData ∧
      data petsSubscription (some (Subgraph.reply fun _ => .answered 200 sentBytes)) petsPayload =
        .ok petsData := by
  have resolved : data petsSubscription (some petsRecords.reply) petsPayload = .ok petsData := by
    decide +kernel
  obtain ⟨asks, same, -⟩ := subgraph_interchangeable pets_accepted petsField
    petsSubscription.sourceKey pets_isName petsRecords
      (fun _ => .answered 200 sentBytes) petsPayload
    pets_honest
  exact ⟨pets_accepted, pets_isName, asks (List.cons_ne_nil _ _), resolved, same.trans resolved⟩

end Resolution

end SubscriptionGateway
