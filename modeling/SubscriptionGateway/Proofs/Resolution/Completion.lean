import SubscriptionGateway.Proofs.Resolution.Unseen

/-!
How far an entity completes a payload: by first fields. The entity is asked for when a field that is
selected at the first level is missing, and only such fields are taken from it, with all that is
below them. A field that the payload carries hides the one of the record at every depth, so what is
missing inside an object of the payload stays missing, also for the non-null rules.
-/
namespace SubscriptionGateway

namespace Projection

open Json

variable {ms ms' : Members} {selections : List Selection} {p : Place} {s : Selection}
  {value : Option Json}

theorem follow_first {name : String} (same : ms.get? name = ms'.get? name) (below : List Step) :
    follow (.object ms) (.key name :: below) = follow (.object ms') (.key name :: below) := by
  rw [follow, follow, same]

theorem stands_first (stands : Stands ms selections p s value) :
    ∃ t ∈ selections, t.isTypename = false ∧ p.names.head? = some t.field ∧
      ∀ ms' : Members, ms'.get? t.field = ms.get? t.field → Stands ms' selections p s value := by
  induction stands with
  | @top s member isField =>
    refine ⟨s, member, isField, rfl, fun ms' same => ?_⟩
    exact same ▸ .top member isField
  | item _ read ih =>
    obtain ⟨t, member, isField, head, moves⟩ := ih
    exact ⟨t, member, isField, head, fun ms' same => .item (moves ms' same) read⟩
  | @inside p s _ u _ inner named ih =>
    obtain ⟨t, member, isField, head, moves⟩ := ih
    refine ⟨t, member, isField, ?_, fun ms' same => .inside (moves ms' same) inner named⟩
    rw [Place.field, List.head?_append, head, Option.some_or]

end Projection

namespace EntityRecords

def reply (r : EntityRecords) (q : EntityRequest) : Except Fault (Option Json.Members) :=
  .ok (r.find? q.typeName q.representation)

end EntityRecords

namespace Resolution

open Projection Json

/-- The object that a field of the first level is read from. -/
def holder (ms record : Members) (name : String) : Members :=
  if ms.contains name then ms else record

/-- Every field that is selected at the first level is the one of its holder. -/
def Completed (selections : List Selection) (ms record object : Members) : Prop :=
  ∀ t ∈ selections, t.isTypename = false →
    object.get? t.field = (holder ms record t.field).get? t.field

variable {s : CompiledSubscription} {r : EntityRecords} {payload : List UInt8}
  {ms record object : Members} {selections : List Selection} {p : Place} {t : Selection}
  {value : Option Json}

theorem holder_present {name : String} (present : ms.contains name = true) :
    holder ms record name = ms :=
  if_pos present

theorem holder_absent {name : String} (absent : ms.contains name = false) :
    holder ms record name = record :=
  if_neg (by simp [absent])

theorem contains_false {name : String} : ms.contains name = false ↔ ms.get? name = none := by
  simp [Members.contains]

theorem lacks_iff : lacks ms selections = true ↔
    ∃ t ∈ selections, t.isTypename = false ∧ ms.get? t.field = none := by
  simp [lacks, Members.contains]

theorem completed_alone (nothing : lacks ms selections = false) :
    Completed selections ms record ms := by
  intro t member isField
  have present : ms.contains t.field = true := by
    rw [← Bool.not_eq_false, contains_false]
    intro absent
    have lacking := lacks_iff.mpr ⟨t, member, isField, absent⟩
    rw [nothing] at lacking
    cases lacking
  rw [holder_present present]

theorem completed_complete : Completed selections ms record (complete ms (some record)) := by
  intro t _ _
  rw [get?_complete, Option.getD_some]
  cases present : ms.contains t.field with
  | true =>
    obtain ⟨j, found⟩ := Option.isSome_iff_exists.mp present
    rw [holder_present present, found, Option.some_or]
  | false => rw [holder_absent present, contains_false.mp present, Option.none_or]

namespace Completed

variable (completed : Completed selections ms record object)
include completed

theorem stands_iff : Stands object selections p t value ↔
    ∃ name, p.names.head? = some name ∧ Stands (holder ms record name) selections p t value := by
  constructor
  · intro stands
    obtain ⟨u, member, isField, head, moves⟩ := stands_first stands
    exact ⟨u.field, head, moves _ (completed u member isField).symm⟩
  · rintro ⟨name, head, stands⟩
    obtain ⟨u, member, isField, head', moves⟩ := stands_first stands
    obtain rfl : u.field = name := Option.some.inj (head'.symm.trans head)
    exact moves _ (completed u member isField)

theorem follow_holder (member : t ∈ selections) (isField : t.isTypename = false)
    (below : List Step) :
    follow (.object object) (.key t.field :: below) =
      follow (.object (holder ms record t.field)) (.key t.field :: below) :=
  follow_first (completed t member isField) below

theorem carried (member : t ∈ selections) (isField : t.isTypename = false) {below : List Step}
    {j : Json} (carries : follow (.object ms) (.key t.field :: below) = some j) :
    follow (.object object) (.key t.field :: below) = some j := by
  rw [completed.follow_holder member isField, holder_present, carries]
  cases absent : ms.get? t.field with
  | none => simp [follow, absent] at carries
  | some v => simp [Members.contains, absent]

/-- What the payload lacks and the record has is used just when it is below a field that the payload
lacks altogether. -/
theorem lacking (member : t ∈ selections) (isField : t.isTypename = false) {below : List Step}
    {j : Json} (lacks : follow (.object ms) (.key t.field :: below) = none)
    (has : follow (.object record) (.key t.field :: below) = some j) :
    follow (.object object) (.key t.field :: below) = some j ↔ ms.get? t.field = none := by
  rw [completed.follow_holder member isField, ← contains_false]
  cases present : ms.contains t.field with
  | true => simp [holder_present present, lacks]
  | false => simp [holder_absent present, has]

end Completed

theorem checkType_ok
    (typed : ms.held "__typename" = .null ∨ ms.held "__typename" = .string s.field.typeName) :
    checkType s.field ms = .ok () := by
  rw [checkType_held]
  rcases typed with null | named
  · rw [null]
  · rw [named]
    exact if_pos rfl

theorem representation_some (keyed : ∀ key ∈ s.field.keyFields, ms.held key ≠ .null) :
    ∃ known, representation s.field ms = some known := by
  rw [representation_held]
  generalize [("__typename", Json.string s.field.typeName)] = known
  generalize s.field.keyFields = keys at keyed
  induction keys generalizing known with
  | nil => exact ⟨known, rfl⟩
  | cons key keys ih =>
    rw [List.foldl_cons, Option.bind_some]
    cases held : ms.held key with
    | null => exact absurd held (keyed key List.mem_cons_self)
    | _ => exact ih _ fun key later => keyed key (List.mem_cons_of_mem _ later)

/-- A payload of the field's type with all its keys, for which a record is stored. The entity is
asked for when a first field is missing. The object that is shown has every first field from the
payload, or from the record when the payload lacks it, and so has everything below: whatever the
projection looks at, under the non-null rules too, stands where it stands in the one of the two that
has its first field. So what the payload carries is used, and what it lacks is taken from the record
just when its first field is missing. -/
theorem completes_first_fields (decoded : decode payload = .ok ms)
    (typed : ms.held "__typename" = .null ∨ ms.held "__typename" = .string s.field.typeName)
    (keyed : ∀ key ∈ s.field.keyFields, ms.held key ≠ .null)
    (stored : ∀ known, representation s.field ms = some known →
      r.find? s.field.typeName known = some record) :
    ((∃ wanted, start s true payload = .ok ⟨ms, some wanted⟩) ↔
      ∃ t ∈ s.operation.root.selections, t.isTypename = false ∧ ms.get? t.field = none) ∧
    ∃ object, shownObject s (some r.reply) payload = .ok object ∧
      Enforced s object (data s (some r.reply) payload) ∧
      (Resolver.ofSource (some r.source) s payload).outcome? =
        some (outcome (data s (some r.reply) payload)) ∧
      (∀ p t value, Stands object s.operation.root.selections p t value ↔
        ∃ name, p.names.head? = some name ∧
          Stands (holder ms record name) s.operation.root.selections p t value) ∧
      ∀ t ∈ s.operation.root.selections, t.isTypename = false → ∀ below j,
        (follow (.object ms) (.key t.field :: below) = some j →
          follow (.object object) (.key t.field :: below) = some j) ∧
        (follow (.object ms) (.key t.field :: below) = none →
          follow (.object record) (.key t.field :: below) = some j →
          (follow (.object object) (.key t.field :: below) = some j ↔ ms.get? t.field = none)) := by
  obtain ⟨known, represented⟩ := representation_some keyed
  have starts : start s true payload = .ok ⟨ms,
      if lacks ms s.operation.root.selections then
        some ⟨s.field.typeName, known, s.operation.root.selections⟩ else none⟩ := by
    rw [start_asked decoded, asked, checkType_ok typed, represented]
    rfl
  have shows_ : ∃ object, shownObject s (some r.reply) payload = .ok object ∧
      Completed s.operation.root.selections ms record object := by
    rw [shownObject, Option.isSome_some, starts]
    cases lacking : lacks ms s.operation.root.selections with
    | false => exact ⟨ms, rfl, completed_alone lacking⟩
    | true =>
      refine ⟨_, ?_, completed_complete⟩
      simp only [↓reduceIte, EntityRecords.reply, stored known represented, Except.map]
  obtain ⟨object, shown, completed⟩ := shows_
  refine ⟨?_, object, shown, ?_, ofSource_data fun _ => rfl, fun _ _ _ => completed.stands_iff, ?_⟩
  · rw [← lacks_iff, starts]
    cases lacks ms s.operation.root.selections <;> simp
  · rw [data_eq, shown]
    exact finish_enforced
  · intro t member isField below j
    exact ⟨completed.carried member isField, completed.lacking member isField⟩

def detailsSubscription : CompiledSubscription where
  operation := ⟨none, .object "employeeUpdated"
    [.leaf "id", .leaf "role", .object "details" [.leaf "forename", .leaf "surname"]], []⟩
  field := ⟨"employeeUpdated", "default", ["employeeUpdated"], "Employee", ["id"],
    ["details.surname"]⟩
  sourceKey := .ofTopics "default" ["employeeUpdated"]

def detailsPayload : List UInt8 :=
  "\x7b\"id\":1,\"details\":\x7b\"forename\":\"Jens\"\x7d\x7d".toUTF8.toList

def detailsObject : Members :=
  [("id", .ofNat 1), ("details", .object [("forename", .string "Jens")])]

def detailsRecord : Members :=
  [("id", .ofNat 1), ("role", .string "dev"),
    ("details", .object [("forename", .string "Jens"), ("surname", .string "Neuse")])]

def detailsRecords : EntityRecords := ⟨[("Employee", [detailsRecord])]⟩

theorem details_first_fields :
    decode detailsPayload = .ok detailsObject ∧
      ∃ object, shownObject detailsSubscription (some detailsRecords.reply)
        detailsPayload = .ok object ∧
        follow (.object object) [.key "role"] = some (.string "dev") ∧
        follow (.object detailsRecord) [.key "details", .key "surname"] = some (.string "Neuse") ∧
        follow (.object object) [.key "details", .key "surname"] ≠ some (.string "Neuse") ∧
        data detailsSubscription (some detailsRecords.reply) detailsPayload = .error (.resolution
          "Cannot return null for non-nullable field 'Subscription.employeeUpdated.details.surname'."
          [.string "employeeUpdated", .string "details", .string "surname"]) := by
  have decoded : decode detailsPayload = .ok detailsObject := by decide +kernel
  have stored : ∀ known, representation detailsSubscription.field detailsObject = some known →
      detailsRecords.find? detailsSubscription.field.typeName known = some detailsRecord := by
    intro known represented
    obtain rfl : known = [("__typename", .string "Employee"), ("id", .ofNat 1)] :=
      Option.some.inj (represented.symm.trans (by decide +kernel))
    decide +kernel
  obtain ⟨-, object, shown, -, -, -, reads⟩ :=
    completes_first_fields (s := detailsSubscription) (r := detailsRecords) decoded (.inl rfl)
      (by decide +kernel) stored
  have role := reads (.leaf "role") (.tail _ (.head _)) rfl [] (.string "dev")
  have details := reads (.object "details" [.leaf "forename", .leaf "surname"])
    (.tail _ (.tail _ (.head _))) rfl [.key "surname"] (.string "Neuse")
  refine ⟨decoded, object, shown, (role.2 rfl rfl).mpr rfl, rfl, fun taken => ?_, by decide +kernel⟩
  exact absurd ((details.2 rfl rfl).mp taken) (by decide +kernel)

end Resolution

end SubscriptionGateway
