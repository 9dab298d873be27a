import SubscriptionGateway.Entity.Resolver
import SubscriptionGateway.Proofs.Resolution.Walk

/-!
Non-null rules are enforced exactly. The projection stops with the fault of the first value of the
walk that has one, so data is made only when no value has, and a client is told of null just when
null where it may not stand comes first.
-/
namespace SubscriptionGateway

namespace Projection

def refusal {α : Type} : Except Error α → Option Error
  | .error e => some e
  | .ok _ => none

def firstFault (f : EventField) (vs : List Visit) : Option Error := vs.findSome? (·.fault? f)

variable {f : EventField} {v : Visit} {vs : List Visit}

@[simp] theorem refusal_map {α β : Type} (g : α → β) (r : Except Error α) :
    refusal (r.map g) = refusal r := by
  cases r <;> rfl

theorem firstFault_append (vs ws : List Visit) :
    firstFault f (vs ++ ws) = (firstFault f vs).or (firstFault f ws) :=
  List.findSome?_append

theorem firstFault_walk (v : Visit) :
    firstFault f v.walk = (v.fault? f).or (firstFault f (v.children.flatMap Visit.walk)) := by
  rw [Visit.walk_eq, ← List.singleton_append, firstFault_append]
  simp [firstFault]

/-! ## The projection and the walk -/

section Values

variable {s : Selection} {object : Place → Json.Members → Except Error Json}

theorem items_cons (isLeaf : Bool) (p : Place) (n : Nat) (j : Json) (js : List Json) :
    refusal (items f isLeaf object p n (j :: js)) =
      (refusal (if j.isNull then .ok .null else value f isLeaf object (p.item n) j)).or
        (refusal (items f isLeaf object p (n + 1) js)) := by
  rw [items]
  generalize (if j.isNull then .ok .null else value f isLeaf object (p.item n) j) = first
  generalize items f isLeaf object p (n + 1) js = rest
  cases first <;> cases rest <;> rfl

mutual

theorem value_refusal (objects : ∀ p ms, refusal (object p ms) =
      firstFault f ((fields p ms s.selections).flatMap Visit.walk)) :
    ∀ (p : Place) (j : Json), refusal (value f s.selections.isEmpty object p j) =
      firstFault f (Visit.walk ⟨p, s, some j⟩)
  | p, .null => by
    rw [firstFault_walk, value]
    simp only [Visit.fault?, Visit.children]
    split <;> rfl
  | p, .array js => by
    rw [firstFault_walk, value, refusal_map, items_refusal objects p 0 js]
    rfl
  | p, .object ms => by
    rw [firstFault_walk, value]
    simp only [Visit.fault?, Visit.children]
    split
    · rfl
    · exact objects p ms
  | p, .bool b => by
    rw [firstFault_walk, value]
    simp only [Visit.fault?, Visit.children]
    split <;> rfl
  | p, .number n => by
    rw [firstFault_walk, value]
    simp only [Visit.fault?, Visit.children]
    split <;> rfl
  | p, .string text => by
    rw [firstFault_walk, value]
    simp only [Visit.fault?, Visit.children]
    split <;> rfl

theorem items_refusal (objects : ∀ p ms, refusal (object p ms) =
      firstFault f ((fields p ms s.selections).flatMap Visit.walk)) :
    ∀ (p : Place) (n : Nat) (js : List Json), refusal (items f s.selections.isEmpty object p n js) =
      firstFault f ((itemsFrom p s n js).flatMap Visit.walk)
  | p, n, [] => rfl
  | p, n, j :: js => by
    have first := value_refusal objects (p.item n) j
    have rest := items_refusal objects p (n + 1) js
    rw [items_cons, itemsFrom, rest]
    cases null : j.isNull with
    | true => rfl
    | false =>
      simp only [Bool.false_eq_true, ↓reduceIte, List.flatMap_cons, firstFault_append, first]

end

end Values

theorem absent_refusal (p : Place) (s : Selection) (value : Option Json) :
    firstFault f (Visit.walk ⟨p, s, some (value.getD .null)⟩) =
      firstFault f (Visit.walk ⟨p, s, value⟩) := by
  cases value with
  | some j => rfl
  | none => simp only [firstFault_walk, Visit.children, Visit.fault?, Option.getD_none]

theorem set_cons (isRoot : Bool) (p : Place) (source : Json.Members) (s : Selection)
    (rest : List Selection) :
    refusal (set f isRoot p source (s :: rest)) =
      (refusal (member f isRoot p source s)).or (refusal (set f isRoot p source rest)) := by
  obtain ⟨key, name, selections⟩ := s
  rw [set]
  generalize member f isRoot p source ⟨key, name, selections⟩ = first
  generalize set f isRoot p source rest = others
  cases first <;> cases others <;> rfl

mutual

theorem member_refusal (isRoot : Bool) (source : Json.Members) :
    ∀ (p : Place) (s : Selection), refusal (member f isRoot p source s) =
      if s.isTypename then none else firstFault f (Visit.walk ⟨p.field s, s, source.get? s.field⟩)
  | p, ⟨key, name, selections⟩ => by
    rw [member]
    by_cases typename : name = "__typename"
    · simp [typename, Selection.isTypename, refusal]
    · have below (p : Place) (ms : Json.Members) :
          refusal ((set f false p ms selections).map fun ms =>
            Json.object (Json.Members.ofList ms)) =
            firstFault f ((fields p ms selections).flatMap Visit.walk) := by
        rw [refusal_map]
        exact set_refusal false ms p selections
      have shown := value_refusal (s := ⟨key, name, selections⟩) below
      rw [if_neg typename, shown, absent_refusal]
      simp [Selection.isTypename, typename]

theorem set_refusal (isRoot : Bool) (source : Json.Members) :
    ∀ (p : Place) (selections : List Selection), refusal (set f isRoot p source selections) =
      firstFault f ((fields p source selections).flatMap Visit.walk)
  | p, [] => rfl
  | p, ⟨key, name, selections⟩ :: rest => by
    have first := member_refusal isRoot source p ⟨key, name, selections⟩
    have others := set_refusal isRoot source p rest
    rw [set_cons, first, others]
    cases typename : Selection.isTypename ⟨key, name, selections⟩ with
    | true => simp [fields, typename]
    | false => simp [fields, typename, firstFault_append]

end

theorem root_refusal (source : Json.Members) (selections : List Selection) :
    refusal (root f source selections) = firstFault f (walk source selections) := by
  rw [root, refusal_map]
  exact set_refusal true source .root selections

theorem firstFault_find (vs : List Visit) :
    firstFault f vs = (vs.find? (·.fails f)).bind (·.fault? f) := by
  induction vs with
  | nil => rfl
  | cons v vs ih =>
    cases fault : v.fault? f with
    | none => simpa [firstFault, Visit.fails, fault] using ih
    | some e => simp [firstFault, Visit.fails, fault]

theorem refused_iff : v.Refused f ↔ v.fault? f = some (.nullNotAllowed v.place) := by
  obtain ⟨p, s, value⟩ := v
  simp only [Visit.Refused, ← isNonNull_iff, Visit.fault?]
  split
  · simp
  · simp
  · simp
  · simp
  · rename_i other _ _
    simpa using fun _ => other

theorem fault_resolution {r : Selection} {text : String} {path : List Json} {e : Error}
    (fault : v.fault? f = some e) (told : e.fault r = .resolution text path) :
    v.Refused f := by
  rw [refused_iff, fault]
  obtain ⟨p, s, value⟩ := v
  simp only [Visit.fault?] at fault
  split at fault
  · split at fault <;> cases fault
    rfl
  · split at fault <;> cases fault
    rfl
  · cases fault
  · split at fault <;> cases fault
    cases told
  · split at fault <;> cases fault
    cases told

end Projection

namespace Resolution

open Projection

def shownObject (s : CompiledSubscription)
    (fetch : Option (EntityRequest → Except Fault (Option Json.Members))) (payload : List UInt8) :
    Except Fault Json.Members :=
  match start s fetch.isSome payload with
  | .error e => .error e
  | .ok started =>
    match fetch, started.wanted with
    | some fetch, some wanted => (fetch wanted).map (complete started.object)
    | _, _ => .ok started.object

variable {s : CompiledSubscription} {payload : List UInt8} {object : Json.Members} {fault : Fault}
  {fetch : Option (EntityRequest → Except Fault (Option Json.Members))}

theorem data_eq : data s fetch payload = (shownObject s fetch payload).bind (finish s) := by
  rw [data, shownObject]
  cases start s fetch.isSome payload with
  | error e => rfl
  | ok started =>
    cases fetch with
    | none => rfl
    | some answers =>
      cases wants : started.wanted with
      | none => simp only [wants]; rfl
      | some wanted => simp only [wants]; cases answers wanted <;> rfl

theorem ofSource_data {source : EntitySource}
    {answers : EntityRequest → Except Fault (Option Json.Members)}
    (answered : ∀ q, (source q).answer? = some (answers q)) :
    (Resolver.ofSource (some source) s payload).outcome? =
      some (outcome (data s (some answers) payload)) := by
  rw [Resolver.ofSource, data, Option.isSome_some, Option.isSome_some]
  cases start s true payload with
  | error e => rfl
  | ok started =>
    obtain ⟨object, wanted⟩ := started
    cases wanted with
    | none => rfl
    | some wanted =>
      cases answer : answers wanted <;> simp [Resolver.completed, answered, answer]

theorem start_fault {hasEntities : Bool} (stops : start s hasEntities payload = .error fault) :
    ∃ detail, fault = .decode detail := by
  rw [start] at stops
  split at stops
  · rename_i undecoded
    cases stops
    rw [decode] at undecoded
    split at undecoded <;> cases undecoded <;> exact ⟨_, rfl⟩
  split at stops
  · rename_i mistyped
    cases stops
    rw [checkType] at mistyped
    split at mistyped
    · cases mistyped
    · cases mistyped
    · split at mistyped <;> cases mistyped
      exact ⟨_, rfl⟩
    · cases mistyped
      exact ⟨_, rfl⟩
  · cases stops

theorem shownObject_fault (unshown : shownObject s fetch payload = .error fault) :
    (∃ detail, fault = .decode detail) ∨
      ∃ answers wanted, fetch = some answers ∧ answers wanted = .error fault := by
  rw [shownObject] at unshown
  split at unshown
  · rename_i stops
    cases unshown
    exact .inl (start_fault stops)
  split at unshown
  · rename_i answers wanted _ _
    cases answer : answers wanted with
    | error e =>
      rw [answer] at unshown
      cases unshown
      exact .inr ⟨answers, wanted, rfl, answer⟩
    | ok entity =>
      rw [answer] at unshown
      cases unshown
  · cases unshown

/-- The entity source leaves the faults of resolution to the resolver. -/
def Reserved (fetch : Option (EntityRequest → Except Fault (Option Json.Members))) : Prop :=
  ∀ answers wanted text path, fetch = some answers →
    answers wanted ≠ .error (.resolution text path)

theorem reserved_none : Reserved none := by
  intro answers wanted text path absent
  cases absent

theorem reserved_records (r : EntityRecords) :
    Reserved (some fun wanted => .ok (r.find? wanted.typeName wanted.representation)) := by
  rintro answers wanted text path ⟨⟩ failed
  cases failed

theorem entity_fault {x : Subgraph.Exchange} (failed : Subgraph.entity x = .error fault) :
    ∃ detail, fault = .fatal detail := by
  cases x with
  | refused => cases failed; exact ⟨_, rfl⟩
  | timedOut => cases failed; exact ⟨_, rfl⟩
  | answered status body =>
    rw [Subgraph.entity] at failed
    split at failed
    · cases failed
      exact ⟨_, rfl⟩
    rw [Subgraph.read] at failed
    split at failed <;> cases failed <;> exact ⟨_, rfl⟩

theorem reserved_subgraph (exchange : EntityRequest → Subgraph.Exchange) :
    Reserved (some fun wanted => Subgraph.entity (exchange wanted)) := by
  rintro answers wanted text path ⟨⟩ failed
  obtain ⟨detail, other⟩ := entity_fault failed
  cases other

def firstFailing (s : CompiledSubscription) (object : Json.Members) : Option Visit :=
  (walk object s.operation.root.selections).find? (·.fails s.field)

theorem finish_failing {v : Visit} (first : firstFailing s object = some v) :
    ∃ e, v.fault? s.field = some e ∧ finish s object = .error (e.fault s.operation.root) := by
  have fails : v.fails s.field = true := List.find?_some first
  obtain ⟨e, fault⟩ := Option.isSome_iff_exists.mp fails
  have refuses := root_refusal (f := s.field) object s.operation.root.selections
  rw [firstFault_find, ← firstFailing, first, Option.bind_some, fault] at refuses
  refine ⟨e, fault, ?_⟩
  rw [finish]
  cases shown : root s.field object s.operation.root.selections with
  | error e' =>
    rw [shown] at refuses
    cases refuses
    rfl
  | ok ms =>
    rw [shown] at refuses
    cases refuses

theorem finish_shown (none : firstFailing s object = none) : ∃ d, finish s object = .ok d := by
  have refuses := root_refusal (f := s.field) object s.operation.root.selections
  rw [firstFault_find, ← firstFailing, none, Option.bind_none] at refuses
  rw [finish]
  cases shown : root s.field object s.operation.root.selections with
  | error e' =>
    rw [shown] at refuses
    cases refuses
  | ok ms => exact ⟨_, rfl⟩

/-- What becomes of an object that is shown under the non-null rules of its field. -/
structure Enforced (s : CompiledSubscription) (object : Json.Members)
    (result : Except Fault Json) : Prop where
  /-- Data has no null at a field where it may not stand. -/
  sound : ∀ d, result = .ok d → ∀ p t value,
    Stands object s.operation.root.selections p t value → NonNull s.field p.names →
      value = none ∨ value = some .null → p.IsItem
  /-- Null where it may not stand is told when it fails first, with the path that leads to it. -/
  told : ∀ v, firstFailing s object = some v → v.Refused s.field →
    result = .error (.resolution
      s!"Cannot return null for non-nullable field 'Subscription.{s.operation.root.field}.{EventField.dotted v.place.names}'."
      (.string s.operation.root.key :: v.place.steps.map Step.json)) ∧
    Stands object s.operation.root.selections v.place v.selection v.value ∧
    follow (.object object) v.place.route = v.value
  only : ∀ text path, result = .error (.resolution text path) →
    ∃ v, firstFailing s object = some v ∧ v.Refused s.field
  complete : firstFailing s object = none → ∃ d, result = .ok d

theorem finish_enforced : Enforced s object (finish s object) where
  sound := by
    intro d done p t value stands nonNull null
    rcases visited_of_stands stands with ⟨-, item⟩ | visited
    · exact item
    have refused : Visit.Refused s.field ⟨p, t, value⟩ := ⟨nonNull, null⟩
    cases first : firstFailing s object with
    | some v =>
      obtain ⟨e, -, stops⟩ := finish_failing first
      rw [done] at stops
      cases stops
    | none =>
      have passes := List.find?_eq_none.mp first _ visited
      simp [Visit.fails, refused_iff.mp refused] at passes
  told := by
    intro v first refused
    obtain ⟨e, fault, stops⟩ := finish_failing first
    have stands := stands_of_visited (List.mem_of_find?_eq_some first)
    rw [refused_iff.mp refused] at fault
    cases fault
    exact ⟨stops, stands, (stands_follow stands).2⟩
  only := by
    intro text path told
    cases first : firstFailing s object with
    | some v =>
      obtain ⟨e, fault, stops⟩ := finish_failing first
      rw [told] at stops
      exact ⟨v, rfl, fault_resolution fault (Except.error.inj stops).symm⟩
    | none =>
      obtain ⟨d, done⟩ := finish_shown first
      rw [told] at done
      cases done
  complete := finish_shown

theorem data_enforced (shown : shownObject s fetch payload = .ok object) :
    Enforced s object (data s fetch payload) := by
  rw [data_eq, shown]
  exact finish_enforced

/-- A fault of resolution is made by the resolver alone, for null that fails first. -/
theorem told_refused {text : String} {path : List Json} (reserved : Reserved fetch)
    (told : data s fetch payload = .error (.resolution text path)) :
    ∃ object v, shownObject s fetch payload = .ok object ∧
      firstFailing s object = some v ∧ v.Refused s.field := by
  cases shown : shownObject s fetch payload with
  | ok object =>
    obtain ⟨v, first, refused⟩ := (data_enforced shown).only text path told
    exact ⟨object, v, rfl, first, refused⟩
  | error fault =>
    rw [data_eq, shown] at told
    cases told
    obtain ⟨_, decoding⟩ | ⟨answers, wanted, asked, answer⟩ := shownObject_fault shown
    · cases decoding
    · exact absurd answer (reserved answers wanted text path asked)

/-- The rules are enforced on every object that is shown. Where there is none, the fault is one of
decoding or the one with which the entity source has answered. So null where it may not stand is
the only cause of a fault of resolution, unless the source has made it. -/
theorem non_null_exact (s : CompiledSubscription)
    (fetch : Option (EntityRequest → Except Fault (Option Json.Members))) (payload : List UInt8) :
    (∀ object, shownObject s fetch payload = .ok object →
      Enforced s object (data s fetch payload)) ∧
    (∀ fault, shownObject s fetch payload = .error fault → data s fetch payload = .error fault ∧
      ((∃ detail, fault = .decode detail) ∨
        ∃ answers wanted, fetch = some answers ∧ answers wanted = .error fault)) ∧
    (Reserved fetch → ∀ text path, data s fetch payload = .error (.resolution text path) →
      ∃ object v, shownObject s fetch payload = .ok object ∧
        firstFailing s object = some v ∧ v.Refused s.field) := by
  refine ⟨fun object shown => data_enforced shown, ?_, fun reserved text path told =>
    told_refused reserved told⟩
  intro fault unshown
  rw [data_eq, unshown]
  exact ⟨rfl, shownObject_fault unshown⟩

/-- Without an entity source, with records and with a subgraph of whatever answers a fault of
resolution tells of null where it may not stand. -/
theorem own_sources_refused {text : String} {path : List Json} (records : EntityRecords)
    (exchange : EntityRequest → Subgraph.Exchange)
    (own : fetch ∈ [none, some fun wanted =>
        .ok (records.find? wanted.typeName wanted.representation),
      some fun wanted => Subgraph.entity (exchange wanted)])
    (told : data s fetch payload = .error (.resolution text path)) :
    ∃ object v, shownObject s fetch payload = .ok object ∧
      firstFailing s object = some v ∧ v.Refused s.field := by
  refine told_refused ?_ told
  simp only [List.mem_cons, List.not_mem_nil, or_false] at own
  obtain rfl | rfl | rfl := own
  · exact reserved_none
  · exact reserved_records records
  · exact reserved_subgraph exchange

def tagSelections : List Selection := [.leaf "id", .object "tags" [⟨"label", "name", []⟩]]

def tagSubscription : CompiledSubscription where
  operation := ⟨none, .object "employeeUpdated" tagSelections, []⟩
  field := ⟨"employeeUpdated", "default", ["employeeUpdated"], "Employee", ["id"], ["tags.name"]⟩
  sourceKey := .ofTopics "default" ["employeeUpdated"]

def tagPayload : List UInt8 :=
  "\x7b\"id\":5,\"tags\":[\x7b\"name\":\"a\"\x7d,null,\x7b\"other\":1\x7d]\x7d".toUTF8.toList

def tagText : String :=
  "Cannot return null for non-nullable field 'Subscription.employeeUpdated.tags.name'."

def tagPath : List Json := [.string "employeeUpdated", .string "tags", .ofNat 2, .string "label"]

def tagFault : Except Fault Json → Bool
  | .error (.resolution text path) => text == tagText && Json.sameItems path tagPath
  | _ => false

theorem tagFault_told {result : Except Fault Json} (runs : tagFault result = true) :
    ∃ path, result = .error (.resolution tagText path) ∧ Json.sameItems path tagPath = true := by
  cases result with
  | ok d => cases runs
  | error fault =>
    cases fault with
    | resolution text path =>
      obtain ⟨rfl, same⟩ : text = tagText ∧ Json.sameItems path tagPath = true := by
        simpa [tagFault] using runs
      exact ⟨path, rfl, same⟩
    | _ => cases runs

theorem tags_non_null :
    ∃ object v path, shownObject tagSubscription none tagPayload = .ok object ∧
      firstFailing tagSubscription object = some v ∧ v.Refused tagSubscription.field ∧
      follow (.object object) v.place.route = v.value ∧
      data tagSubscription none tagPayload = .error (.resolution tagText path) ∧
      Json.sameItems path tagPath = true := by
  have runs : tagFault (data tagSubscription none tagPayload) = true := by decide +kernel
  obtain ⟨path, result, same⟩ := tagFault_told runs
  obtain ⟨enforces, -, only⟩ := non_null_exact tagSubscription none tagPayload
  obtain ⟨object, v, shown, first, refused⟩ := only reserved_none tagText path result
  obtain ⟨-, -, follows⟩ := (enforces object shown).told v first refused
  exact ⟨object, v, path, shown, first, refused, follows, result, same⟩

end Resolution

end SubscriptionGateway
