import SubscriptionGateway.Proofs.GraphQL.Unambiguous
import SubscriptionGateway.Proofs.Json.Values
import SubscriptionGateway.Proofs.Resolution.NonNull

/-!
What a successful projection shows. `Shows` says it value by value, without any order of work: an
object has the keys of its selections in their order and no other, and under each key stands what
the selection shows of the field it names. Keys are given once because the selections of an
operation are unambiguous, so no member is written over.
-/
namespace SubscriptionGateway

namespace Projection

open Json

mutual

/-- What a selection shows of a value of the source. -/
inductive Shows : Selection → Json → Json → Prop where
  | null {t} : Shows t .null .null
  | leaf {t j} : t.selections = [] → j.isScalar = true → Shows t j j
  | list {t js shown} : js.length = shown.length →
      (∀ (i : Nat) (h : i < js.length) (h' : i < shown.length), Shows t js[i] shown[i]) →
      Shows t (.array js) (.array shown)
  | object {t source shown} : t.selections ≠ [] →
      ShowsAll (source.held "__typename") source t.selections shown →
      Shows t (.object source) (.object shown)

/-- What the selections of one level show of an object: their keys, each once and in order, the
type name where it is selected, and else what stands in the field that is named. -/
inductive ShowsAll : Json → Members → List Selection → Members → Prop where
  | level {typename source selections shown} :
      Members.keys shown = selections.map (·.key) →
      (Members.keys shown).Nodup →
      (∀ t ∈ selections, t.isTypename = true → Members.get? shown t.key = some typename) →
      (∀ t ∈ selections, t.isTypename = false → ∀ v, Members.get? shown t.key = some v →
        Shows t (Members.held source t.field) v) →
      ShowsAll typename source selections shown

end

variable {f : EventField}

structure Written (typename : Json) (source : Members) (t : Selection) (pair : String × Json) :
    Prop where
  key : pair.1 = t.key
  typename : t.isTypename = true → pair.2 = typename
  field : t.isTypename = false → Shows t (source.held t.field) pair.2

variable {typename : Json} {source : Members} {selections : List Selection}
  {pairs : List (String × Json)}

/-- One key has one selection and one pair, so what is found under it is what was written for it. -/
theorem get?_written (distinct : Selection.Distinct selections)
    (writes : List.Forall₂ (Written typename source) selections pairs) :
    ∀ t ∈ selections, ∃ v, Members.get? pairs t.key = some v ∧
      Written typename source t (t.key, v) := by
  induction writes with
  | nil => simp
  | @cons t pair selections pairs first _ ih =>
    obtain ⟨k, v⟩ := pair
    obtain rfl : k = t.key := first.key
    obtain ⟨fresh, distinct⟩ := List.nodup_cons.mp distinct
    rintro u (_ | ⟨_, later⟩)
    · exact ⟨v, if_pos rfl, first⟩
    · obtain ⟨w, found, written⟩ := ih distinct u later
      have differs : t.key ≠ u.key := fun same => fresh (List.mem_map.mpr ⟨u, later, same.symm⟩)
      exact ⟨w, (if_neg differs).trans found, written⟩

theorem keys_written (writes : List.Forall₂ (Written typename source) selections pairs) :
    Members.keys pairs = selections.map (·.key) := by
  induction writes with
  | nil => rfl
  | cons first _ ih => exact congrArg₂ List.cons first.key ih

theorem showsAll_of_writes (distinct : Selection.Distinct selections)
    (writes : List.Forall₂ (Written typename source) selections pairs) :
    ShowsAll typename source selections (Members.ofList pairs) := by
  have keys := keys_written writes
  have once : (Members.keys pairs).Nodup := keys ▸ distinct
  rw [Members.ofList_eq once]
  refine .level keys once ?_ ?_
  · intro t member isTypename
    obtain ⟨v, found, written⟩ := get?_written distinct writes t member
    exact found.trans (congrArg some (written.typename isTypename))
  · intro t member isField v found
    obtain ⟨w, found', written⟩ := get?_written distinct writes t member
    obtain rfl := Option.some.inj (found'.symm.trans found)
    exact written.field isField

section Values

variable {t : Selection} {object : Place → Members → Except Error Json}

mutual

theorem value_shows (objects : ∀ p source v, t.selections ≠ [] → object p source = .ok v →
      Shows t (.object source) v) :
    ∀ (p : Place) (j v : Json), value f t.selections.isEmpty object p j = .ok v → Shows t j v
  | p, .null, v, shown => by
    rw [value] at shown
    split at shown <;> cases shown
    exact .null
  | p, .array js, v, shown => by
    rw [value] at shown
    cases items_ : items f t.selections.isEmpty object p 0 js with
    | error e => rw [items_] at shown; cases shown
    | ok vs =>
      rw [items_] at shown
      cases shown
      obtain ⟨same, each⟩ := List.forall₂_iff_get.mp (items_show objects p 0 js vs items_)
      exact .list same each
  | p, .object ms, v, shown => by
    rw [value] at shown
    split at shown
    · cases shown
    · rename_i inner
      exact objects p ms v (by simpa using inner) shown
  | p, .bool b, v, shown => by
    rw [value] at shown
    split at shown <;> cases shown
    rename_i leaf
    exact .leaf (List.isEmpty_iff.mp leaf) rfl
  | p, .number n, v, shown => by
    rw [value] at shown
    split at shown <;> cases shown
    rename_i leaf
    exact .leaf (List.isEmpty_iff.mp leaf) rfl
  | p, .string text, v, shown => by
    rw [value] at shown
    split at shown <;> cases shown
    rename_i leaf
    exact .leaf (List.isEmpty_iff.mp leaf) rfl

theorem items_show (objects : ∀ p source v, t.selections ≠ [] → object p source = .ok v →
      Shows t (.object source) v) :
    ∀ (p : Place) (n : Nat)
      (js vs : List Json), items f t.selections.isEmpty object p n js = .ok vs →
      List.Forall₂ (Shows t) js vs
  | p, n, [], vs, shown => by
    cases shown
    exact .nil
  | p, n, j :: js, vs, shown => by
    rw [items] at shown
    split at shown
    · cases shown
    rename_i v first
    split at shown
    · cases shown
    rename_i rest others
    cases shown
    refine .cons ?_ (items_show objects p (n + 1) js rest others)
    split at first
    · rename_i null
      cases first
      cases j <;> cases null
      exact .null
    · exact value_shows objects (p.item n) j v first

end

end Values

mutual

theorem member_shows (isRoot : Bool) :
    ∀ (p : Place) (source : Members) (t : Selection) (v : Json),
      Selection.Unambiguous t.selections → member f isRoot p source t = .ok v →
      Written (if isRoot then .string f.typeName else source.held "__typename") source t (t.key, v)
  | p, source, ⟨key, name, selections⟩, v, unambiguous, shown => by
    rw [member] at shown
    split at shown
    · rename_i typename
      cases shown
      exact ⟨rfl, fun _ => rfl, fun isField => by simp [Selection.isTypename, typename] at isField⟩
    · rename_i other
      refine ⟨rfl, fun typename => absurd (by simpa [Selection.isTypename] using typename) other,
        fun _ => value_shows (t := ⟨key, name, selections⟩) ?_ _ _ v shown⟩
      intro p ms v inner written
      cases pairs_ : set f false p ms selections with
      | error e => rw [pairs_] at written; cases written
      | ok pairs =>
        rw [pairs_] at written
        cases written
        exact .object inner (showsAll_of_writes unambiguous.distinct
          (set_shows false p ms selections pairs unambiguous.inner pairs_))

theorem set_shows (isRoot : Bool) :
    ∀ (p : Place) (source : Members) (selections : List Selection) (pairs : List (String × Json)),
      (∀ t ∈ selections, Selection.Unambiguous t.selections) →
      set f isRoot p source selections = .ok pairs →
      List.Forall₂
        (Written (if isRoot then .string f.typeName else source.held "__typename") source)
        selections pairs
  | p, source, [], pairs, inner, shown => by
    cases shown
    exact .nil
  | p, source, ⟨key, name, selections⟩ :: rest, pairs, inner, shown => by
    rw [set] at shown
    split at shown
    · cases shown
    rename_i v first
    split at shown
    · cases shown
    rename_i more others
    cases shown
    exact .cons (member_shows isRoot p source _ v (inner _ List.mem_cons_self) first)
      (set_shows isRoot p source rest more (fun t later => inner t (List.mem_cons_of_mem _ later))
        others)

end

theorem root_shows {shown : Members} (unambiguous : Selection.Unambiguous selections)
    (done : root f source selections = .ok shown) :
    ShowsAll (.string f.typeName) source selections shown := by
  rw [root] at done
  cases pairs_ : set f true .root source selections with
  | error e => rw [pairs_] at done; cases done
  | ok pairs =>
    rw [pairs_] at done
    cases done
    exact showsAll_of_writes unambiguous.distinct
      (set_shows true .root source selections pairs unambiguous.inner pairs_)

end Projection

namespace Resolution

open Projection

variable {s : CompiledSubscription} {payload : List UInt8}
  {fetch : Option (EntityRequest → Except Fault (Option Json.Members))}

theorem get?_complete (ms : Json.Members) (entity : Option Json.Members) (name : String) :
    (complete ms entity).get? name = (ms.get? name).or ((entity.getD []).get? name) := by
  rw [complete]
  induction entity.getD [] generalizing ms with
  | nil => simp [Json.Members.get?]
  | cons m rest ih =>
    obtain ⟨k, v⟩ := m
    rw [List.foldl_cons, ih, Json.Members.get?_insertNew, Json.Members.get?]
    by_cases same : name = k
    · subst same
      cases ms.get? name <;> simp
    · rw [if_neg same, if_neg (Ne.symm same)]

/-- An entity completes the payload only as the answer to the request that the payload makes. -/
def Answered (s : CompiledSubscription)
    (fetch : Option (EntityRequest → Except Fault (Option Json.Members))) (payload : List UInt8)
    (entity : Json.Members) : Prop :=
  ∃ answers object wanted, fetch = some answers ∧
    start s true payload = .ok ⟨object, some wanted⟩ ∧ answers wanted = .ok (some entity)

theorem start_object {hasEntities : Bool} {started : Started}
    (starts : start s hasEntities payload = .ok started) : decode payload = .ok started.object := by
  rw [start] at starts
  split at starts
  · cases starts
  split at starts
  · cases starts
  rename_i object decoded _ _
  cases starts
  exact decoded

theorem shownObject_parts {source : Json.Members}
    (shown : shownObject s fetch payload = .ok source) :
    ∃ ms entity, decode payload = .ok ms ∧ source = complete ms entity ∧
      ∀ e, entity = some e → Answered s fetch payload e := by
  rw [shownObject] at shown
  split at shown
  · cases shown
  rename_i started starts
  split at shown
  · rename_i answers wanted wants
    cases answer : answers wanted with
    | error e => rw [answer] at shown; cases shown
    | ok entity =>
      rw [answer] at shown
      cases shown
      refine ⟨_, entity, start_object starts, rfl, ?_⟩
      rintro e rfl
      exact ⟨answers, started.object, wanted, rfl, wants ▸ starts, answer⟩
  · cases shown
    exact ⟨_, none, start_object starts, rfl, by simp⟩

theorem finish_ok {source : Json.Members} {d : Json} (done : finish s source = .ok d) :
    ∃ shown, root s.field source s.operation.root.selections = .ok shown ∧
      d = .object [(s.operation.root.key, .object shown)] := by
  rw [finish] at done
  split at done
  · cases done
  · rename_i shown projected
    cases done
    exact ⟨shown, projected, rfl⟩

/-- Data conforms to the selection: it has one member, under the response key, and this shows what
is selected of the payload as it is completed by the entity, level by level and nothing more. -/
theorem data_conforms {r : Request} {op : SubscriptionOperation}
    (accepted : SubscriptionOperation.ofRequest r = .ok op) (f : EventField) (key : SourceKey)
    (fetch : Option (EntityRequest → Except Fault (Option Json.Members))) (payload : List UInt8)
    (d : Json) (resolved : data ⟨op, f, key⟩ fetch payload = .ok d) :
    ∃ ms entity source shown, decode payload = .ok ms ∧
      (∀ e, entity = some e → Answered ⟨op, f, key⟩ fetch payload e) ∧
      (∀ name, source.get? name = (ms.get? name).or ((entity.getD []).get? name)) ∧
      d = .object [(op.responseKey, .object shown)] ∧
      ShowsAll (.string f.typeName) source op.root.selections shown := by
  rw [data_eq] at resolved
  cases object : shownObject ⟨op, f, key⟩ fetch payload with
  | error fault => rw [object] at resolved; cases resolved
  | ok source =>
    rw [object] at resolved
    obtain ⟨ms, entity, decoded, rfl, answered⟩ := shownObject_parts object
    obtain ⟨shown, projected, rfl⟩ := finish_ok resolved
    exact ⟨ms, entity, _, shown, decoded, answered, get?_complete ms entity, rfl,
      root_shows (operation_unambiguous accepted) projected⟩

def profileRequest : Request where
  query := "subscription \x7b e: employeeUpdated \x7b " ++
    "__typename key: id ...F tags \x7b name \x7d role \x7d \x7d " ++
    "fragment F on Employee \x7b tags \x7b __typename name \x7d \x7d"
  operationName? := none
  variables? := none

def profileOperation : SubscriptionOperation where
  name? := none
  root := ⟨"e", "employeeUpdated", [.leaf "__typename", ⟨"key", "id", []⟩,
    .object "tags" [.leaf "__typename", .leaf "name"], .leaf "role"]⟩
  arguments := .nil

def profilePayload : List UInt8 :=
  "\x7b\"id\":5,\"tags\":[\x7b\"name\":\"a\",\"x\":1\x7d,null,[]],\"extra\":true\x7d".toUTF8.toList

def profileFetch : Option (EntityRequest → Except Fault (Option Json.Members)) :=
  some fun _ => .ok (some [("id", .ofNat 6), ("role", .string "dev")])

def profileData : Json :=
  .object [("e", .object [("__typename", .string "Employee"), ("key", .ofNat 5),
    ("tags", .array [.object [("__typename", .null), ("name", .string "a")], .null, .array []]),
    ("role", .string "dev")])]

def profileSubscription : CompiledSubscription :=
  ⟨profileOperation, tagSubscription.field, tagSubscription.sourceKey⟩

theorem profile_conforms :
    SubscriptionOperation.ofRequest profileRequest = .ok profileOperation ∧
      ∃ source shown,
        data profileSubscription profileFetch profilePayload = .ok profileData ∧
        profileData = .object [("e", .object shown)] ∧
        ShowsAll (.string "Employee") source profileOperation.root.selections shown := by
  have accepted : SubscriptionOperation.ofRequest profileRequest = .ok profileOperation := by cbv
  have resolved : data profileSubscription profileFetch profilePayload = .ok profileData := by
    decide +kernel
  obtain ⟨_, _, source, shown, -, -, -, same, shows_⟩ :=
    data_conforms accepted tagSubscription.field tagSubscription.sourceKey profileFetch
      profilePayload profileData resolved
  exact ⟨accepted, source, shown, resolved, same, shows_⟩

end Resolution

end SubscriptionGateway
