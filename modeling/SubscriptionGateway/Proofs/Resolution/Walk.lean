import SubscriptionGateway.Resolution.Projection

/-!
The walk of a projection: every value that is selected, depth first, fields in the order of their
selections and items in the order of the list. Each value is looked at by itself here, and the
projection fails just as the first value of the walk does that cannot be shown.
-/
namespace SubscriptionGateway

namespace Projection

structure Visit where
  place : Place
  selection : Selection
  /-- None when the field is absent. -/
  value : Option Json

/-- Where null may not stand: at a key of the entity and at the listed paths. -/
def NonNull (f : EventField) (names : List String) : Prop :=
  (∃ key ∈ f.keyFields, names = [key]) ∨ EventField.dotted names ∈ f.nonNullFields

theorem isNonNull_iff (f : EventField) (names : List String) :
    f.isNonNull names = true ↔ NonNull f names := by
  simp only [EventField.isNonNull, NonNull, Bool.or_eq_true, List.contains_iff_mem]
  refine or_congr_left ?_
  split
  · simp
  · rename_i other
    simp only [Bool.false_eq_true, false_iff, not_exists, not_and]
    rintro key - rfl
    exact other key rfl

namespace Visit

def Refused (f : EventField) (v : Visit) : Prop :=
  NonNull f v.place.names ∧ (v.value = none ∨ v.value = some .null)

def fault? (f : EventField) (v : Visit) : Option Error :=
  match v.value with
  | none | some .null => if f.isNonNull v.place.names then some (.nullNotAllowed v.place) else none
  | some (.array _) => none
  | some (.object _) =>
    if v.selection.selections.isEmpty then some (.objectAsScalar v.place) else none
  | some j =>
    if v.selection.selections.isEmpty then none else some (.scalarAsObject v.place j.kind)

def fails (f : EventField) (v : Visit) : Bool := (v.fault? f).isSome

end Visit

def fields (p : Place) (source : Json.Members) (selections : List Selection) : List Visit :=
  (selections.filter fun s => !s.isTypename).map fun s => ⟨p.field s, s, source.get? s.field⟩

/-- The items of a list from one on; null is passed over. -/
def itemsFrom (p : Place) (s : Selection) : Nat → List Json → List Visit
  | _, [] => []
  | n, j :: js =>
    if j.isNull then itemsFrom p s (n + 1) js
    else ⟨p.item n, s, some j⟩ :: itemsFrom p s (n + 1) js

namespace Visit

def children (v : Visit) : List Visit :=
  match v.value with
  | some (.array js) => itemsFrom v.place v.selection 0 js
  | some (.object ms) => fields v.place ms v.selection.selections
  | _ => []

theorem item_smaller {p : Place} {s : Selection} {js : List Json} {n : Nat} {w : Visit}
    (child : w ∈ itemsFrom p s n js) : sizeOf w.value < sizeOf (some (Json.array js)) := by
  have smaller : sizeOf w.value < 1 + sizeOf js := by
    induction js generalizing n with
    | nil => cases child
    | cons j js ih =>
      rw [itemsFrom] at child
      simp only [List.cons.sizeOf_spec]
      split at child
      · have := ih child
        omega
      · rcases List.mem_cons.mp child with rfl | later
        · simp only [Option.some.sizeOf_spec]
          omega
        · have := ih later
          omega
  simp only [Option.some.sizeOf_spec, Json.array.sizeOf_spec]
  omega

theorem member_smaller {ms : Json.Members} {name : String} :
    sizeOf (ms.get? name) < sizeOf (some (Json.object ms)) := by
  have smaller : sizeOf (ms.get? name) ≤ 1 + sizeOf ms := by
    induction ms with
    | nil => simp [Json.Members.get?]
    | cons m rest ih =>
      obtain ⟨key, value⟩ := m
      rw [Json.Members.get?]
      split
      · simp only [Option.some.sizeOf_spec, List.cons.sizeOf_spec, Prod.mk.sizeOf_spec]
        omega
      · simp only [List.cons.sizeOf_spec]
        omega
  simp only [Option.some.sizeOf_spec, Json.object.sizeOf_spec]
  omega

theorem child_smaller {v w : Visit} (child : w ∈ v.children) :
    sizeOf w.value < sizeOf v.value := by
  obtain ⟨p, s, value⟩ := v
  cases value with
  | none => cases child
  | some j =>
    cases j with
    | array js => exact item_smaller child
    | object ms =>
      obtain ⟨t, -, rfl⟩ := List.mem_map.mp child
      exact member_smaller
    | _ => cases child

def walk (v : Visit) : List Visit := v :: v.children.attach.flatMap fun w => walk w.1
termination_by sizeOf v.value
decreasing_by exact child_smaller w.2

theorem walk_eq (v : Visit) : v.walk = v :: v.children.flatMap walk := by
  rw [walk, List.flatMap_subtype (g := walk) (fun _ _ => rfl), List.unattach_attach]

end Visit

def walk (source : Json.Members) (selections : List Selection) : List Visit :=
  (fields .root source selections).flatMap Visit.walk

/-! ## What is visited -/

/-- A value that stands at a place of what the selections come to. -/
inductive Stands (source : Json.Members) (selections : List Selection) :
    Place → Selection → Option Json → Prop where
  | top {s} : s ∈ selections → s.isTypename = false →
      Stands source selections (Place.root.field s) s (source.get? s.field)
  | item {p s js n j} : Stands source selections p s (some (.array js)) → js[n]? = some j →
      Stands source selections (p.item n) s (some j)
  | inside {p s ms t} : Stands source selections p s (some (.object ms)) →
      t ∈ s.selections → t.isTypename = false →
      Stands source selections (p.field t) t (Json.Members.get? ms t.field)

def Place.IsItem (p : Place) : Prop := ∃ list n, p = Place.item list n

variable {source ms : Json.Members} {selections : List Selection} {v w u : Visit} {p : Place}
  {s t : Selection} {value : Option Json} {js : List Json} {j : Json} {n : Nat}

theorem mem_fields : w ∈ fields p ms selections ↔
    ∃ t ∈ selections, t.isTypename = false ∧ w = ⟨p.field t, t, ms.get? t.field⟩ := by
  simp only [fields, List.mem_map, List.mem_filter, Bool.not_eq_true', and_assoc]
  exact exists_congr fun t => and_congr_right fun _ => and_congr_right fun _ => eq_comm

theorem mem_itemsFrom : w ∈ itemsFrom p s n js ↔
    ∃ m j, js[m]? = some j ∧ j.isNull = false ∧ w = ⟨p.item (n + m), s, some j⟩ := by
  induction js generalizing n with
  | nil => simp [itemsFrom]
  | cons j js ih =>
    have shift : (∃ m i, js[m]? = some i ∧ i.isNull = false ∧ w = ⟨p.item (n + 1 + m), s, some i⟩) ↔
        ∃ m i, (j :: js)[m + 1]? = some i ∧ i.isNull = false ∧
          w = ⟨p.item (n + (m + 1)), s, some i⟩ := by
      simp only [List.getElem?_cons_succ, Nat.add_comm, Nat.add_left_comm]
    rw [itemsFrom]
    split
    · rename_i null
      rw [ih, shift]
      constructor
      · rintro ⟨m, i, rest⟩
        exact ⟨m + 1, i, rest⟩
      · rintro ⟨m, i, read, value, same⟩
        cases m with
        | zero =>
          obtain rfl : j = i := by simpa using read
          simp [null] at value
        | succ m => exact ⟨m, i, read, value, same⟩
    · rename_i value
      rw [List.mem_cons, ih, shift]
      constructor
      · rintro (rfl | ⟨m, i, rest⟩)
        · exact ⟨0, j, rfl, by simpa using value, rfl⟩
        · exact ⟨m + 1, i, rest⟩
      · rintro ⟨m, i, read, value, same⟩
        cases m with
        | zero =>
          obtain rfl : j = i := by simpa using read
          exact .inl same
        | succ m => exact .inr ⟨m, i, read, value, same⟩

theorem stands_child (stands : Stands source selections v.place v.selection v.value)
    (child : w ∈ v.children) : Stands source selections w.place w.selection w.value := by
  obtain ⟨p, s, value⟩ := v
  cases value with
  | none => cases child
  | some j =>
    cases j with
    | array js =>
      obtain ⟨m, j, read, -, rfl⟩ := mem_itemsFrom.mp child
      exact .item stands (by simpa using read)
    | object ms =>
      obtain ⟨t, member, named, rfl⟩ := mem_fields.mp child
      exact .inside stands member named
    | _ => cases child

theorem stands_walk (stands : Stands source selections v.place v.selection v.value)
    (visited : w ∈ v.walk) : Stands source selections w.place w.selection w.value := by
  induction v using Visit.walk.induct with
  | case1 v ih =>
    rw [Visit.walk_eq] at visited
    rcases List.mem_cons.mp visited with rfl | later
    · exact stands
    · obtain ⟨u, child, within⟩ := List.mem_flatMap.mp later
      exact ih ⟨u, child⟩ (stands_child stands child) within

theorem stands_of_visited (visited : v ∈ walk source selections) :
    Stands source selections v.place v.selection v.value := by
  obtain ⟨u, first, within⟩ := List.mem_flatMap.mp visited
  obtain ⟨t, member, named, rfl⟩ := mem_fields.mp first
  exact stands_walk (.top member named) within

theorem child_walk (visited : v ∈ u.walk) (child : w ∈ v.children) : w ∈ u.walk := by
  induction u using Visit.walk.induct with
  | case1 u ih =>
    rw [Visit.walk_eq] at visited ⊢
    refine List.mem_cons_of_mem _ (List.mem_flatMap.mpr ?_)
    rcases List.mem_cons.mp visited with rfl | later
    · refine ⟨w, child, ?_⟩
      rw [Visit.walk_eq]
      exact List.mem_cons_self
    · obtain ⟨first, among, within⟩ := List.mem_flatMap.mp later
      exact ⟨first, among, ih ⟨first, among⟩ within⟩

theorem child_visited (visited : v ∈ walk source selections) (child : w ∈ v.children) :
    w ∈ walk source selections := by
  obtain ⟨u, first, within⟩ := List.mem_flatMap.mp visited
  exact List.mem_flatMap.mpr ⟨u, first, child_walk within child⟩

/-- The walk comes to every value but the null items of lists. -/
theorem visited_of_stands (stands : Stands source selections p s value) :
    (value = some .null ∧ p.IsItem) ∨ ⟨p, s, value⟩ ∈ walk source selections := by
  -- A null item has nothing below it, so whatever is further down hangs on a value visited.
  induction stands with
  | @top s member named =>
    refine .inr (List.mem_flatMap.mpr ⟨_, mem_fields.mpr ⟨s, member, named, rfl⟩, ?_⟩)
    rw [Visit.walk_eq]
    exact List.mem_cons_self
  | @item p s js n j _ read ih =>
    rcases ih with ⟨null, -⟩ | visited
    · cases null
    · cases null : j.isNull with
      | true =>
        cases j <;> cases null
        exact .inl ⟨rfl, p, n, rfl⟩
      | false =>
        refine .inr (child_visited visited ?_)
        exact mem_itemsFrom.mpr ⟨n, j, read, null, by rw [Nat.zero_add]⟩
  | @inside p s ms t _ member named ih =>
    rcases ih with ⟨null, -⟩ | visited
    · cases null
    · exact .inr (child_visited visited (mem_fields.mpr ⟨t, member, named, rfl⟩))

/-! ## Following a path -/

def follow : Json → List Step → Option Json
  | j, [] => some j
  | .object ms, .key name :: rest => (Json.Members.get? ms name).bind (follow · rest)
  | .array js, .index n :: rest => js[n]?.bind (follow · rest)
  | _, _ :: _ => none

def byName : List String → List Step → List Step
  | names, .index n :: steps => .index n :: byName names steps
  | name :: names, .key _ :: steps => .key name :: byName names steps
  | _, _ => []

def Place.route (p : Place) : List Step := byName p.names p.steps

theorem follow_append (j : Json) (first second : List Step) :
    follow j (first ++ second) = (follow j first).bind (follow · second) := by
  induction first generalizing j with
  | nil => simp [follow]
  | cons step first ih =>
    cases j <;> cases step <;>
      simp only [List.cons_append, follow, Option.bind_assoc, Option.bind_none, ih]

def Place.NamesKeys (p : Place) : Prop := (p.steps.filter fun step => step matches .key _).length =
  p.names.length

theorem byName_append (names : List String) (steps : List Step) (more : List String)
    (after : List Step)
    (named : (steps.filter fun step => step matches .key _).length = names.length) :
    byName (names ++ more) (steps ++ after) = byName names steps ++ byName more after := by
  induction steps generalizing names with
  | nil =>
    obtain rfl : names = [] := List.length_eq_zero_iff.mp named.symm
    rfl
  | cons step steps ih =>
    cases step with
    | index n =>
      have rest := ih names (by simpa using named)
      simp only [List.cons_append, byName, rest]
    | key name =>
      cases names with
      | nil => simp at named
      | cons first names =>
        have rest := ih names (by simpa using named)
        simp only [List.cons_append, byName, rest]

theorem route_field (named : p.NamesKeys) : (p.field s).route = p.route ++ [.key s.field] :=
  byName_append p.names p.steps [s.field] [.key s.key] named

theorem route_item (named : p.NamesKeys) : (p.item n).route = p.route ++ [.index n] := by
  have steps := byName_append p.names p.steps [] [.index n] named
  rwa [List.append_nil] at steps

theorem stands_follow (stands : Stands source selections p s value) :
    p.NamesKeys ∧ follow (.object source) p.route = value := by
  induction stands with
  | top => exact ⟨rfl, by simp [Place.route, Place.field, Place.root, byName, follow]⟩
  | @item p s js n j _ read ih =>
    obtain ⟨named, leads⟩ := ih
    refine ⟨by simpa [Place.NamesKeys, Place.item] using named, ?_⟩
    rw [route_item named, follow_append, leads]
    simp [follow, read]
  | @inside p s ms t _ _ _ ih =>
    obtain ⟨named, leads⟩ := ih
    refine ⟨by simpa [Place.NamesKeys, Place.field] using named, ?_⟩
    rw [route_field named, follow_append, leads]
    simp [follow]

end Projection

end SubscriptionGateway
