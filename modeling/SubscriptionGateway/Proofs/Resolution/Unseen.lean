import SubscriptionGateway.Proofs.Resolution.Shown

/-!
Nothing that was not selected can be observed. Two payloads that are alike in the type name, in the
keys and, level by level, in what is selected lead to the same entity request and to the same
result, also when that is a fault. The fetched entity does not tell them apart either, since it only
adds to what both lack.
-/
namespace SubscriptionGateway

namespace Projection

open Json

/-- Two values of the source are alike in all that a selection looks at. An object is looked at only
through the fields that are selected below it; for a leaf there are none, and it is refused. -/
inductive AlikeWhereSelected : Selection → Json → Json → Prop where
  | same {t j} : AlikeWhereSelected t j j
  | list {t js js'} : js.length = js'.length →
      (∀ (i : Nat) (h : i < js.length) (h' : i < js'.length), AlikeWhereSelected t js[i] js'[i]) →
      AlikeWhereSelected t (.array js) (.array js')
  | object {t source source'} :
      (∀ u ∈ t.selections, u.isTypename = true →
        Members.held source "__typename" = Members.held source' "__typename") →
      (∀ u ∈ t.selections, u.isTypename = false →
        AlikeWhereSelected u (Members.held source u.field) (Members.held source' u.field)) →
      AlikeWhereSelected t (.object source) (.object source')

def AlikeBelow (selections : List Selection) (source source' : Members) : Prop :=
  ∀ t ∈ selections, t.isTypename = false →
    AlikeWhereSelected t (source.held t.field) (source'.held t.field)

def SameTypename (isRoot : Bool) (selections : List Selection) (source source' : Members) : Prop :=
  ∀ t ∈ selections, t.isTypename = true →
    isRoot = true ∨ source.held "__typename" = source'.held "__typename"

variable {f : EventField}

theorem AlikeWhereSelected.isNull {t : Selection} {j j' : Json}
    (alike : AlikeWhereSelected t j j') : j.isNull = j'.isNull := by
  cases alike <;> rfl

section Values

variable {t : Selection} {object : Place → Members → Except Error Json}

mutual

theorem value_alike (objects : ∀ p source source', SameTypename false t.selections source source' →
      AlikeBelow t.selections source source' → object p source = object p source') (isLeaf : Bool) :
    ∀ (p : Place) (j j' : Json), AlikeWhereSelected t j j' →
      value f isLeaf object p j = value f isLeaf object p j'
  | p, .array js, j', alike => by
    cases alike with
    | same => rfl
    | list length each =>
      rw [value, value,
        items_alike objects isLeaf p 0 js _ (List.forall₂_iff_get.mpr ⟨length, each⟩)]
  | p, .object source, j', alike => by
    cases alike with
    | same => rfl
    | object typename below =>
      rw [value, value, objects p source _ (fun u member isTypename =>
        .inr (typename u member isTypename)) below]
  | p, .null, j', alike => by cases alike; rfl
  | p, .bool b, j', alike => by cases alike; rfl
  | p, .number n, j', alike => by cases alike; rfl
  | p, .string text, j', alike => by cases alike; rfl

theorem items_alike (objects : ∀ p source source', SameTypename false t.selections source source' →
      AlikeBelow t.selections source source' → object p source = object p source') (isLeaf : Bool) :
    ∀ (p : Place) (n : Nat) (js js' : List Json), List.Forall₂ (AlikeWhereSelected t) js js' →
      items f isLeaf object p n js = items f isLeaf object p n js'
  | p, n, [], js', alike => by cases alike; rfl
  | p, n, j :: js, js', alike => by
    cases alike with
    | cons first rest =>
      rw [items, items, first.isNull, value_alike objects isLeaf (p.item n) j _ first,
        items_alike objects isLeaf p (n + 1) js _ rest]

end

end Values

mutual

theorem member_alike (isRoot : Bool) :
    ∀ (p : Place) (source source' : Members) (t : Selection),
      SameTypename isRoot [t] source source' → AlikeBelow [t] source source' →
      member f isRoot p source t = member f isRoot p source' t
  | p, source, source', ⟨key, name, selections⟩, typename, below => by
    rw [member, member]
    split
    · rename_i named
      obtain rfl | same :=
        typename _ (List.mem_singleton_self _) (by simp [Selection.isTypename, named])
      · rfl
      · exact congrArg
          (fun held => Except.ok (if isRoot then Json.string f.typeName else held)) same
    · rename_i other
      refine value_alike (t := ⟨key, name, selections⟩) ?_ _ _ _ _
        (below _ (List.mem_singleton_self _) (by simpa [Selection.isTypename] using other))
      intro p source source' typename below
      rw [set_alike false p source source' selections typename below]

theorem set_alike (isRoot : Bool) :
    ∀ (p : Place) (source source' : Members) (selections : List Selection),
      SameTypename isRoot selections source source' → AlikeBelow selections source source' →
      set f isRoot p source selections = set f isRoot p source' selections
  | p, source, source', [], _, _ => rfl
  | p, source, source', ⟨key, name, selections⟩ :: rest, typename, below => by
    rw [set, set,
      member_alike isRoot p source source' _
        (fun t member => typename t (List.mem_cons.mpr (.inl (List.mem_singleton.mp member))))
        (fun t member => below t (List.mem_cons.mpr (.inl (List.mem_singleton.mp member)))),
      set_alike isRoot p source source' rest
        (fun t later => typename t (List.mem_cons_of_mem _ later))
        (fun t later => below t (List.mem_cons_of_mem _ later))]

end

theorem root_alike {source source' : Members} {selections : List Selection}
    (below : AlikeBelow selections source source') :
    root f source selections = root f source' selections := by
  rw [root, root, set_alike true .root source source' selections (fun _ _ _ => .inl rfl) below]

end Projection

namespace Resolution

open Projection Json

/-- Two payload objects are alike in all that a subscription looks at. Only the first level tells an
absent field from a null one, since an entity may complete it. -/
structure SameSeen (s : CompiledSubscription) (ms ms' : Members) : Prop where
  typename : ms.held "__typename" = ms'.held "__typename"
  keys : ∀ key ∈ s.field.keyFields, ms.held key = ms'.held key
  present : ∀ t ∈ s.operation.root.selections, t.isTypename = false →
    ms.contains t.field = ms'.contains t.field
  selected : AlikeBelow s.operation.root.selections ms ms'

variable {s : CompiledSubscription} {ms ms' : Members} {payload payload' : List UInt8}

theorem checkType_held (f : EventField) (ms : Members) :
    checkType f ms = match ms.held "__typename" with
      | .null => .ok ()
      | .string name =>
        if name = f.typeName then .ok ()
        else .error (.decode
          s!"payload __typename {(Json.string name).text} does not match {f.typeName}")
      | j => .error (.decode s!"payload __typename {j.text} does not match {f.typeName}") := by
  rw [checkType, Members.held]
  rcases ms.get? "__typename" with _ | j
  · rfl
  · cases j <;> rfl

theorem representation_held (f : EventField) (ms : Members) :
    representation f ms = f.keyFields.foldl (fun acc key => acc.bind fun known =>
      match ms.held key with
      | .null => none
      | j => some (Members.insert known key j)) (some [("__typename", .string f.typeName)]) := by
  rw [representation]
  refine congrArg (List.foldl · _ f.keyFields) (funext₂ fun acc key => congrArg acc.bind ?_)
  funext known
  rw [Members.held]
  rcases ms.get? key with _ | j
  · rfl
  · cases j <;> rfl

def asked (s : CompiledSubscription) (hasEntities : Bool) (ms : Members) :
    Except Fault (Option EntityRequest) :=
  (checkType s.field ms).map fun _ =>
    if hasEntities && lacks ms s.operation.root.selections then
      (representation s.field ms).map fun r =>
        ⟨s.field.typeName, r, s.operation.root.selections⟩
    else none

theorem start_asked {hasEntities : Bool} (decoded : decode payload = .ok ms) :
    start s hasEntities payload = (asked s hasEntities ms).map (Started.mk ms) := by
  rw [start, decoded, asked]
  dsimp only
  cases checkType s.field ms <;> rfl

theorem SameSeen.lacks (same : SameSeen s ms ms') :
    lacks ms s.operation.root.selections = lacks ms' s.operation.root.selections := by
  rw [Resolution.lacks, Resolution.lacks, Bool.eq_iff_iff, List.any_eq_true, List.any_eq_true]
  refine exists_congr fun t => and_congr_right fun member => ?_
  cases isTypename : t.isTypename with
  | true => rfl
  | false => rw [same.present t member isTypename]

theorem SameSeen.asked (same : SameSeen s ms ms') (hasEntities : Bool) :
    asked s hasEntities ms = asked s hasEntities ms' := by
  have type : checkType s.field ms = checkType s.field ms' := by
    rw [checkType_held, checkType_held, same.typename]
  have represented : representation s.field ms = representation s.field ms' := by
    rw [representation_held, representation_held]
    refine List.foldl_ext _ _ _ fun acc key member => ?_
    rw [same.keys key member]
  rw [Resolution.asked, Resolution.asked, type, represented, same.lacks]

/-- Where the payload has the field the entity is hidden, and else both objects get it from
there. -/
theorem SameSeen.complete (same : SameSeen s ms ms') (entity : Option Members) :
    AlikeBelow s.operation.root.selections (complete ms entity) (complete ms' entity) := by
  intro t member isField
  have present := same.present t member isField
  have alike := same.selected t member isField
  rw [Members.contains, Members.contains] at present
  rw [Members.held, Members.held] at alike
  rw [Members.held, Members.held, get?_complete, get?_complete]
  cases first : ms.get? t.field <;> cases second : ms'.get? t.field <;>
    rw [first, second] at present alike
  · exact .same
  · cases present
  · cases present
  · exact alike

theorem SameSeen.finish (same : SameSeen s ms ms') (entity : Option Members) :
    finish s (Resolution.complete ms entity) = finish s (Resolution.complete ms' entity) := by
  rw [Resolution.finish, Resolution.finish, root_alike (same.complete entity)]

/-- Payload data that is not selected has no influence: the request for the entity is the same, and
so are the data or the fault, with the work that the resolver of an engine makes of them. -/
theorem unselected_unseen (decoded : decode payload = .ok ms) (decoded' : decode payload' = .ok ms')
    (same : SameSeen s ms ms') :
    (∀ hasEntities, (start s hasEntities payload).map (·.wanted) =
      (start s hasEntities payload').map (·.wanted)) ∧
    (∀ fetch, data s fetch payload = data s fetch payload') ∧
    ∀ source?, Resolver.ofSource source? s payload = Resolver.ofSource source? s payload' := by
  refine ⟨fun hasEntities => ?_, fun fetch => ?_, fun source? => ?_⟩
  · rw [start_asked decoded, start_asked decoded', same.asked]
    cases asked s hasEntities ms' <;> rfl
  · rw [data, data, start_asked decoded, start_asked decoded', same.asked]
    cases asked s fetch.isSome ms' with
    | error fault => rfl
    | ok wanted =>
      cases fetch with
      | none => exact same.finish none
      | some answers =>
        cases wanted with
        | none => exact same.finish none
        | some wanted =>
          simp only [Except.map]
          cases answers wanted with
          | error fault => rfl
          | ok entity => exact same.finish entity
  · rw [Resolver.ofSource, Resolver.ofSource, start_asked decoded, start_asked decoded', same.asked]
    cases asked s source?.isSome ms' with
    | error fault => rfl
    | ok wanted =>
      have alone : Resolver.settled (finish s ms) = Resolver.settled (finish s ms') :=
        congrArg Resolver.settled (same.finish none)
      cases source? with
      | none => exact alone
      | some source =>
        cases wanted with
        | none => exact alone
        | some wanted =>
          have completed : Resolver.completed s ⟨ms, some wanted⟩ (source wanted) =
              Resolver.completed s ⟨ms', some wanted⟩ (source wanted) := by
            refine congrArg (Option.map · _) (funext fun answer => congrArg outcome ?_)
            cases answer with
            | error fault => rfl
            | ok entity => exact same.finish entity
          simp only [Except.map, completed]

def profileObject : Members :=
  [("id", .ofNat 5), ("tags", .array [.object [("name", .string "a"), ("x", .ofNat 1)], .null,
    .array []]), ("extra", .bool true)]

def strangerPayload : List UInt8 :=
  "\x7b\"tags\":[\x7b\"y\":[2],\"name\":\"a\"\x7d,null,[]],\"name\":\"b\",\"id\":5\x7d".toUTF8.toList

def strangerObject : Members :=
  [("tags", .array [.object [("y", .array [.ofNat 2]), ("name", .string "a")], .null, .array []]),
    ("name", .string "b"), ("id", .ofNat 5)]

theorem stranger_tags (t : Selection) (fields : t.selections = [.leaf "__typename", .leaf "name"]) :
    AlikeWhereSelected t (profileObject.held "tags") (strangerObject.held "tags") := by
  refine .list rfl fun i h h' => ?_
  match i, h with
  | 0, _ =>
    refine .object (fun _ _ _ => rfl) fun u member isField => ?_
    rw [fields] at member
    rcases member with _ | ⟨_, _ | ⟨_, none⟩⟩
    · cases isField
    · exact .same
    · cases none
  | 1, _ => exact .same
  | 2, _ => exact .same

theorem stranger_same : SameSeen profileSubscription profileObject strangerObject where
  typename := rfl
  keys := by decide +kernel
  present := by decide +kernel
  selected := by
    intro t member isField
    rcases member with _ | ⟨_, _ | ⟨_, _ | ⟨_, _ | ⟨_, none⟩⟩⟩⟩
    · cases isField
    · exact .same
    · exact stranger_tags _ rfl
    · exact .same
    · cases none

theorem stranger_unseen :
    decode profilePayload = .ok profileObject ∧ decode strangerPayload = .ok strangerObject ∧
      SameSeen profileSubscription profileObject strangerObject ∧
      profileObject.held "name" ≠ strangerObject.held "name" ∧
      data profileSubscription profileFetch strangerPayload = .ok profileData ∧
      ∀ source?, Resolver.ofSource source? profileSubscription profilePayload =
        Resolver.ofSource source? profileSubscription strangerPayload := by
  have decoded : decode profilePayload = .ok profileObject := by decide +kernel
  have decoded' : decode strangerPayload = .ok strangerObject := by decide +kernel
  have resolved : data profileSubscription profileFetch profilePayload = .ok profileData := by
    decide +kernel
  obtain ⟨-, sameData, sameWork⟩ := unselected_unseen decoded decoded' stranger_same
  exact ⟨decoded, decoded', stranger_same, by decide +kernel,
    (sameData profileFetch).symm.trans resolved, sameWork⟩

end Resolution

end SubscriptionGateway
