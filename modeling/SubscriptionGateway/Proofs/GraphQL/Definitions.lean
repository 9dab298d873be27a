import SubscriptionGateway.Subscription.Operation

/-!
A document that is read is made of the definitions in its text: all of its operations and fragments
stand there in this order, and none of the definitions holds what a text may not hold.
-/
namespace SubscriptionGateway.GraphQL

def Definition.operation? : Definition → Option Operation
  | .operation _ o => some o
  | .fragment _ => none

def Definition.fragment? : Definition → Option Fragment
  | .operation _ _ => none
  | .fragment f => some f

def Operations.all : Operations → List Operation
  | .unnamed o => [o]
  | .named os => os.map (·.2)

variable {known : Option Operations} {name? : Option String} {o : Operation} {os : Operations}
  {fs : List Fragment} {ds : List Definition} {d : Document}

theorem addOperation_all (added : Document.addOperation known name? o = .ok os) :
    os.all = (known.map Operations.all).getD [] ++ [o] := by
  cases name? with
  | none =>
    simp only [Document.addOperation] at added
    split at added <;> cases added
    rfl
  | some name =>
    simp only [Document.addOperation] at added
    split at added
    · cases added
    · split at added <;> cases added
      simp [Operations.all]
    · cases added
      rfl

theorem gather_all (gathered : Document.gather known fs ds = .ok d) :
    d.operations.all = (known.map Operations.all).getD [] ++ ds.filterMap Definition.operation? ∧
      d.fragments = fs ++ ds.filterMap Definition.fragment? := by
  induction ds generalizing known fs with
  | nil =>
    cases known with
    | none => cases gathered
    | some os => cases gathered; simp
  | cons first ds ih =>
    cases first with
    | operation name? o =>
      rw [Document.gather] at gathered
      split at gathered
      · next os added =>
        obtain ⟨operations, fragments⟩ := ih gathered
        simp only [List.filterMap_cons, Definition.operation?, Definition.fragment?]
        refine ⟨?_, fragments⟩
        rw [operations, Option.map_some, Option.getD_some, addOperation_all added]
        simp
      · cases gathered
    | fragment f =>
      rw [Document.gather] at gathered
      split at gathered
      · cases gathered
      · simpa [List.filterMap_cons, Definition.operation?, Definition.fragment?] using ih gathered

/-- What holds of every definition that is read holds of all that a text consists of. -/
theorem definitions_all {P : Definition → Prop}
    (each : ∀ {cs d rest}, definition cs = some (d, rest) → P d)
    {fuel : Nat} {cs : List Char} (read : definitionsFuel fuel cs = some ds) : ∀ d ∈ ds, P d := by
  induction fuel generalizing cs ds with
  | zero => cases read
  | succ fuel ih =>
    rw [definitionsFuel] at read
    split at read
    · cases read
    · next d _ first =>
      split at read
      · cases read
        exact List.forall_mem_singleton.mpr (each first)
      · obtain ⟨more, others, rfl⟩ := Option.map_eq_some_iff.mp read
        exact List.forall_mem_cons.mpr ⟨each first, ih others⟩

theorem parse_all {P : Definition → Prop}
    (each : ∀ {cs d rest}, definition cs = some (d, rest) → P d)
    {text : String} (parsed : Document.parse text = .ok d) :
    (∀ o ∈ d.operations.all, ∃ name?, P (.operation name? o) ∧
      (Definition.operation name? o).fault? = none) ∧
      ∀ f ∈ d.fragments, P (.fragment f) ∧ (Definition.fragment f).fault? = none := by
  simp only [Document.parse] at parsed
  split at parsed
  · next ds read =>
    have holds := definitions_all each read
    rw [Document.ofDefinitions] at parsed
    split at parsed
    · cases parsed
    · next sound =>
      obtain ⟨operations, fragments⟩ := gather_all parsed
      rw [List.findSome?_eq_none_iff] at sound
      constructor
      · intro o member
        rw [operations] at member
        obtain ⟨x, inside, same⟩ := List.mem_filterMap.mp (by simpa using member)
        cases x with
        | operation name? _ => cases same; exact ⟨name?, holds _ inside, sound _ inside⟩
        | fragment => cases same
      · intro f member
        rw [fragments] at member
        obtain ⟨x, inside, same⟩ := List.mem_filterMap.mp (by simpa using member)
        cases x with
        | operation => cases same
        | fragment => cases same; exact ⟨holds _ inside, sound _ inside⟩
  · cases parsed

theorem operation?_mem (chosen : d.operation? name? = .ok o) : o ∈ d.operations.all := by
  simp only [Document.operation?] at chosen
  split at chosen
  · next same =>
    cases chosen
    rw [same]
    exact List.mem_singleton_self o
  · next os name same =>
    split at chosen
    · next found =>
      cases chosen
      rw [same]
      exact List.mem_map_of_mem (List.mem_of_find?_eq_some found)
    · cases chosen
  · next same =>
    cases chosen
    rw [same]
    exact List.mem_singleton_self o
  · cases chosen

end SubscriptionGateway.GraphQL
