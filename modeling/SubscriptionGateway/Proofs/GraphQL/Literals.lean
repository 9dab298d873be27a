import SubscriptionGateway.Proofs.GraphQL.Definitions
import SubscriptionGateway.Proofs.GraphQL.Spreads
import SubscriptionGateway.Proofs.GraphQL.Substitution

/-!
The literals of a document that is read. Arguments and defaults are readable, and a default has no
variables in it.
-/
namespace SubscriptionGateway.GraphQL

variable {cs rest : List Char} {l : Literal} {items : List Literal}
  {fields : List (String × Literal)}

def Constant (l : Literal) : Prop := ∀ x, ¬ Mentions l x

theorem constant_list (constant : ∀ l ∈ items, Constant l) : Constant (.list items) := by
  intro x mentions
  cases mentions with
  | item member inside => exact constant _ member x inside

theorem constant_object (constant : ∀ p ∈ fields, Constant p.2) : Constant (.object fields) := by
  intro x mentions
  cases mentions with
  | field member inside => exact constant _ member x inside

/-- What the readers of literals without variables take from a text with one amount of fuel. -/
structure Constants (fuel : Nat) : Prop where
  literal : ∀ {cs l rest}, literalFuel true fuel cs = some (l, rest) → Constant l
  items : ∀ {cs items rest}, itemsFuel true fuel cs = some (items, rest) → ∀ l ∈ items, Constant l
  fields : ∀ {cs fields rest}, fieldsFuel true fuel cs = some (fields, rest) →
    ∀ p ∈ fields, Constant p.2

namespace Constants

variable {fuel : Nat} (below : Constants fuel)

include below

theorem of_literal (read : literalFuel true (fuel + 1) cs = some (l, rest)) : Constant l := by
  rw [literalFuel] at read
  split at read
  · cases read
  · cases read
  · obtain ⟨_, _, same⟩ := Option.map_eq_some_iff.mp read
    cases same
    nofun
  · obtain ⟨_, inside, same⟩ := Option.map_eq_some_iff.mp read
    cases same
    exact constant_list (below.items inside)
  · obtain ⟨_, inside, same⟩ := Option.map_eq_some_iff.mp read
    cases same
    exact constant_object (below.fields inside)
  · cases read
    nofun
  · cases read
    nofun
  · cases read
    nofun
  · split at read
    · obtain ⟨_, _, same⟩ := Option.map_eq_some_iff.mp read
      cases same
      nofun
    · rw [scanNumber] at read
      split at read
      · next n _ _ =>
        split at read
        · cases read
        · cases read
          cases n.value? <;> nofun
      · cases read

theorem of_items (read : itemsFuel true (fuel + 1) cs = some (items, rest)) :
    ∀ l ∈ items, Constant l := by
  rw [itemsFuel] at read
  split at read
  · cases read
    simp
  · split at read
    · cases read
    · next first =>
      obtain ⟨_, others, same⟩ := Option.map_eq_some_iff.mp read
      cases same
      exact List.forall_mem_cons.mpr ⟨below.literal first, below.items others⟩

theorem of_fields (read : fieldsFuel true (fuel + 1) cs = some (fields, rest)) :
    ∀ p ∈ fields, Constant p.2 := by
  rw [fieldsFuel] at read
  split at read
  · cases read
    simp
  · split at read
    · cases read
    · split at read
      · cases read
      · next first =>
        obtain ⟨_, _, first⟩ := Option.bind_eq_some_iff.mp first
        obtain ⟨_, others, same⟩ := Option.map_eq_some_iff.mp read
        cases same
        exact List.forall_mem_cons.mpr ⟨below.literal first, below.fields others⟩

end Constants

theorem constants (fuel : Nat) : Constants fuel := by
  induction fuel with
  | zero => constructor <;> intro _ _ _ read <;> cases read
  | succ fuel below => exact ⟨below.of_literal, below.of_items, below.of_fields⟩

/-! ## Defaults -/

def VariableDefinition.Constant (v : VariableDefinition) : Prop :=
  ∀ l, v.default? = some l → GraphQL.Constant l

def Definition.ConstantDefaults : Definition → Prop
  | .operation _ o => ∀ v ∈ o.declared, v.Constant
  | .fragment _ => True

theorem variableDefinition_constant {v : VariableDefinition}
    (read : variableDefinition cs = some (v, rest)) : v.Constant := by
  simp only [variableDefinition, Option.bind_eq_bind, Option.bind_eq_some_iff] at read
  obtain ⟨_, _, _, _, _, _, _, _, _, _, read⟩ := read
  split at read
  · cases read
    nofun
  · simp only [Option.bind_eq_some_iff] at read
    obtain ⟨_, literal, same⟩ := read
    cases same
    rintro l ⟨⟩
    exact (constants _).literal literal

theorem variableDefinitionsFuel_constant {fuel : Nat} {vs : List VariableDefinition}
    (read : variableDefinitionsFuel fuel cs = some (vs, rest)) : ∀ v ∈ vs, v.Constant := by
  induction fuel generalizing cs vs with
  | zero => cases read
  | succ fuel ih =>
    rw [variableDefinitionsFuel] at read
    split at read
    · cases read
      simp
    · split at read
      · cases read
      · next first =>
        obtain ⟨_, others, same⟩ := Option.map_eq_some_iff.mp read
        cases same
        exact List.forall_mem_cons.mpr ⟨variableDefinition_constant first, ih others⟩

theorem variableDefinitions_constant {vs : List VariableDefinition}
    (read : variableDefinitions cs = some (vs, rest)) : ∀ v ∈ vs, v.Constant := by
  rw [variableDefinitions] at read
  split at read
  · exact variableDefinitionsFuel_constant read
  · cases read
    simp

theorem definition_constant {d : Definition} (read : definition cs = some (d, rest)) :
    d.ConstantDefaults := by
  rw [definition] at read
  split at read
  · simp only [Option.bind_eq_bind, Option.bind_eq_some_iff] at read
    obtain ⟨_, declared, _, _, _, _, same⟩ := read
    cases same
    exact variableDefinitions_constant declared
  · split at read
    · simp only [Option.bind_eq_bind, Option.bind_eq_some_iff] at read
      obtain ⟨_, _, _, _, _, _, _, _, same⟩ := read
      cases same
      trivial
    · obtain ⟨_, _, same⟩ := Option.map_eq_some_iff.mp read
      cases same
      exact fun _ declared => absurd declared List.not_mem_nil

theorem operation_sound {name? : Option String} {o : Operation}
    (sound : (Definition.operation name? o).fault? = none) :
    (∀ v ∈ o.declared, v.readable = true) ∧
      Node.setFault? selectionDepthLimit o.selections = none := by
  rw [Definition.fault?] at sound
  split at sound
  · next fine =>
    rw [Bool.and_eq_true] at fine
    exact ⟨List.all_eq_true.mp fine.1, sound⟩
  · cases sound

theorem fragment_sound {f : Fragment} (sound : (Definition.fragment f).fault? = none) :
    Node.setFault? selectionDepthLimit f.selections = none := by
  rw [Definition.fault?] at sound
  split at sound
  · exact sound
  · cases sound

theorem defaults_constant {text : String} {d : Document} {o : Operation}
    (parsed : Document.parse text = .ok d) (member : o ∈ d.operations.all) :
    ∀ v ∈ o.declared, v.readable = true ∧ v.Constant := by
  obtain ⟨operations, -⟩ := parse_all (P := Definition.ConstantDefaults) definition_constant parsed
  obtain ⟨name?, constant, sound⟩ := operations o member
  exact fun v declared => ⟨(operation_sound sound).1 v declared, constant v declared⟩

/-! ## Arguments -/

theorem setFault?_cons {levels : Nat} {node : Node} {nodes : List Node} :
    Node.setFault? levels (node :: nodes) = none ↔
      node.fault? levels = none ∧ Node.setFault? levels nodes = none := by
  rw [Node.setFault?]
  cases node.fault? levels <;> simp

theorem Expands.readable {fragments : List Fragment} {nodes : List Node} {fields : List FlatField}
    {levels : Nat} (expands : Expands fragments nodes fields)
    (sound : Node.setFault? levels nodes = none)
    (others : ∀ f ∈ fragments, ∃ levels, Node.setFault? levels f.selections = none) :
    ∀ f ∈ fields, Literal.readableFields f.arguments = true := by
  induction expands generalizing levels with
  | nil => simp
  | field _ _ _ ih =>
    obtain ⟨here, rest⟩ := setFault?_cons.mp sound
    refine List.forall_mem_cons.mpr ⟨?_, ih rest⟩
    unfold Node.fault? at here
    split at here
    · cases here
    · next fine => simp_all
  | inline _ _ ihBelow ih =>
    obtain ⟨here, rest⟩ := setFault?_cons.mp sound
    refine List.forall_mem_append.mpr ⟨?_, ih rest⟩
    unfold Node.fault? at here
    split at here
    · cases here
    · split at here
      · cases here
      · exact ihBelow here
  | spread found _ _ ihBelow ih =>
    obtain ⟨levels, inside⟩ := others _ (List.mem_of_find?_eq_some found)
    exact List.forall_mem_append.mpr ⟨ihBelow inside, ih (setFault?_cons.mp sound).2⟩

theorem flatten_readable {text : String} {d : Document} {o : Operation} {fields : List FlatField}
    (parsed : Document.parse text = .ok d) (member : o ∈ d.operations.all)
    (flat : d.flatten o.selections = .ok fields) :
    ∀ f ∈ fields, Literal.readableFields f.arguments = true := by
  obtain ⟨operations, fragments⟩ := parse_all (P := fun _ => True) (fun _ => trivial) parsed
  obtain ⟨name?, -, sound⟩ := operations o member
  exact (flatten_ok.mp flat).readable (operation_sound sound).2 fun f inside =>
    ⟨selectionDepthLimit, fragment_sound (fragments f inside).2⟩

end SubscriptionGateway.GraphQL
