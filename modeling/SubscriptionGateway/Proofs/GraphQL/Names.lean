import SubscriptionGateway.Proofs.GraphQL.Definitions
import SubscriptionGateway.Proofs.GraphQL.Unambiguous
import Mathlib.Data.List.TakeWhile

/-!
Every field of a document that is read has a name of the language, and so has every selection of an
operation, at all depths: flattening and merging take their fields from the document.
-/
namespace SubscriptionGateway

namespace GraphQL

def IsName (s : String) : Prop :=
  ∃ first rest, s.toList = first :: rest ∧ isNameStart first = true ∧
    ∀ c ∈ rest, isNamePart c = true

mutual

def Node.Named : Node → Prop
  | .field _ name _ _ selections => IsName name ∧ Node.AllNamed selections
  | .inline _ selections => Node.AllNamed selections
  | .spread _ _ => True

def Node.AllNamed : List Node → Prop
  | [] => True
  | node :: nodes => Node.Named node ∧ Node.AllNamed nodes

end

def Definition.Named : Definition → Prop
  | .operation _ o => Node.AllNamed o.selections
  | .fragment f => Node.AllNamed f.selections

variable {cs rest : List Char} {name : String} {node : Node} {nodes : List Node}

theorem scanName_isName (scanned : scanName cs = some (name, rest)) : IsName name := by
  cases cs with
  | nil => cases scanned
  | cons c cs =>
    rw [scanName] at scanned
    split at scanned
    · rename_i start
      cases scanned
      exact ⟨c, _, String.toList_ofList, start, fun d member => List.mem_takeWhile_imp member⟩
    · cases scanned

theorem name_isName (scanned : name? cs = some (name, rest)) : IsName name :=
  scanName_isName scanned

structure Reads (fuel : Nat) : Prop where
  set : ∀ {cs nodes rest}, selectionSetFuel fuel cs = some (nodes, rest) → Node.AllNamed nodes
  nodes : ∀ {cs nodes rest}, nodesFuel fuel cs = some (nodes, rest) → Node.AllNamed nodes
  node : ∀ {cs node rest}, nodeFuel fuel cs = some (node, rest) → node.Named
  inline : ∀ {cs node rest}, inlineFuel fuel cs = some (node, rest) → node.Named
  field : ∀ {cs node rest}, fieldFuel fuel cs = some (node, rest) → node.Named

namespace Reads

variable {fuel : Nat} (below : Reads fuel)

include below

theorem of_set (read : selectionSetFuel (fuel + 1) cs = some (nodes, rest)) :
    Node.AllNamed nodes := by
  rw [selectionSetFuel] at read
  split at read
  · exact below.nodes read
  · cases read

theorem of_nodes (read : nodesFuel (fuel + 1) cs = some (nodes, rest)) : Node.AllNamed nodes := by
  rw [nodesFuel] at read
  split at read
  · cases read
  rename_i node _ first
  split at read
  · cases read
    exact ⟨below.node first, trivial⟩
  · obtain ⟨⟨more, _⟩, others, same⟩ := Option.map_eq_some_iff.mp read
    cases same
    exact ⟨below.node first, below.nodes others⟩

theorem of_node (read : nodeFuel (fuel + 1) cs = some (node, rest)) : node.Named := by
  rw [nodeFuel] at read
  split at read
  · split at read
    · exact below.inline read
    split at read
    · obtain ⟨_, _, same⟩ := Option.map_eq_some_iff.mp read
      cases same
      trivial
    · exact below.inline read
  · exact below.field read

theorem of_inline (read : inlineFuel (fuel + 1) cs = some (node, rest)) : node.Named := by
  rw [inlineFuel] at read
  split at read
  · cases read
  · obtain ⟨_, set, same⟩ := Option.map_eq_some_iff.mp read
    cases same
    exact below.set set

theorem of_field (read : fieldFuel (fuel + 1) cs = some (node, rest)) : node.Named := by
  rw [fieldFuel] at read
  split at read
  · cases read
  rename_i first afterFirst scanned
  dsimp only at read
  split at read
  · cases read
  rename_i alias? name afterName named
  have isName : IsName name := by
    split at named
    · obtain ⟨_, second, same⟩ := Option.map_eq_some_iff.mp named
      cases same
      exact name_isName second
    · cases named
      exact name_isName scanned
  split at read
  · cases read
  split at read
  · cases read
  split at read
  · cases read
    exact ⟨isName, trivial⟩
  · obtain ⟨_, set, same⟩ := Option.map_eq_some_iff.mp read
    cases same
    exact ⟨isName, below.set set⟩

end Reads

theorem reads_named (fuel : Nat) : Reads fuel := by
  induction fuel with
  | zero => constructor <;> intro _ _ _ read <;> cases read
  | succ fuel below =>
    exact ⟨below.of_set, below.of_nodes, below.of_node, below.of_inline, below.of_field⟩

theorem definition_named {d : Definition} (read : definition cs = some (d, rest)) : d.Named := by
  rw [definition] at read
  split at read
  · simp only [Option.bind_eq_bind, Option.bind_eq_some_iff] at read
    obtain ⟨_, _, _, _, _, set, same⟩ := read
    cases same
    exact (reads_named _).set set
  split at read
  · simp only [Option.bind_eq_bind, Option.bind_eq_some_iff] at read
    obtain ⟨_, _, _, _, _, _, _, set, same⟩ := read
    cases same
    exact (reads_named _).set set
  · obtain ⟨_, set, same⟩ := Option.map_eq_some_iff.mp read
    cases same
    exact (reads_named _).set set

/-! ## From the document to the operation -/

theorem parse_named {text : String} {d : Document} (parsed : Document.parse text = .ok d) :
    (∀ o ∈ d.operations.all, Node.AllNamed o.selections) ∧
      ∀ f ∈ d.fragments, Node.AllNamed f.selections := by
  obtain ⟨operations, fragments⟩ := parse_all (P := Definition.Named) definition_named parsed
  exact ⟨fun o member => (operations o member).choose_spec.1,
    fun f member => (fragments f member).1⟩

end GraphQL

namespace Selection

inductive Named : Selection → Prop where
  | mk {s : Selection} : GraphQL.IsName s.field → (∀ t ∈ s.selections, Named t) → Named s

theorem Named.isName {s : Selection} : Named s → GraphQL.IsName s.field
  | .mk isName _ => isName

theorem Named.inner {s : Selection} : Named s → ∀ t ∈ s.selections, Named t
  | .mk _ below => below

end Selection

namespace GraphQL

open Selection

variable {s : Selection} {set siblings : List Selection}

theorem named_mergeInto (named : s.Named) (before : ∀ t ∈ set, t.Named) :
    ∀ t ∈ mergeInto s set, t.Named := by
  intro t member
  rcases mem_mergeInto member with rfl | old | ⟨u, inside, rfl⟩
  · exact named
  · exact before t old
  · refine .mk (before u inside).isName fun v below => ?_
    exact (mem_addMissing below).elim ((before u inside).inner v) (named.inner v)

theorem named_mergeSiblings (named : ∀ t ∈ siblings, t.Named) :
    ∀ t ∈ mergeSiblings siblings, t.Named := by
  induction siblings using List.reverseRecOn with
  | nil => simp [mergeSiblings]
  | append_singleton siblings s ih =>
    rw [mergeSiblings_append]
    exact named_mergeInto (named s (by simp))
      (ih fun t member => named t (List.mem_append_left _ member))

theorem built_named {fragments : List Fragment} {nodes : List Node}
    (known : ∀ f ∈ fragments, Node.AllNamed f.selections) (named : Node.AllNamed nodes)
    (built : Built fragments nodes set) : ∀ s ∈ set, s.Named := by
  induction built with
  | nil => simp
  | field _ _ ihBelow ihRest =>
    obtain ⟨⟨isName, below⟩, rest⟩ := named
    rintro s (_ | ⟨_, later⟩)
    · exact .mk isName (named_mergeSiblings (ihBelow below))
    · exact ihRest rest s later
  | inline _ _ ihBelow ihRest =>
    obtain ⟨below, rest⟩ := named
    exact fun s member => (List.mem_append.mp member).elim (ihBelow below s) (ihRest rest s)
  | spread found _ _ ihBelow ihRest =>
    have below := known _ (List.mem_of_find?_eq_some found)
    exact fun s member => (List.mem_append.mp member).elim (ihBelow below s) (ihRest named.2 s)

end GraphQL

open GraphQL

theorem root_named {r : Request} {op : SubscriptionOperation}
    (accepted : SubscriptionOperation.ofRequest r = .ok op) : op.root.Named := by
  obtain ⟨d, o, f, parsed, chosen, -, flat, rfl⟩ := SubscriptionOperation.ofRequest_ok.mp accepted
  obtain ⟨operations, fragments⟩ := parse_named parsed
  exact built_named fragments (operations o (operation?_mem chosen)) (flatten_built flat)
    f.selection (List.mem_singleton_self _)

end SubscriptionGateway
