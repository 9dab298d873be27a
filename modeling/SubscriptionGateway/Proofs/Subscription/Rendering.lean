import SubscriptionGateway.Proofs.GraphQL.Readback
import SubscriptionGateway.Proofs.GraphQL.Spreads

/-!
A selection written as a request of its own and read again. The text has no aliases, so what comes
back is the tree under the names of its fields, with siblings of one name merged; a tree without
aliases comes back as it was. Only a tree that nests deeper than a reader allows is refused.
-/
namespace SubscriptionGateway

namespace Selection

def rendered (s : Selection) : String := "subscription \x7b " ++ s.text ++ " \x7d"

mutual

/-- How many selection sets stand in each other below the field. -/
def depth : Selection → Nat
  | ⟨_, _, []⟩ => 0
  | ⟨_, _, s :: rest⟩ => setDepth (s :: rest) + 1

def setDepth : List Selection → Nat
  | [] => 0
  | s :: rest => max s.depth (setDepth rest)

end

mutual

/-- The tree under the names of its fields, where siblings of one name are one. -/
def byField : Selection → Selection
  | ⟨_, field, selections⟩ => ⟨field, field, GraphQL.mergeSiblings (setByField selections)⟩

def setByField : List Selection → List Selection
  | [] => []
  | s :: rest => byField s :: setByField rest

end

inductive Plain : Selection → Prop where
  | mk {s : Selection} : s.key = s.field → Distinct s.selections →
      (∀ t ∈ s.selections, Plain t) → Plain s

end Selection

namespace GraphQL

open Selection

variable {s : Selection} {set : List Selection} {levels : Nat}

/-! ## Trees that come back as they were -/

theorem mergeInto_fresh (fresh : s.key ∉ set.map (·.key)) : mergeInto s set = set ++ [s] := by
  induction set with
  | nil => rfl
  | cons t set ih =>
    obtain ⟨differs, later⟩ := not_or.mp (mt List.mem_cons.mpr fresh)
    rw [mergeInto, if_neg (Ne.symm differs), ih later, List.cons_append]

theorem mergeSiblings_distinct (distinct : Distinct set) : mergeSiblings set = set := by
  induction set using List.reverseRecOn with
  | nil => rfl
  | append_singleton set s ih =>
    rw [Distinct, List.map_append, List.nodup_append] at distinct
    obtain ⟨distinct, -, apart⟩ := distinct
    rw [mergeSiblings_append, ih distinct]
    exact mergeInto_fresh fun member => apart _ member _ (List.mem_singleton_self _) rfl

mutual

theorem byField_plain : ∀ s : Selection, s.Plain → s.byField = s
  | ⟨key, field, selections⟩, .mk same distinct below => by
    obtain rfl : key = field := same
    rw [byField, setByField_plain selections below, mergeSiblings_distinct distinct]

theorem setByField_plain : ∀ set : List Selection, (∀ s ∈ set, s.Plain) → setByField set = set
  | [], _ => rfl
  | s :: rest, plain => by
    obtain ⟨here, later⟩ := List.forall_mem_cons.mp plain
    rw [setByField, byField_plain s here, setByField_plain rest later]

end

/-! ## Reading -/

mutual

/-- A field is refused if selection sets nest too deep below it, and for nothing else. -/
theorem fault?_node : ∀ (s : Selection) (levels : Nat),
    s.node.fault? levels = if s.depth ≤ levels then none else some .tooDeep
  | ⟨_, _, []⟩, levels => by simp [node, nodes, Node.fault?, depth, Literal.readableFields]
  | ⟨_, _, s :: rest⟩, 0 => by simp [node, nodes, Node.fault?, depth, Literal.readableFields]
  | ⟨_, _, s :: rest⟩, levels + 1 => by
    have below := setFault?_nodes (s :: rest) levels
    simpa [node, nodes, Node.fault?, depth, Literal.readableFields] using below

theorem setFault?_nodes : ∀ (set : List Selection) (levels : Nat),
    Node.setFault? levels (nodes set) = if setDepth set ≤ levels then none else some .tooDeep
  | [], levels => by simp [nodes, Node.setFault?, setDepth]
  | s :: rest, levels => by
    rw [nodes, Node.setFault?, fault?_node s levels, setFault?_nodes rest levels, setDepth]
    by_cases here : s.depth ≤ levels <;> by_cases later : setDepth rest ≤ levels <;>
      simp [here, later]

end

mutual

theorem flattenNode_node (spread : String → Except SpreadError (List FlatField)) :
    ∀ s : Selection, flattenNode spread s.node = .ok [⟨[], s.byField⟩]
  | ⟨_, field, selections⟩ => by
    rw [node, flattenNode, flattenSet_nodes spread selections, byField]
    simp [Function.comp_def]

theorem flattenSet_nodes (spread : String → Except SpreadError (List FlatField)) :
    ∀ set : List Selection, flattenSet spread (nodes set) = .ok ((setByField set).map (⟨[], ·⟩))
  | [] => rfl
  | s :: rest => by
    rw [nodes, flattenSet, flattenNode_node spread s, flattenSet_nodes spread rest]
    rfl

end

theorem rendered_chars (s : Selection) :
    s.rendered.toList = "subscription".toList ++ (" \x7b".toList ++ ' ' :: itemChars [s]) := by
  have parts : s.rendered = "subscription \x7b " ++ s.text ++ " \x7d" := rfl
  have written : s.text.toList = s.chars := String.toList_ofList
  rw [parts, String.toList_append, String.toList_append, written, itemChars]
  rfl

def renderedOperation (s : Selection) : Operation := ⟨.subscription, [], [], [s.node]⟩

theorem definition_rendered (named : s.Named) :
    definition s.rendered.toList = some (.operation none (renderedOperation s), []) := by
  have kind (cs : List Char) :
    operationKind? ("subscription".toList ++ cs) = some (.subscription, cs) := by
    rfl
  have unnamed (cs : List Char) : name? (" \x7b".toList ++ cs) = none := by rfl
  have undeclared (cs : List Char) : variableDefinitions (" \x7b".toList ++ cs) =
      some ([], " \x7b".toList ++ cs) := by rfl
  have plain (cs : List Char) :
    directives (" \x7b".toList ++ cs) = some ([], " \x7b".toList ++ cs) := by
    rfl
  have set : selectionSet (" \x7b".toList ++ ' ' :: itemChars [s]) = some ([s.node], []) := by
    have opens (cs : List Char) : mark? '\x7b' (" \x7b".toList ++ cs) = some cs := by rfl
    obtain ⟨fuel, counted⟩ : ∃ fuel,
        2 * fuelFor (" \x7b".toList ++ ' ' :: itemChars [s]) = fuel + 1 := ⟨_, rfl⟩
    rw [selectionSet, counted, selectionSetFuel, opens]
    refine nodesFuel_items [s] (by simp) (List.forall_mem_singleton.mpr named) ?_
      (by simp [skip_blank])
    simp only [fuelFor, List.length_append, List.length_cons] at counted
    omega
  rw [rendered_chars, definition, kind]
  simp only [unnamed, undeclared, plain, set, Option.bind_eq_bind, Option.bind_some]
  rfl

theorem parse_of_read {text : String} {ds : List Definition}
    (read : definitionsFuel (text.toList.length + 1) text.toList = some ds) :
    Document.parse text = Document.ofDefinitions ds := by
  simp only [Document.parse, read]

theorem parse_ofList {cs : List Char} {ds : List Definition}
    (read : definitionsFuel (cs.length + 1) cs = some ds) :
    Document.parse (String.ofList cs) = Document.ofDefinitions ds :=
  parse_of_read (by rwa [String.toList_ofList])

theorem parse_rendered (named : s.Named) : Document.parse s.rendered =
    if s.depth ≤ selectionDepthLimit then .ok ⟨.unnamed (renderedOperation s), []⟩
    else .error .tooDeep := by
  have read : definitionsFuel (s.rendered.toList.length + 1) s.rendered.toList =
      some [.operation none (renderedOperation s)] := by
    rw [definitionsFuel, definition_rendered named]
    rfl
  have fault : (Definition.operation none (renderedOperation s)).fault? =
      if s.depth ≤ selectionDepthLimit then none else some .tooDeep := by
    have only : setDepth [s] = s.depth := by simp [setDepth]
    exact only ▸ setFault?_nodes [s] selectionDepthLimit
  rw [parse_of_read read, Document.ofDefinitions, List.findSome?_cons, fault]
  by_cases fits : s.depth ≤ selectionDepthLimit
  · simp [fits, Document.gather, Document.addOperation]
  · simp [fits]

end GraphQL

namespace SubscriptionOperation

open GraphQL Selection

variable {s : Selection} {r : Request}

theorem ofRequest_rendered (named : s.Named) (written : r.query = s.rendered)
    (fits : s.depth ≤ selectionDepthLimit) :
    ofRequest r = .ok ⟨r.operationName?, s.byField, []⟩ := by
  have parsed : Document.parse r.query = .ok ⟨.unnamed (renderedOperation s), []⟩ := by
    rw [written, parse_rendered named, if_pos fits]
  have flat : flattenSet (resolveSpread [] 1 []) [s.node] = .ok [⟨[], s.byField⟩] := by
    simpa [nodes, setByField] using flattenSet_nodes (resolveSpread [] 1 []) [s]
  exact ofRequest_ok.mpr ⟨_, renderedOperation s, _, parsed, rfl, rfl, flat, rfl⟩

theorem ofRequest_rendered_deep (named : s.Named) (written : r.query = s.rendered)
    (deep : selectionDepthLimit < s.depth) : ofRequest r = .error (.document .tooDeep) := by
  rw [ofRequest, written, parse_rendered named, if_neg (Nat.not_le.mpr deep)]

/-- A tree without aliases is read as it was written. The tree of a request is read under the names
of its fields, unless fragments have made it deeper than one text may be. -/
theorem rendered_exact :
    (∀ s : Selection, s.Named → s.Plain → s.depth ≤ selectionDepthLimit →
      ∀ r : Request, r.query = s.rendered → ofRequest r = .ok ⟨r.operationName?, s, []⟩) ∧
    ∀ r₀ op, ofRequest r₀ = .ok op → ∀ r : Request, r.query = op.root.rendered →
      (op.root.depth ≤ selectionDepthLimit →
        ofRequest r = .ok ⟨r.operationName?, op.root.byField, []⟩) ∧
      (selectionDepthLimit < op.root.depth → ofRequest r = .error (.document .tooDeep)) := by
  constructor
  · intro s named plain fits r written
    rw [ofRequest_rendered named written fits, byField_plain s plain]
  · intro r₀ op accepted r written
    exact ⟨ofRequest_rendered (root_named accepted) written,
      ofRequest_rendered_deep (root_named accepted) written⟩

def wordsTree : Selection := .object "subscription" [.leaf "on", .object "true" [.leaf "fragment"]]

theorem wordsTree_named : wordsTree.Named := by
  have leaf {name : String} (isName : IsName name) : (Selection.leaf name).Named :=
    .mk isName fun _ member => nomatch member
  have top : IsName "subscription" :=
    ⟨'s', "ubscription".toList, by rfl, by rfl, List.all_eq_true.mp (by rfl)⟩
  have on : IsName "on" := ⟨'o', ['n'], by rfl, by rfl, List.all_eq_true.mp (by rfl)⟩
  have yes : IsName "true" := ⟨'t', ['r', 'u', 'e'], by rfl, by rfl, List.all_eq_true.mp (by rfl)⟩
  have below : IsName "fragment" :=
    ⟨'f', "ragment".toList, by rfl, by rfl, List.all_eq_true.mp (by rfl)⟩
  refine .mk top (List.forall_mem_cons.mpr ⟨leaf on, List.forall_mem_singleton.mpr ?_⟩)
  exact .mk yes (List.forall_mem_singleton.mpr (leaf below))

theorem wordsTree_plain : wordsTree.Plain := by
  have leaf (name : String) : (Selection.leaf name).Plain :=
    .mk rfl List.nodup_nil fun _ member => nomatch member
  refine .mk rfl (by unfold Distinct; decide) (List.forall_mem_cons.mpr ⟨leaf "on", ?_⟩)
  refine List.forall_mem_singleton.mpr ?_
  exact .mk rfl (by unfold Distinct; decide) (List.forall_mem_singleton.mpr (leaf "fragment"))

def aliasedRequest : Request where
  query := "subscription{e{x:a{b} y:a{c}}}"

def aliasedOperation : SubscriptionOperation where
  name? := none
  root := .object "e" [⟨"x", "a", [.leaf "b"]⟩, ⟨"y", "a", [.leaf "c"]⟩]
  arguments := []

theorem words_and_aliases_rendered :
    ofRequest { query := wordsTree.rendered } = .ok ⟨none, wordsTree, []⟩ ∧
      ofRequest aliasedRequest = .ok aliasedOperation ∧
      ofRequest { query := aliasedOperation.root.rendered } =
        .ok ⟨none, .object "e" [.object "a" [.leaf "b", .leaf "c"]], []⟩ := by
  have accepted : ofRequest aliasedRequest = .ok aliasedOperation := by cbv
  obtain ⟨plain, parsed⟩ := rendered_exact
  refine ⟨plain wordsTree wordsTree_named wordsTree_plain (by decide) _ rfl, accepted, ?_⟩
  exact (parsed aliasedRequest aliasedOperation accepted _ rfl).1 (by decide)

/-! ## A tree that is too deep for one text -/

def tower : Nat → Selection
  | 0 => .leaf "a"
  | n + 1 => .object "a" [tower n]

theorem tower_depth (n : Nat) : (tower n).depth = n := by
  induction n with
  | zero => rfl
  | succ n ih => simp [tower, object, depth, setDepth, ih]

def towerChars : Nat → List Char
  | 0 => ['a']
  | n + 1 => 'a' :: '\x7b' :: (towerChars n ++ ['\x7d'])

def deepChars : List Char :=
  "subscription{k:e{...F}}fragment F on T\x7b".toList ++ towerChars selectionDepthLimit ++ ['\x7d']

def deepRequest : Request where
  query := String.ofList deepChars

def deepOperation : SubscriptionOperation where
  name? := none
  root := ⟨"k", "e", [tower selectionDepthLimit]⟩
  arguments := []

def deepDocument : Document where
  operations := .unnamed ⟨.subscription, [], [], [.field (some "k") "e" [] [] [.spread "F" []]]⟩
  fragments := [⟨"F", [], [(tower selectionDepthLimit).node]⟩]

set_option maxRecDepth 4000 in
theorem deepChars_read : definitionsFuel (deepChars.length + 1) deepChars = some
    [.operation none ⟨.subscription, [], [], [.field (some "k") "e" [] [] [.spread "F" []]]⟩,
      .fragment ⟨"F", [], [(tower selectionDepthLimit).node]⟩] := by
  cbv

set_option maxRecDepth 4000 in
theorem deep_accepted : ofRequest deepRequest = .ok deepOperation := by
  have parsed : Document.parse deepRequest.query = .ok deepDocument :=
    (parse_ofList deepChars_read).trans (by cbv)
  exact ofRequest_ok.mpr ⟨_, _, ⟨[], deepOperation.root⟩, parsed, rfl, rfl, by cbv, rfl⟩

/-- What a request is accepted for may be refused when it is written as one text. -/
theorem deep_rendering_refused :
    ofRequest deepRequest = .ok deepOperation ∧ deepOperation.root.key ≠ deepOperation.root.field ∧
      ofRequest { query := deepOperation.root.rendered } = .error (.document .tooDeep) := by
  refine ⟨deep_accepted, by decide, ofRequest_rendered_deep (root_named deep_accepted) rfl ?_⟩
  simp [deepOperation, depth, setDepth, tower_depth]

end SubscriptionOperation

end SubscriptionGateway
