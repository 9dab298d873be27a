import SubscriptionGateway.Proofs.GraphQL.Merging
import SubscriptionGateway.Proofs.GraphQL.Spreads

/-!
Which selected paths the tree of an operation has. `Opens` lists the field occurrences of one
selection set, `Keeps` follows them down: at every level the first occurrence of a key that selects
the next key is the only one that is followed. The paths of the tree are those that are kept.
-/
namespace SubscriptionGateway

namespace GraphQL

open Selection

structure Occurrence where
  key : String
  name : String
  selections : List Node

/-- The field occurrences of a selection set in order, fragments opened. -/
inductive Opens (fragments : List Fragment) : List Node → List Occurrence → Prop where
  | nil : Opens fragments [] []
  | field {alias? name arguments directives selections nodes os} :
      Opens fragments nodes os →
      Opens fragments (.field alias? name arguments directives selections :: nodes)
        (⟨alias?.getD name, name, selections⟩ :: os)
  | inline {directives selections nodes below os} :
      Opens fragments selections below → Opens fragments nodes os →
      Opens fragments (.inline directives selections :: nodes) (below ++ os)
  | spread {name directives fragment nodes below os} :
      fragments.find? (·.name == name) = some fragment →
      Opens fragments fragment.selections below → Opens fragments nodes os →
      Opens fragments (.spread name directives :: nodes) (below ++ os)

/-- A path of response keys that merging keeps. Two keys down, an occurrence counts only if no
earlier one of its key selects the second key. -/
inductive Keeps (fragments : List Fragment) : List Node → List String → Prop where
  | here {nodes os o} : Opens fragments nodes os → o ∈ os → Keeps fragments nodes [o.key]
  | under {nodes before o after second path} :
      Opens fragments nodes (before ++ o :: after) →
      (∀ earlier ∈ before, earlier.key = o.key → ¬ Selects fragments earlier.selections [second]) →
      Keeps fragments o.selections (second :: path) →
      Keeps fragments nodes (o.key :: second :: path)

/-- The selections that a selection set is flattened to, before those of one key are merged. -/
inductive Built (fragments : List Fragment) : List Node → List Selection → Prop where
  | nil : Built fragments [] []
  | field {alias? name arguments directives selections below nodes set} :
      Built fragments selections below → Built fragments nodes set →
      Built fragments (.field alias? name arguments directives selections :: nodes)
        (⟨alias?.getD name, name, mergeSiblings below⟩ :: set)
  | inline {directives selections below nodes set} :
      Built fragments selections below → Built fragments nodes set →
      Built fragments (.inline directives selections :: nodes) (below ++ set)
  | spread {name directives fragment below nodes set} :
      fragments.find? (·.name == name) = some fragment →
      Built fragments fragment.selections below → Built fragments nodes set →
      Built fragments (.spread name directives :: nodes) (below ++ set)

variable {fragments : List Fragment} {nodes more : List Node} {node : Node} {p q : List String}
  {k : String} {os os' : List Occurrence} {set : List Selection}

/-! ## Opening -/

theorem opens_unique (opens : Opens fragments nodes os) (again : Opens fragments nodes os') :
    os = os' := by
  induction opens generalizing os' with
  | nil => cases again; rfl
  | field _ ih =>
    cases again with
    | field rest => rw [ih rest]
  | inline _ _ ihBelow ihRest =>
    cases again with
    | inline below rest => rw [ihBelow below, ihRest rest]
  | spread found _ _ ihBelow ihRest =>
    cases again with
    | spread found' below rest =>
      obtain rfl := Option.some.inj (found.symm.trans found')
      rw [ihBelow below, ihRest rest]

theorem selects_mono (selects : Selects fragments nodes p) (within : nodes ⊆ more) :
    Selects fragments more p := by
  cases selects with
  | here member => exact .here (within member)
  | under member below => exact .under (within member) below
  | inline member below => exact .inline (within member) below
  | spread member found below => exact .spread (within member) found below

theorem selects_cons :
    Selects fragments (node :: nodes) p ↔ Selects fragments [node] p ∨
      Selects fragments nodes p := by
  constructor
  · intro selects
    cases selects with
    | here member =>
      rcases List.mem_cons.mp member with rfl | rest
      · exact .inl (.here (List.mem_singleton_self _))
      · exact .inr (.here rest)
    | under member below =>
      rcases List.mem_cons.mp member with rfl | rest
      · exact .inl (.under (List.mem_singleton_self _) below)
      · exact .inr (.under rest below)
    | inline member below =>
      rcases List.mem_cons.mp member with rfl | rest
      · exact .inl (.inline (List.mem_singleton_self _) below)
      · exact .inr (.inline rest below)
    | spread member found below =>
      rcases List.mem_cons.mp member with rfl | rest
      · exact .inl (.spread (List.mem_singleton_self _) found below)
      · exact .inr (.spread rest found below)
  · rintro (first | rest)
    · exact selects_mono first (by simp)
    · exact selects_mono rest (by simp)

theorem selects_inline {directives : List Directive} :
    Selects fragments [.inline directives nodes] p ↔ Selects fragments nodes p := by
  constructor
  · intro selects
    cases selects <;> simp_all
  · exact .inline (List.mem_singleton_self _)

theorem selects_spread {name : String} {directives : List Directive} {fragment : Fragment}
    (found : fragments.find? (·.name == name) = some fragment) :
    Selects fragments [.spread name directives] p ↔ Selects fragments fragment.selections p := by
  constructor
  · intro selects
    cases selects <;> simp_all
  · exact .spread (List.mem_singleton_self _) found

/-- A chain of occurrences begins with one of those that the selection set opens to. -/
theorem selects_iff (opens : Opens fragments nodes os) :
    Selects fragments nodes (k :: p) ↔
      ∃ o ∈ os, o.key = k ∧ (p = [] ∨ Selects fragments o.selections p) := by
  induction opens with
  | nil =>
    refine ⟨fun selects => ?_, fun ⟨_, member, _⟩ => absurd member List.not_mem_nil⟩
    cases selects <;> simp_all
  | field _ ih =>
    rw [selects_cons, ih, List.exists_mem_cons_iff]
    refine or_congr_left ⟨fun selects => ?_, ?_⟩
    · cases selects with
      | here member => simp_all
      | under member below => simp_all
      | inline member below => simp at member
      | spread member found below => simp at member
    · rintro ⟨rfl, rfl | below⟩
      · exact .here (List.mem_singleton_self _)
      · exact .under (List.mem_singleton_self _) below
  | inline _ _ ihBelow ihRest =>
    rw [selects_cons, selects_inline, ihBelow, ihRest]
    simp only [List.mem_append, or_and_right, exists_or]
  | spread found _ _ ihBelow ihRest =>
    rw [selects_cons, selects_spread found, ihBelow, ihRest]
    simp only [List.mem_append, or_and_right, exists_or]

theorem selects_ne_nil (selects : Selects fragments nodes p) : p ≠ [] := by
  induction selects with
  | here => exact List.cons_ne_nil _ _
  | under => exact List.cons_ne_nil _ _
  | inline _ _ ih => exact ih
  | spread _ _ _ ih => exact ih

theorem selects_of_keeps (keeps : Keeps fragments nodes p) : Selects fragments nodes p := by
  induction keeps with
  | here opens member => exact (selects_iff opens).mpr ⟨_, member, rfl, .inl rfl⟩
  | under opens _ _ ih => exact (selects_iff opens).mpr ⟨_, by simp, rfl, .inr ih⟩

/-! ## Flattening -/

theorem Expands.built {fields : List FlatField} (expands : Expands fragments nodes fields) :
    Built fragments nodes (fields.map (·.selection)) := by
  induction expands with
  | nil => exact .nil
  | field _ _ below rest => exact .field below rest
  | inline _ _ below rest =>
    rw [List.map_append]
    exact .inline below rest
  | spread found _ _ below rest =>
    rw [List.map_append]
    exact .spread found below rest

theorem flatten_built {d : Document} {fields : List FlatField}
    (flat : d.flatten nodes = .ok fields) :
    Built d.fragments nodes (fields.map (·.selection)) :=
  (flatten_ok.mp flat).built

def BuiltFrom (fragments : List Fragment) (o : Occurrence) (s : Selection) : Prop :=
  s.key = o.key ∧ s.field = o.name ∧
    ∃ below, Built fragments o.selections below ∧ s.selections = mergeSiblings below

theorem built_opens (built : Built fragments nodes set) :
    ∃ sides : List (Occurrence × Selection), Opens fragments nodes (sides.map (·.1)) ∧
      sides.map (·.2) = set ∧ ∀ side ∈ sides, BuiltFrom fragments side.1 side.2 := by
  induction built with
  | nil => exact ⟨[], .nil, rfl, by simp⟩
  | field below _ _ ih =>
    obtain ⟨sides, opens, rfl, fits⟩ := ih
    refine ⟨(_, _) :: sides, .field opens, rfl, ?_⟩
    rintro side (_ | ⟨_, member⟩)
    · exact ⟨rfl, rfl, _, below, rfl⟩
    · exact fits side member
  | inline _ _ ihBelow ihRest =>
    obtain ⟨first, opensFirst, rfl, fitsFirst⟩ := ihBelow
    obtain ⟨rest, opensRest, rfl, fitsRest⟩ := ihRest
    refine ⟨first ++ rest, ?_, List.map_append, ?_⟩
    · rw [List.map_append]
      exact .inline opensFirst opensRest
    · intro side member
      exact (List.mem_append.mp member).elim (fitsFirst side) (fitsRest side)
  | spread found _ _ ihBelow ihRest =>
    obtain ⟨first, opensFirst, rfl, fitsFirst⟩ := ihBelow
    obtain ⟨rest, opensRest, rfl, fitsRest⟩ := ihRest
    refine ⟨first ++ rest, ?_, List.map_append, ?_⟩
    · rw [List.map_append]
      exact .spread found opensFirst opensRest
    · intro side member
      exact (List.mem_append.mp member).elim (fitsFirst side) (fitsRest side)

/-! ## Paths of the tree -/

variable {sides : List (Occurrence × Selection)}

theorem key_mem_iff (built : Built fragments nodes set) :
    [k] ∈ setPaths (mergeSiblings set) ↔ Selects fragments nodes [k] := by
  obtain ⟨sides, opens, rfl, fits⟩ := built_opens built
  rw [singleton_mem_mergeSiblings, selects_iff opens]
  simp only [List.mem_map, exists_exists_and_eq_and, true_or, and_true]
  constructor
  · rintro ⟨side, member, same⟩
    exact ⟨side, member, (fits side member).1.symm.trans same⟩
  · rintro ⟨side, member, same⟩
    exact ⟨side, member, (fits side member).1.trans same⟩

theorem fits_key {o : Occurrence} {s : Selection} (fits : BuiltFrom fragments o s) :
    [k] ∈ setPaths s.selections ↔ Selects fragments o.selections [k] := by
  obtain ⟨-, -, below, built, same⟩ := fits
  rw [same]
  exact key_mem_iff built

theorem fits_distinct (fits : ∀ side ∈ sides, BuiltFrom fragments side.1 side.2) :
    ∀ s ∈ sides.map (·.2), Distinct s.selections := by
  intro s member
  obtain ⟨side, inside, rfl⟩ := List.mem_map.mp member
  obtain ⟨-, -, below, -, same⟩ := fits side inside
  rw [same]
  exact distinct_mergeSiblings below

/-- The tree has the paths that are kept; the induction is on the path. -/
theorem mem_iff_keeps (built : Built fragments nodes set) :
    p ∈ setPaths (mergeSiblings set) ↔ Keeps fragments nodes p := by
  induction p generalizing nodes set with
  | nil =>
    refine ⟨fun member => absurd member not_mem_setPaths_nil, fun keeps => ?_⟩
    cases keeps
  | cons k p ih =>
    obtain ⟨sides, opens, rfl, fits⟩ := built_opens built
    cases p with
    | nil =>
      rw [key_mem_iff built, selects_iff opens]
      constructor
      · rintro ⟨o, member, rfl, -⟩
        exact .here opens member
      · intro keeps
        cases keeps with
        | here again member =>
          exact ⟨_, opens_unique again opens ▸ member, rfl, .inl rfl⟩
    | cons k' q =>
      rw [cons_mem_mergeSiblings (fits_distinct fits)]
      constructor
      · rintro ⟨before, s, after, parts, rfl, inside, first⟩
        obtain ⟨sidesBefore, others, rfl, rfl, partsAfter⟩ := List.map_eq_append_iff.mp parts
        obtain ⟨side, sidesAfter, rfl, rfl, rfl⟩ := List.map_eq_cons_iff.mp partsAfter
        obtain ⟨key, -, below, builtBelow, same⟩ := fits side (by simp)
        rw [List.map_append, List.map_cons] at opens
        rw [key]
        refine .under opens ?_ ((ih builtBelow).mp (same ▸ inside))
        intro o member sameKey
        obtain ⟨earlier, among, rfl⟩ := List.mem_map.mp member
        have fitsEarlier := fits earlier (List.mem_append_left _ among)
        rw [← fits_key fitsEarlier]
        exact first earlier.2 (List.mem_map.mpr ⟨earlier, among, rfl⟩)
          (fitsEarlier.1.trans (sameKey.trans key.symm))
      · intro keeps
        cases keeps with
        | under again free keeps =>
          -- There is one way to open a selection set, so the occurrence kept is one of these.
          have parts := opens_unique opens again
          obtain ⟨sidesBefore, others, rfl, rfl, partsAfter⟩ := List.map_eq_append_iff.mp parts
          obtain ⟨side, sidesAfter, rfl, rfl, rfl⟩ := List.map_eq_cons_iff.mp partsAfter
          obtain ⟨key, -, below, builtBelow, same⟩ := fits side (by simp)
          refine ⟨sidesBefore.map (·.2), side.2, sidesAfter.map (·.2), by simp, key, ?_, ?_⟩
          · rw [same]
            exact (ih builtBelow).mpr keeps
          · intro s member sameKey
            obtain ⟨earlier, among, rfl⟩ := List.mem_map.mp member
            have fitsEarlier := fits earlier (List.mem_append_left _ among)
            rw [fits_key fitsEarlier]
            exact free earlier.1 (List.mem_map.mpr ⟨earlier, among, rfl⟩)
              (fitsEarlier.1.symm.trans sameKey)

theorem pair_mem_iff {k' : String} (built : Built fragments nodes set) :
    [k, k'] ∈ setPaths (mergeSiblings set) ↔ Selects fragments nodes [k, k'] := by
  obtain ⟨sides, opens, rfl, fits⟩ := built_opens built
  rw [pair_mem_mergeSiblings (fits_distinct fits), selects_iff opens]
  simp only [List.mem_map, exists_exists_and_eq_and, List.cons_ne_nil, false_or]
  constructor
  · rintro ⟨side, member, same, inside⟩
    exact ⟨side, member, (fits side member).1.symm.trans same,
      (fits_key (fits side member)).mp inside⟩
  · rintro ⟨side, member, same, inside⟩
    exact ⟨side, member, (fits side member).1.trans same,
      (fits_key (fits side member)).mpr inside⟩

theorem short_mem_iff (built : Built fragments nodes set) (short : p.length ≤ 2) :
    p ∈ setPaths (mergeSiblings set) ↔ Selects fragments nodes p := by
  match p, short with
  | [], _ =>
    exact ⟨fun member => absurd member not_mem_setPaths_nil,
      fun selects => absurd rfl (selects_ne_nil selects)⟩
  | [k], _ => exact key_mem_iff built
  | [k, k'], _ => exact pair_mem_iff built

end GraphQL

open GraphQL Selection

theorem singleRoot_ok {fields : List FlatField} {f : FlatField}
    (single : SubscriptionOperation.singleRoot fields = .ok f) : fields = [f] := by
  cases fields with
  | nil => cases single
  | cons g others =>
    cases others with
    | nil => cases single; rfl
    | cons => cases single

/-- An accepted request has one root field, and below it the tree has exactly the kept paths. Of
the selected paths it has all of one or two keys. -/
theorem operation_keeps {r : Request} {op : SubscriptionOperation}
    (accepted : SubscriptionOperation.ofRequest r = .ok op) :
    ∃ d o root, Document.parse r.query = .ok d ∧ d.operation? r.operationName? = .ok o ∧
      Opens d.fragments o.selections [root] ∧ op.root.key = root.key ∧ op.root.field = root.name ∧
      ∀ p, (p ∈ setPaths op.root.selections ↔ Keeps d.fragments root.selections p) ∧
        (Keeps d.fragments root.selections p → Selects d.fragments root.selections p) ∧
        (p.length ≤ 2 → Selects d.fragments root.selections p →
          Keeps d.fragments root.selections p) := by
  simp only [SubscriptionOperation.ofRequest] at accepted
  split at accepted
  · cases accepted
  rename_i d parsed
  simp only [SubscriptionOperation.ofDocument] at accepted
  split at accepted
  · cases accepted
  rename_i o chosen
  split at accepted
  · cases accepted
  split at accepted
  · cases accepted
  rename_i fields flat
  split at accepted
  · cases accepted
  rename_i f single
  cases accepted
  obtain rfl := singleRoot_ok single
  obtain ⟨sides, opens, same, fits⟩ := built_opens (flatten_built flat)
  obtain ⟨side, rfl, root⟩ := List.map_eq_singleton_iff.mp same
  obtain ⟨key, name, below, built, merged⟩ := fits side (List.mem_singleton_self _)
  rw [root] at key name merged
  refine ⟨d, o, side.1, parsed, chosen, opens, key, name, fun p => ?_⟩
  have tree : p ∈ setPaths f.selection.selections ↔ Keeps d.fragments side.1.selections p := by
    rw [merged]
    exact mem_iff_keeps built
  refine ⟨tree, selects_of_keeps, fun short selects => tree.mp ?_⟩
  rw [merged]
  exact (short_mem_iff built short).mpr selects

def nestedRequest : Request where
  query := "subscription { e { a { b { c } } a { b { d } } } }"
  operationName? := none
  variables? := none

def nestedField (name : String) (selections : List Node) : Node := .field none name [] [] selections

def nestedRoot : List Node :=
  [nestedField "a" [nestedField "b" [nestedField "c" []]],
    nestedField "a" [nestedField "b" [nestedField "d" []]]]

def nestedSelections : List Node := [nestedField "e" nestedRoot]

def nestedOperation : SubscriptionOperation where
  name? := none
  root := .object "e" [.object "a" [.object "b" [.leaf "c"]]]
  arguments := .nil

theorem nested_operation_keeps :
    SubscriptionOperation.ofRequest nestedRequest = .ok nestedOperation ∧
      ∃ d o root, Document.parse nestedRequest.query = .ok d ∧ d.operation? none = .ok o ∧
        Opens d.fragments o.selections [root] ∧
        Selects d.fragments root.selections ["a", "b", "d"] ∧
        ¬ Keeps d.fragments root.selections ["a", "b", "d"] ∧
        ["a", "b", "d"] ∉ setPaths nestedOperation.root.selections := by
  have accepted : SubscriptionOperation.ofRequest nestedRequest = .ok nestedOperation := by cbv
  have lost : ["a", "b", "d"] ∉ setPaths nestedOperation.root.selections := by decide
  have reads : Document.parse nestedRequest.query =
      .ok ⟨.unnamed ⟨.subscription, [], [], nestedSelections⟩, []⟩ := by cbv
  obtain ⟨d, o, root, parsed, chosen, opens, -, -, tree⟩ := operation_keeps accepted
  obtain rfl := Except.ok.inj (reads.symm.trans parsed)
  obtain rfl := Except.ok.inj chosen
  obtain rfl := List.singleton_inj.mp (opens_unique (.field .nil) opens)
  refine ⟨accepted, _, _, _, parsed, chosen, opens, ?_,
    fun keeps => lost ((tree _).1.mpr keeps), lost⟩
  have below : Selects [] [nestedField "b" [nestedField "d" []]] ["b", "d"] :=
    .under (List.mem_singleton_self _) (.here (List.mem_singleton_self _))
  exact .under (List.mem_cons_of_mem _ (List.mem_singleton_self _)) below

end SubscriptionGateway
