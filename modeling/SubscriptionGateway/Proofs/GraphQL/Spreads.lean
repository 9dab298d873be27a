import SubscriptionGateway.Subscription.Operation
import Mathlib

/-!
Fragments that refer to each other in any way. Opening them comes to an end: a selection set is
opened in full, or a spread is met that has no fragment or is inside its own. Which of these it is
can be told from what refers to what, and what is told of it is the first in reading order.
-/
namespace SubscriptionGateway

namespace GraphQL

variable {fragments : List Fragment} {within : List String} {node : Node}
  {nodes selections : List Node}
  {fields : List FlatField} {name : String} {directives : List Directive} {e e' : SpreadError}
  {p q : List Nat} {f : Fragment}

/-! ## What a selection set stands for -/

/-- A selection set with every spread of a fragment replaced by all that the fragment selects. -/
inductive Expands (fragments : List Fragment) : List Node → List FlatField → Prop where
  | nil : Expands fragments [] []
  | field {alias? : Option String} {name : String} {arguments : Arguments}
      {directives : List Directive} {selections nodes : List Node} {below more : List FlatField} :
      Expands fragments selections below → Expands fragments nodes more →
      Expands fragments (.field alias? name arguments directives selections :: nodes)
        (⟨arguments, alias?.getD name, name, mergeSiblings (below.map (·.selection))⟩ :: more)
  | inline {directives : List Directive} {selections nodes : List Node}
      {fields more : List FlatField} :
      Expands fragments selections fields → Expands fragments nodes more →
      Expands fragments (.inline directives selections :: nodes) (fields ++ more)
  | spread {name : String} {directives : List Directive} {f : Fragment} {nodes : List Node}
      {fields more : List FlatField} : fragments.find? (·.name == name) = some f →
      Expands fragments f.selections fields → Expands fragments nodes more →
      Expands fragments (.spread name directives :: nodes) (fields ++ more)

/-- A spread that cannot be opened, inside the fragments named by `within`. Its place is told by the
places of all that it stands in, outermost first. -/
inductive FaultAt (fragments : List Fragment) :
    List String → Node → List Nat → SpreadError → Prop where
  | again {within : List String} {name : String} {directives : List Directive} : name ∈ within →
      FaultAt fragments within (.spread name directives) [] (.withinItself name)
  | unknown {within : List String} {name : String} {directives : List Directive} : name ∉ within →
      fragments.find? (·.name == name) = none →
      FaultAt fragments within (.spread name directives) [] (.unknown name)
  | spread {within : List String} {name : String} {directives : List Directive} {f : Fragment}
      {i : Nat} {node : Node} {p : List Nat} {e : SpreadError} : name ∉ within →
      fragments.find? (·.name == name) = some f → f.selections[i]? = some node →
      FaultAt fragments (name :: within) node p e →
      FaultAt fragments within (.spread name directives) (i :: p) e
  | field {within : List String} {alias? : Option String} {name : String} {arguments : Arguments}
      {directives : List Directive} {selections : List Node} {i : Nat} {node : Node} {p : List Nat}
      {e : SpreadError} : selections[i]? = some node → FaultAt fragments within node p e →
      FaultAt fragments within (.field alias? name arguments directives selections) (i :: p) e
  | inline {within : List String} {directives : List Directive} {selections : List Node} {i : Nat}
      {node : Node} {p : List Nat} {e : SpreadError} : selections[i]? = some node →
      FaultAt fragments within node p e →
      FaultAt fragments within (.inline directives selections) (i :: p) e

def Faulty (fragments : List Fragment) (within : List String) (nodes : List Node) (p : List Nat)
    (e : SpreadError) : Prop :=
  ∃ i node q, p = i :: q ∧ nodes[i]? = some node ∧ FaultAt fragments within node q e

/-- What is wrong with the first spread, in reading order, that cannot be opened. -/
def FirstFault (fragments : List Fragment) (nodes : List Node) (e : SpreadError) : Prop :=
  ∃ p, Faulty fragments [] nodes p e ∧ ∀ q e', Faulty fragments [] nodes q e' → ¬ q < p

/-! ## What refers to what -/

inductive Spreads : List Node → String → Prop where
  | here {nodes : List Node} {name : String} {directives : List Directive} :
      .spread name directives ∈ nodes → Spreads nodes name
  | field {nodes : List Node} {alias? : Option String} {field : String} {arguments : Arguments}
      {directives : List Directive} {selections : List Node} {name : String} :
      .field alias? field arguments directives selections ∈ nodes → Spreads selections name →
      Spreads nodes name
  | inline {nodes : List Node} {directives : List Directive} {selections : List Node}
      {name : String} :
      .inline directives selections ∈ nodes → Spreads selections name → Spreads nodes name

def Refers (fragments : List Fragment) (name other : String) : Prop :=
  ∃ f, fragments.find? (·.name == name) = some f ∧ Spreads f.selections other

def Reachable (fragments : List Fragment) (nodes : List Node) (name : String) : Prop :=
  ∃ first, Spreads nodes first ∧ Relation.ReflTransGen (Refers fragments) first name

/-! ## Places of faults -/

theorem not_faulty_nil : ¬ Faulty fragments within [] p e := by
  rintro ⟨i, node, q, -, here, -⟩
  simp at here

theorem faulty_cons : Faulty fragments within (node :: nodes) p e ↔
    (∃ q, p = 0 :: q ∧ FaultAt fragments within node q e) ∨
      ∃ i q, p = (i + 1) :: q ∧ Faulty fragments within nodes (i :: q) e := by
  constructor
  · rintro ⟨i, other, q, rfl, here, fault⟩
    cases i with
    | zero =>
      obtain rfl : node = other := by simpa using here
      exact .inl ⟨q, rfl, fault⟩
    | succ i => exact .inr ⟨i, q, rfl, i, other, q, rfl, by simpa using here, fault⟩
  · rintro (⟨q, rfl, fault⟩ | ⟨i, q, rfl, _, other, _, same, here, fault⟩)
    · exact ⟨0, node, q, rfl, rfl, fault⟩
    · cases same
      exact ⟨i + 1, other, q, rfl, by simpa using here, fault⟩

theorem faultAt_field {alias? : Option String} {arguments : Arguments} :
    FaultAt fragments within (.field alias? name arguments directives selections) p e ↔
      Faulty fragments within selections p e := by
  constructor
  · intro fault
    cases fault with
    | field here inside => exact ⟨_, _, _, rfl, here, inside⟩
  · rintro ⟨i, node, q, rfl, here, inside⟩
    exact .field here inside

theorem faultAt_inline : FaultAt fragments within (.inline directives selections) p e ↔
    Faulty fragments within selections p e := by
  constructor
  · intro fault
    cases fault with
    | inline here inside => exact ⟨_, _, _, rfl, here, inside⟩
  · rintro ⟨i, node, q, rfl, here, inside⟩
    exact .inline here inside

theorem faultAt_spread (fresh : name ∉ within) (found : fragments.find? (·.name == name) = some f) :
    FaultAt fragments within (.spread name directives) p e ↔
      Faulty fragments (name :: within) f.selections p e := by
  constructor
  · intro fault
    cases fault with
    | again met => exact absurd met fresh
    | unknown _ none => cases none.symm.trans found
    | spread _ found' here inside =>
      obtain rfl := Option.some.inj (found.symm.trans found')
      exact ⟨_, _, _, rfl, here, inside⟩
  · rintro ⟨i, node, q, rfl, here, inside⟩
    exact .spread fresh found here inside

/-! ## Opening in reading order -/

/-- An outcome tells the faults of a selection set: without any the set is opened in full, and
otherwise the first is told. -/
def TellsFaults (fragments : List Fragment) (faulty : List Nat → SpreadError → Prop)
    (nodes : List Node) :
    Except SpreadError (List FlatField) → Prop
  | .ok fields => Expands fragments nodes fields ∧ ∀ p e, ¬ faulty p e
  | .error e => ∃ p, faulty p e ∧ ∀ q e', faulty q e' → ¬ q < p

theorem Expands.append (first : Expands fragments [node] fields) {more : List FlatField}
    (rest : Expands fragments nodes more) : Expands fragments (node :: nodes) (fields ++ more) := by
  cases first with
  | field below none => cases none; exact .field below rest
  | inline inside none => cases none; simpa using Expands.inline inside rest
  | spread found inside none => cases none; simpa using Expands.spread found inside rest

theorem Expands.singleton_inline (inside : Expands fragments selections fields) :
    Expands fragments [.inline directives selections] fields :=
  List.append_nil fields ▸ .inline inside .nil

theorem Expands.singleton_spread (found : fragments.find? (·.name == name) = some f)
    (inside : Expands fragments f.selections fields) :
    Expands fragments [.spread name directives] fields :=
  List.append_nil fields ▸ .spread found inside .nil

mutual

theorem flattenNode_tells {spread : String → Except SpreadError (List FlatField)}
    (opens : ∀ name directives, TellsFaults fragments
      (FaultAt fragments within (.spread name directives))
      [.spread name directives] (spread name)) :
    ∀ node, TellsFaults fragments (FaultAt fragments within node) [node] (flattenNode spread node)
  | .field alias? name arguments directives selections => by
    have told := flattenSet_tells opens selections
    simp only [flattenNode]
    split
    · next e failed =>
      rw [failed] at told
      simpa only [TellsFaults, faultAt_field] using told
    · next below done =>
      rw [done] at told
      simp only [TellsFaults, faultAt_field]
      exact ⟨.field told.1 .nil, told.2⟩
  | .inline directives selections => by
    have told := flattenSet_tells opens selections
    rw [flattenNode]
    cases done : flattenSet spread selections with
    | error e =>
      rw [done] at told
      simpa only [TellsFaults, faultAt_inline] using told
    | ok fields =>
      rw [done] at told
      simp only [TellsFaults, faultAt_inline]
      exact ⟨told.1.singleton_inline, told.2⟩
  | .spread name directives => opens name directives

theorem flattenSet_tells {spread : String → Except SpreadError (List FlatField)}
    (opens : ∀ name directives, TellsFaults fragments
      (FaultAt fragments within (.spread name directives))
      [.spread name directives] (spread name)) :
    ∀ nodes, TellsFaults fragments (Faulty fragments within nodes) nodes (flattenSet spread nodes)
  | [] => ⟨.nil, fun _ _ => not_faulty_nil⟩
  | node :: nodes => by
    have first := flattenNode_tells opens node
    have rest := flattenSet_tells opens nodes
    simp only [flattenSet]
    split
    · next e failed =>
      rw [failed] at first
      obtain ⟨p, fault, least⟩ := first
      refine ⟨0 :: p, faulty_cons.mpr (.inl ⟨p, rfl, fault⟩), fun q e' other before => ?_⟩
      rcases faulty_cons.mp other with ⟨q, rfl, here⟩ | ⟨i, q, rfl, -⟩
      · exact least q e' here (by simpa [List.cons_lt_cons_iff] using before)
      · simp [List.cons_lt_cons_iff] at before
    · next fields done =>
      rw [done] at first
      split
      · next e failed =>
        rw [failed] at rest
        obtain ⟨_, fault, least⟩ := rest
        obtain ⟨i, other, p, rfl, -⟩ := id fault
        refine ⟨(i + 1) :: p, faulty_cons.mpr (.inr ⟨i, p, rfl, fault⟩),
          fun q e' other before => ?_⟩
        rcases faulty_cons.mp other with ⟨q, rfl, here⟩ | ⟨j, q, rfl, later⟩
        · exact first.2 q e' here
        · exact least (j :: q) e' later (by simpa [List.cons_lt_cons_iff] using before)
      · next more done' =>
        rw [done'] at rest
        refine ⟨first.1.append rest.1, fun p e fault => ?_⟩
        rcases faulty_cons.mp fault with ⟨q, -, here⟩ | ⟨i, q, -, later⟩
        · exact first.2 q e here
        · exact rest.2 _ e later

end

/-- With more fuel than there are fragments left to open, a spread is opened as far as its faults
let it be. -/
theorem resolveSpread_tells {fuel : Nat} (nodup : within.Nodup)
    (known : ∀ name ∈ within, name ∈ fragments.map (·.name))
    (enough : fragments.length < within.length + fuel) (name : String)
    (directives : List Directive) :
    TellsFaults fragments (FaultAt fragments within (.spread name directives))
      [.spread name directives]
      (resolveSpread fragments fuel within name) := by
  induction fuel generalizing within name directives with
  | zero =>
    have few := (List.subperm_of_subset nodup known).length_le
    rw [List.length_map] at few
    omega
  | succ fuel ih =>
    rw [resolveSpread]
    split
    · next met =>
      refine ⟨[], .again met, fun q e' _ before => ?_⟩
      simp at before
    · next fresh =>
      split
      · next none =>
        refine ⟨[], .unknown fresh none, fun q e' _ before => ?_⟩
        simp at before
      · next f found =>
        have here : name ∈ fragments.map (·.name) := by
          have named := List.find?_some found
          exact List.mem_map.mpr ⟨f, List.mem_of_find?_eq_some found, by simpa using named⟩
        have told := flattenSet_tells (ih (List.nodup_cons.mpr ⟨fresh, nodup⟩)
          (List.forall_mem_cons.mpr ⟨here, known⟩) (by simp only [List.length_cons]; omega))
            f.selections
        cases done : flattenSet (resolveSpread fragments fuel (name :: within)) f.selections with
        | error e =>
          rw [done] at told
          simpa only [TellsFaults, faultAt_spread fresh found] using told
        | ok fields =>
          rw [done] at told
          simp only [TellsFaults, faultAt_spread fresh found]
          exact ⟨told.1.singleton_spread found, told.2⟩

/-- Opening with fuel for every fragment once, or with more, tells the faults of a selection set. -/
theorem flatten_tells (fragments : List Fragment) (nodes : List Node) (more : Nat) :
    TellsFaults fragments (Faulty fragments [] nodes) nodes
      (flattenSet (resolveSpread fragments (fragments.length + 1 + more) []) nodes) :=
  flattenSet_tells (resolveSpread_tells List.nodup_nil (by simp) (by simp; omega)) nodes

/-! ## Outcomes by what refers to what -/

theorem Spreads.of_mem (member : node ∈ nodes) (spreads : Spreads [node] name) :
    Spreads nodes name := by
  cases spreads with
  | here only => exact .here (List.mem_singleton.mp only ▸ member)
  | field only inside => exact .field (List.mem_singleton.mp only ▸ member) inside
  | inline only inside => exact .inline (List.mem_singleton.mp only ▸ member) inside

theorem spreads_cons : Spreads (node :: nodes) name ↔ Spreads [node] name ∨ Spreads nodes name := by
  constructor
  · intro spreads
    cases spreads with
    | here member =>
      exact (List.mem_cons.mp member).imp (fun same => .here (by rw [same]; simp)) .here
    | field member inside =>
      exact (List.mem_cons.mp member).imp (fun same => .field (by rw [same]; simp) inside)
        (.field · inside)
    | inline member inside =>
      exact (List.mem_cons.mp member).imp (fun same => .inline (by rw [same]; simp) inside)
        (.inline · inside)
  · rintro (first | later)
    · exact first.of_mem (by simp)
    · cases later with
      | here member => exact .here (.tail _ member)
      | field member inside => exact .field (.tail _ member) inside
      | inline member inside => exact .inline (.tail _ member) inside

theorem Reachable.of_mem (member : node ∈ nodes) (reachable : Reachable fragments [node] name) :
    Reachable fragments nodes name := by
  obtain ⟨first, inside, later⟩ := reachable
  exact ⟨first, inside.of_mem member, later⟩

theorem FaultAt.reachable (fault : FaultAt fragments within node p e) :
    ∃ name, Reachable fragments [node] name ∧ (fragments.find? (·.name == name) = none ∨
      name ∈ within ∨ Relation.TransGen (Refers fragments) name name) := by
  induction fault with
  | @again _ name directives met => exact ⟨name, ⟨name, .here (.head _), .refl⟩, .inr (.inl met)⟩
  | @unknown _ name directives _ none => exact ⟨name, ⟨name, .here (.head _), .refl⟩, .inl none⟩
  | @spread within name directives f i node p e fresh found here _ ih =>
    obtain ⟨other, reachable, fate⟩ := ih
    obtain ⟨first, inside, later⟩ := reachable.of_mem (List.mem_of_getElem? here)
    have refers : Refers fragments name first := ⟨f, found, inside⟩
    refine ⟨other, ⟨name, .here (.head _), .head refers later⟩, ?_⟩
    rcases fate with none | open_ | cycle
    · exact .inl none
    · rcases List.mem_cons.mp open_ with rfl | earlier
      · exact .inr (.inr (.head' refers later))
      · exact .inr (.inl earlier)
    · exact .inr (.inr cycle)
  | field here _ ih =>
    obtain ⟨other, reachable, fate⟩ := ih
    obtain ⟨first, inside, later⟩ := reachable.of_mem (List.mem_of_getElem? here)
    exact ⟨other, ⟨first, .field (.head _) inside, later⟩, fate⟩
  | inline here _ ih =>
    obtain ⟨other, reachable, fate⟩ := ih
    obtain ⟨first, inside, later⟩ := reachable.of_mem (List.mem_of_getElem? here)
    exact ⟨other, ⟨first, .inline (.head _) inside, later⟩, fate⟩

/-- Whatever the name reaches has a fragment and does not reach itself. -/
def Resolvable (fragments : List Fragment) (name : String) : Prop :=
  ∀ other, Relation.ReflTransGen (Refers fragments) name other →
    fragments.find? (·.name == other) ≠ none ∧ ¬ Relation.TransGen (Refers fragments) other other

theorem resolvable_of_refers (found : fragments.find? (·.name == name) = some f)
    (below : ∀ other, Spreads f.selections other → Resolvable fragments other) :
    Resolvable fragments name := by
  have settled : ∀ next, Refers fragments name next → Resolvable fragments next := by
    rintro next ⟨g, found', inside⟩
    obtain rfl := Option.some.inj (found.symm.trans found')
    exact below next inside
  intro other path
  rcases path.cases_head with rfl | ⟨next, refers, later⟩
  · refine ⟨by simp [found], fun cycle => ?_⟩
    obtain ⟨next, refers, back⟩ := Relation.TransGen.head'_iff.mp cycle
    exact (settled next refers name back).2 cycle
  · exact settled next refers other later

theorem Expands.resolvable (expands : Expands fragments nodes fields)
    (spreads : Spreads nodes name) :
    Resolvable fragments name := by
  induction expands generalizing name with
  | nil => cases spreads with
    | here none | field none | inline none => nomatch none
  | field _ _ inside later =>
    rcases spreads_cons.mp spreads with first | rest
    · cases first with
      | here only => cases List.mem_singleton.mp only
      | field only below => cases List.mem_singleton.mp only; exact inside below
      | inline only => cases List.mem_singleton.mp only
    · exact later rest
  | inline _ _ inside later =>
    rcases spreads_cons.mp spreads with first | rest
    · cases first with
      | here only => cases List.mem_singleton.mp only
      | field only => cases List.mem_singleton.mp only
      | inline only below => cases List.mem_singleton.mp only; exact inside below
    · exact later rest
  | spread found _ _ inside later =>
    rcases spreads_cons.mp spreads with first | rest
    · cases first with
      | here only =>
        cases List.mem_singleton.mp only
        exact resolvable_of_refers found fun _ => inside
      | field only => cases List.mem_singleton.mp only
      | inline only => cases List.mem_singleton.mp only
    · exact later rest

theorem Expands.unique {others : List FlatField} (expands : Expands fragments nodes fields)
    (other : Expands fragments nodes others) : fields = others := by
  induction expands generalizing others with
  | nil => cases other; rfl
  | field _ _ inside later =>
    cases other with
    | field below rest => rw [inside below, later rest]
  | inline _ _ inside later =>
    cases other with
    | inline below rest => rw [inside below, later rest]
  | spread found _ _ inside later =>
    cases other with
    | spread found' below rest =>
      obtain rfl := Option.some.inj (found.symm.trans found')
      rw [inside below, later rest]

theorem FaultAt.unique (fault : FaultAt fragments within node p e)
    (other : FaultAt fragments within node p e') : e = e' := by
  induction fault with
  | again met =>
    cases other with
    | again => rfl
    | unknown fresh => exact absurd met fresh
  | unknown fresh none =>
    cases other with
    | again met => exact absurd met fresh
    | unknown => rfl
  | spread fresh found here _ ih =>
    cases other with
    | spread _ found' here' inside =>
      obtain rfl := Option.some.inj (found.symm.trans found')
      obtain rfl := Option.some.inj (here.symm.trans here')
      exact ih inside
  | field here _ ih =>
    cases other with
    | field here' inside =>
      obtain rfl := Option.some.inj (here.symm.trans here')
      exact ih inside
  | inline here _ ih =>
    cases other with
    | inline here' inside =>
      obtain rfl := Option.some.inj (here.symm.trans here')
      exact ih inside

theorem Faulty.unique (fault : Faulty fragments within nodes p e)
    (other : Faulty fragments within nodes p e') : e = e' := by
  obtain ⟨i, node, q, rfl, here, inside⟩ := fault
  obtain ⟨_, _, _, same, here', inside'⟩ := other
  cases same
  obtain rfl := Option.some.inj (here.symm.trans here')
  exact inside.unique inside'

theorem FirstFault.unique (first : FirstFault fragments nodes e)
    (other : FirstFault fragments nodes e') :
    e = e' := by
  obtain ⟨p, fault, least⟩ := first
  obtain ⟨q, fault', least'⟩ := other
  obtain rfl : p = q := List.le_antisymm (least q e' fault') (least' p e fault)
  exact fault.unique fault'

theorem FirstFault.reachable (first : FirstFault fragments nodes e) : ∃ name,
    Reachable fragments nodes name ∧
      (fragments.find? (·.name == name) = none ∨
        Relation.TransGen (Refers fragments) name name) := by
  obtain ⟨_, ⟨_, node, _, rfl, here, fault⟩, -⟩ := first
  obtain ⟨name, reachable, fate⟩ := fault.reachable
  exact ⟨name, reachable.of_mem (List.mem_of_getElem? here), by simpa using fate⟩

theorem Expands.not_reachable (expands : Expands fragments nodes fields)
    (reachable : Reachable fragments nodes name) :
    fragments.find? (·.name == name) ≠ none ∧ ¬ Relation.TransGen (Refers fragments) name name := by
  obtain ⟨first, spreads, later⟩ := reachable
  exact expands.resolvable spreads name later

section Flatten

variable {d : Document}

theorem flatten_ok : d.flatten nodes = .ok fields ↔ Expands d.fragments nodes fields := by
  have told := flatten_tells d.fragments nodes 0
  rw [Nat.add_zero, ← Document.flatten] at told
  constructor
  · intro done
    rw [done] at told
    exact told.1
  · intro expands
    cases outcome : d.flatten nodes with
    | ok others =>
      rw [outcome] at told
      rw [told.1.unique expands]
    | error e =>
      rw [outcome] at told
      obtain ⟨name, reachable, fate⟩ := FirstFault.reachable told
      have fine := expands.not_reachable reachable
      exact absurd fate (not_or.mpr fine)

theorem flatten_error : d.flatten nodes = .error e ↔ FirstFault d.fragments nodes e := by
  have told := flatten_tells d.fragments nodes 0
  rw [Nat.add_zero, ← Document.flatten] at told
  constructor
  · intro failed
    rw [failed] at told
    exact told
  · intro first
    cases outcome : d.flatten nodes with
    | ok fields =>
      rw [outcome] at told
      obtain ⟨p, fault, -⟩ := first
      exact absurd fault (told.2 p e)
    | error e' =>
      rw [outcome] at told
      rw [FirstFault.unique told first]

theorem flatten_fuel (more : Nat) :
    flattenSet (resolveSpread d.fragments (d.fragments.length + 1 + more) []) nodes =
      d.flatten nodes := by
  have told := flatten_tells d.fragments nodes more
  cases outcome :
    flattenSet (resolveSpread d.fragments (d.fragments.length + 1 + more) []) nodes with
  | ok fields =>
    rw [outcome] at told
    exact (flatten_ok.mpr told.1).symm
  | error e =>
    rw [outcome] at told
    exact (flatten_error.mpr told).symm

theorem flatten_fails : (∃ e, d.flatten nodes = .error e) ↔
    ∃ name, Reachable d.fragments nodes name ∧
    (d.fragments.find? (·.name == name) = none ∨
      Relation.TransGen (Refers d.fragments) name name) := by
  constructor
  · rintro ⟨e, failed⟩
    exact (flatten_error.mp failed).reachable
  · rintro ⟨name, reachable, fate⟩
    cases outcome : d.flatten nodes with
    | error e => exact ⟨e, rfl⟩
    | ok fields => exact absurd fate (not_or.mpr ((flatten_ok.mp outcome).not_reachable reachable))

end Flatten

end GraphQL

namespace SubscriptionOperation

open GraphQL

variable {r : Request} {d : Document} {o : GraphQL.Operation}

theorem ofRequest_ok {op : SubscriptionOperation} : ofRequest r = .ok op ↔ ∃ d o f,
    Document.parse r.query = .ok d ∧ d.operation? r.operationName? = .ok o ∧
      o.kind = .subscription ∧
      d.flatten o.selections = .ok [f] ∧ op = ⟨r.operationName?, f.selection,
        argumentValues (bindVariables o.declared r.variables?) f.arguments⟩ := by
  constructor
  · intro accepted
    unfold ofRequest at accepted
    split at accepted
    · cases accepted
    · next d parsed =>
      unfold ofDocument at accepted
      split at accepted
      · cases accepted
      · next o chosen =>
        split at accepted
        · cases accepted
        · next kind =>
          split at accepted
          · cases accepted
          · next fields flat =>
            rcases fields with _ | ⟨f, _ | ⟨g, more⟩⟩ <;> cases accepted
            exact ⟨d, o, f, parsed, chosen, not_not.mp kind, flat, rfl⟩
  · rintro ⟨d, o, f, parsed, chosen, kind, flat, rfl⟩
    simp [ofRequest, parsed, ofDocument, chosen, kind, flat, singleRoot]

theorem ofRequest_spread {e : SpreadError} (parsed : Document.parse r.query = .ok d)
    (selected : d.operation? r.operationName? = .ok o) (kind : o.kind = .subscription) :
    ofRequest r = .error (.spread e) ↔ d.flatten o.selections = .error e := by
  simp only [ofRequest, parsed, ofDocument, selected, kind, ne_eq, not_true_eq_false, if_false]
  cases d.flatten o.selections with
  | error e' => simp
  | ok fields =>
    rcases fields with _ | ⟨f, _ | ⟨g, more⟩⟩ <;> simp [singleRoot]

/-- Opening the fragments of a request's document comes to an end, and it fails only for a spread
within reach that has no fragment or reaches itself. The first of these in reading order is told. -/
theorem fragments_exact (parsed : Document.parse r.query = .ok d)
    (selected : d.operation? r.operationName? = .ok o) (kind : o.kind = .subscription) :
    (∀ more, flattenSet (resolveSpread d.fragments (d.fragments.length + 1 + more) [])
      o.selections =
      d.flatten o.selections) ∧
    (∀ fields, d.flatten o.selections = .ok fields ↔ Expands d.fragments o.selections fields) ∧
    ((∃ e, d.flatten o.selections = .error e) ↔ ∃ name, Reachable d.fragments o.selections name ∧
      (d.fragments.find? (·.name == name) = none ∨
        Relation.TransGen (Refers d.fragments) name name)) ∧
    (∀ e, d.flatten o.selections = .error e ↔ FirstFault d.fragments o.selections e) ∧
    ∀ e, ofRequest r = .error (.spread e) ↔ FirstFault d.fragments o.selections e :=
  ⟨flatten_fuel, fun _ => flatten_ok, flatten_fails, fun _ => flatten_error,
    fun _ => (ofRequest_spread parsed selected kind).trans flatten_error⟩

def sharedText : String :=
  "subscription Tree{a{...P ...Q}} subscription Loop{...R ...S} " ++
    "fragment P on T{...Q} fragment Q on T{b} fragment R on T{c{...R}}"

def sharedField (name : String) (selections : List Node) : Node := .field none name [] [] selections

def treeOperation : GraphQL.Operation :=
  ⟨.subscription, [], [], [sharedField "a" [.spread "P" [], .spread "Q" []]]⟩

def loopOperation : GraphQL.Operation := ⟨.subscription, [], [], [.spread "R" [], .spread "S" []]⟩

def sharedDocument : Document where
  operations := .named [("Tree", treeOperation), ("Loop", loopOperation)]
  fragments := [⟨"P", [], [.spread "Q" []]⟩, ⟨"Q", [], [sharedField "b" []]⟩,
    ⟨"R", [], [sharedField "c" [.spread "R" []]]⟩]

def sharedRequest (operation : String) : Request := ⟨sharedText, none, operation, none⟩

set_option maxRecDepth 2000 in
/-- A fragment that is spread twice is opened twice, and one that reaches itself is told before one
that is missing. -/
theorem shared_fragments_exact :
    Document.parse sharedText = .ok sharedDocument ∧
      Expands sharedDocument.fragments treeOperation.selections [⟨[], .object "a" [.leaf "b"]⟩] ∧
      FirstFault sharedDocument.fragments loopOperation.selections (.withinItself "R") ∧
      ofRequest (sharedRequest "Loop") = .error (.spread (.withinItself "R")) := by
  -- `cbv` opens the tests of characters by equations that come with the whole of Mathlib only.
  have parsed : Document.parse sharedText = .ok sharedDocument := by cbv
  obtain ⟨-, opens, -⟩ := fragments_exact (r := sharedRequest "Tree") parsed rfl rfl
  obtain ⟨-, -, -, first, told⟩ := fragments_exact (r := sharedRequest "Loop") parsed rfl rfl
  have fault := (first (.withinItself "R")).mp (by cbv)
  exact ⟨parsed, (opens _).mp (by cbv), fault, (told _).mpr fault⟩

end SubscriptionOperation

end SubscriptionGateway
