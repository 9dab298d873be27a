import SubscriptionGateway.Proofs.GraphQL.Literals
import SubscriptionGateway.Subscription.Catalog

/-!
The arguments a request is served with. They are what its document writes, with the values of
variables in the places of variables. So it is the same to write a value and to give it in a
variable, and variables that the arguments do not mention decide nothing.
-/
namespace SubscriptionGateway

open GraphQL

variable {r r' : Request} {o : GraphQL.Operation} {x : String} {v w : Json}

def Request.Provides (r : Request) (x : String) (v : Json) : Prop :=
  ∃ members, r.variables? = some (.object members) ∧ Last members x v

def GraphQL.Operation.Defaults (o : GraphQL.Operation) (x : String) (v : Json) : Prop :=
  ∃ before decl after l, o.declared = before ++ decl :: after ∧ decl.name = x ∧
    decl.default? = some l ∧ Writes l v ∧ ∀ other ∈ after, other.name = x → other.default? = none

/-- The value of a variable: what the request gives, else the default, else null. -/
inductive Request.Binds (r : Request) (o : GraphQL.Operation) : String → Json → Prop where
  | provided {x : String} {v : Json} : r.Provides x v → Binds r o x v
  | default {x : String} {v : Json} : (∀ w, ¬ r.Provides x w) → o.Defaults x v → Binds r o x v
  | absent {x : String} : (∀ w, ¬ r.Provides x w) →
      (∀ decl ∈ o.declared, decl.name = x → decl.default? = none) → Binds r o x .null

def Request.Root (r : Request) (o : GraphQL.Operation) (f : FlatField) : Prop :=
  ∃ d, Document.parse r.query = .ok d ∧ d.operation? r.operationName? = .ok o ∧
    d.flatten o.selections = .ok [f]

/-! ## Values of variables -/

def Request.provided (r : Request) : Json.Members := (r.variables?.bind Json.asObject?).getD []

theorem provides_iff : r.Provides x v ↔ Last r.provided x v := by
  unfold Request.Provides Request.provided
  rcases r.variables? with _ | j
  · simp [not_last_nil]
  · cases j <;> simp [Json.asObject?, not_last_nil]

theorem provides_none : (∀ v, ¬ r.Provides x v) ↔ ∀ p ∈ r.provided, p.1 ≠ x := by
  constructor
  · intro none p member same
    obtain ⟨v, last⟩ := exists_last member same
    exact none v (provides_iff.mpr last)
  · intro absent v provides
    exact absent _ (provides_iff.mp provides).mem rfl

theorem last_defaults {declared : List VariableDefinition} : Last (defaults declared) x v ↔
    ∃ before decl after l, declared = before ++ decl :: after ∧ decl.name = x ∧
      decl.default? = some l ∧ v = l.value [] ∧ ∀ other ∈ after, other.name = x →
        other.default? = none := by
  constructor
  · rintro ⟨first, last, same, absent⟩
    obtain ⟨before, rest, rfl, -, split⟩ := List.filterMap_eq_append_iff.mp same
    obtain ⟨between, decl, after, rfl, -, given, later⟩ := List.filterMap_eq_cons_iff.mp split
    obtain ⟨l, default, pair⟩ := Option.map_eq_some_iff.mp given
    cases pair
    refine ⟨before ++ between, decl, after,
      l, by simp, rfl, default, rfl, fun other member name => ?_⟩
    cases its : other.default? with
    | none => rfl
    | some m =>
      refine absurd name (absent (other.name, m.value []) ?_)
      rw [← later]
      exact List.mem_filterMap.mpr ⟨other, member, by rw [its]; rfl⟩
  · rintro ⟨before, decl, after, l, rfl, rfl, default, rfl, none⟩
    refine ⟨defaults before, defaults after, by simp [defaults, default], fun p member same => ?_⟩
    obtain ⟨other, inside, given⟩ := List.mem_filterMap.mp member
    obtain ⟨m, its, rfl⟩ := Option.map_eq_some_iff.mp given
    rw [none other inside same] at its
    cases its

theorem writes_eq {l : Literal} (writes : Writes l v) : v = l.value [] :=
  Means.eq_value (fun _ _ none => none.elim) writes

theorem writes_value {l : Literal} (readable : l.readable = true) (constant : Constant l) :
    Writes l (l.value []) :=
  (value_means (B := fun x v => v = Json.Members.held [] x) (fun _ => rfl) readable).mono
    fun x _ mentions _ => constant x mentions

section Binds

variable (fine : ∀ decl ∈ o.declared, decl.readable = true ∧ decl.Constant)

include fine

theorem defaults_iff : o.Defaults x v ↔ Last (defaults o.declared) x v := by
  rw [last_defaults]
  constructor
  · rintro ⟨before, decl, after, l, split, name, default, writes, none⟩
    exact ⟨before, decl, after, l, split, name, default, writes_eq writes, none⟩
  · rintro ⟨before, decl, after, l, split, name, default, rfl, none⟩
    obtain ⟨readable, constant⟩ := fine decl (by simp [split])
    rw [VariableDefinition.readable, default, Bool.and_eq_true] at readable
    exact ⟨before, decl, after, l, split, name, default,
      writes_value readable.2 (constant l default), none⟩

theorem get?_bindVariables : (bindVariables o.declared r.variables?).get? x = some v ↔
    r.Provides x v ∨ (∀ w, ¬ r.Provides x w) ∧ o.Defaults x v := by
  rw [bindVariables, Json.Members.get?_ofList, last_append, defaults_iff fine, provides_none,
    provides_iff]
  rfl

theorem Request.Binds.eq_held (binds : r.Binds o x v) :
    v = (bindVariables o.declared r.variables?).held x := by
  rw [Json.Members.held]
  cases binds with
  | provided provides => rw [(get?_bindVariables fine).mpr (.inl provides), Option.getD_some]
  | default none default =>
      rw [(get?_bindVariables fine).mpr (.inr ⟨none, default⟩), Option.getD_some]
  | absent none undeclared =>
    cases found : (bindVariables o.declared r.variables?).get? x with
    | none => rfl
    | some w =>
      rcases (get?_bindVariables fine).mp found with provides | ⟨-, _, decl, _, l, split,
        name, default, -⟩
      · exact absurd provides (none w)
      · cases (undeclared decl (by simp [split]) name).symm.trans default

theorem exists_binds : ∃ v, r.Binds o x v := by
  by_cases none : ∀ v, ¬ r.Provides x v
  · by_cases declared : ∃ v, o.Defaults x v
    · obtain ⟨v, default⟩ := declared
      exact ⟨v, .default none default⟩
    · refine ⟨.null, .absent none fun decl member name => ?_⟩
      cases default : decl.default? with
      | none => rfl
      | some l =>
        have written : (x, l.value []) ∈ defaults o.declared :=
          List.mem_filterMap.mpr ⟨decl, member, by rw [default, ← name]; rfl⟩
        obtain ⟨v, last⟩ := exists_last written rfl
        exact absurd ⟨v, (defaults_iff fine).mpr last⟩ declared
  · obtain ⟨v, provides⟩ := not_forall_not.mp none
    exact ⟨v, .provided provides⟩

theorem binds_iff : r.Binds o x v ↔ v = (bindVariables o.declared r.variables?).held x := by
  refine ⟨Request.Binds.eq_held fine, ?_⟩
  rintro rfl
  obtain ⟨v, binds⟩ := exists_binds (r := r) (x := x) fine
  exact binds.eq_held fine ▸ binds

end Binds

theorem Request.Binds.congr (alike : ∀ w, r.Provides x w ↔ r'.Provides x w)
    (binds : r.Binds o x v) :
    r'.Binds o x v := by
  cases binds with
  | provided provides => exact .provided ((alike v).mp provides)
  | default none default =>
      exact .default (fun w provides => none w ((alike w).mpr provides)) default
  | absent none undeclared =>
    exact .absent (fun w provides => none w ((alike w).mpr provides)) undeclared

/-! ## Arguments -/

theorem Request.Root.fine {f : FlatField} (root : r.Root o f) :
    (∀ decl ∈ o.declared, decl.readable = true ∧ decl.Constant) ∧
      Literal.readableFields f.arguments = true := by
  obtain ⟨d, parsed, chosen, flat⟩ := root
  have member := operation?_mem chosen
  exact ⟨defaults_constant parsed member,
    flatten_readable parsed member flat f (List.mem_singleton_self f)⟩

theorem Request.Root.unique {f g : FlatField} {o' : GraphQL.Operation} (root : r.Root o f)
    (other : r.Root o' g) : o = o' ∧ f = g := by
  obtain ⟨d, parsed, chosen, flat⟩ := root
  obtain ⟨d', parsed', chosen', flat'⟩ := other
  obtain rfl := Except.ok.inj (parsed.symm.trans parsed')
  obtain rfl := Except.ok.inj (chosen.symm.trans chosen')
  exact ⟨rfl, List.singleton_inj.mp (Except.ok.inj (flat.symm.trans flat'))⟩

theorem object_value (bound : Json.Members) (arguments : Arguments) :
    (Literal.object arguments).value bound = .object (argumentValues bound arguments) := by
  rw [Literal.value, argumentValues]

theorem sourceKey_congr {c : Catalog} {op op' : SubscriptionOperation}
    (accepted : SubscriptionOperation.ofRequest r = .ok op)
    (accepted' : SubscriptionOperation.ofRequest r' = .ok op')
    (arguments : op'.arguments = op.arguments)
    (field : op'.fieldName = op.fieldName) :
    (c.compile r').map (·.sourceKey) = (c.compile r).map (·.sourceKey) := by
  simp only [Catalog.compile, accepted, accepted', Catalog.compileOperation, field, arguments]
  cases c.find? op.fieldName with
  | none => rfl
  | some f => dsimp only; cases Catalog.renderTopics op.arguments f.topics <;> rfl

namespace SubscriptionOperation

/-- The arguments are what the root field of the document writes, read with the variables of the
request. Values written out in the places of variables give the same arguments from the same source,
and variables that the arguments do not mention change nothing. -/
theorem arguments_exact {op : SubscriptionOperation} (accepted : ofRequest r = .ok op) :
    ∃ o f, r.Root o f ∧ op.root = f.selection ∧
      (∀ v, Means (r.Binds o) (.object f.arguments) v ↔ v = .object op.arguments) ∧
      (∀ r' op' o' f', ofRequest r' = .ok op' → r'.Root o' f' →
        Inlines (r.Binds o) (.object f.arguments) (.object f'.arguments) →
        (∀ x, Mentions (.object f'.arguments) x → ∀ v, r'.Binds o' x v ↔ r.Binds o x v) →
        op'.arguments = op.arguments ∧ (op'.fieldName = op.fieldName → ∀ c : Catalog,
          (c.compile r').map (·.sourceKey) = (c.compile r).map (·.sourceKey))) ∧
      ∀ r' : Request, r'.query = r.query → r'.operationName? = r.operationName? →
        (∀ x, Mentions (.object f.arguments) x → ∀ v, r'.Provides x v ↔ r.Provides x v) →
        ofRequest r' = .ok op ∧ ∀ c : Catalog, c.compile r' = c.compile r := by
  obtain ⟨d, o, f, parsed, chosen, kind, flat, rfl⟩ := ofRequest_ok.mp accepted
  have root : r.Root o f := ⟨d, parsed, chosen, flat⟩
  obtain ⟨fine, readable⟩ := root.fine
  have value := object_value (bindVariables o.declared r.variables?) f.arguments
  refine ⟨o, f, root, rfl, fun v => ?_, ?_, ?_⟩
  · constructor
    · intro means
      exact (means.eq_value fun _ _ => (binds_iff fine).mp).trans value
    · rintro rfl
      exact value ▸ value_means (fun _ => (binds_iff fine).mpr rfl) (by rwa [Literal.readable])
  · intro r' op' o' f' accepted' root' inlines alike
    obtain ⟨d', o'', f'', parsed', chosen', -, flat', rfl⟩ := ofRequest_ok.mp accepted'
    obtain ⟨rfl, rfl⟩ := root'.unique ⟨d', parsed', chosen', flat'⟩
    have same := inlines.value (fun _ _ => (binds_iff fine).mp) fun x mentions =>
      (binds_iff fine).mp ((alike x mentions _).mp ((binds_iff root'.fine.1).mpr rfl))
    rw [object_value, object_value] at same
    have arguments := Json.object.inj same
    exact ⟨arguments, fun field c => sourceKey_congr accepted accepted' arguments field⟩
  · intro r' query name alike
    have same := value_congr fun x mentions =>
      (binds_iff fine).mp (((binds_iff fine).mpr rfl).congr (alike x mentions))
    rw [object_value, object_value] at same
    have accepted' : ofRequest r' = .ok ⟨r.operationName?, f.selection,
        argumentValues (bindVariables o.declared r.variables?) f.arguments⟩ := by
      refine ofRequest_ok.mpr ⟨d, o, f, by rwa [query], by rwa [name], kind, flat, ?_⟩
      rw [name, Json.object.inj same]
    refine ⟨accepted', fun c => ?_⟩
    rw [Catalog.compile, Catalog.compile, accepted, accepted']

def givenArguments : Arguments := [("k", .list [.variable "a", .variable "b"])]

def writtenArguments : Arguments := [("k", .list [.bool true, .null])]

def givenDefinition : GraphQL.Operation where
  kind := .subscription
  declared := [⟨"a", [], some (.bool true)⟩, ⟨"b", [], none⟩]
  directives := []
  selections := [.field none "e" givenArguments [] []]

def writtenDefinition : GraphQL.Operation where
  kind := .subscription
  declared := []
  directives := []
  selections := [.field none "e" writtenArguments [] []]

def givenRequest : Request where
  query := "subscription($a:B=true,$b:B){e(k:[$a,$b])}"
  variables? := some (.object [("b", .null), ("c", .bool false)])

def fewerRequest : Request := { givenRequest with variables? := some (.object [("b", .null)]) }

def writtenRequest : Request where
  query := "subscription{e(k:[true,null])}"

def writtenOperation : SubscriptionOperation where
  name? := none
  root := .leaf "e"
  arguments := [("k", .array [.bool true, .null])]

theorem given_inlines : Inlines (givenRequest.Binds givenDefinition)
    (.object givenArguments) (.object writtenArguments) := by
  have a : givenRequest.Binds givenDefinition "a" (.bool true) :=
    .default (provides_none.mpr (by decide)) ⟨[], _, _, _, rfl, rfl, rfl, .bool true, by simp⟩
  have b : givenRequest.Binds givenDefinition "b" .null :=
    .provided ⟨_, rfl, [], _, rfl, by simp⟩
  refine .object rfl ?_
  rintro (_ | i) p q here there <;> cases here
  cases there
  refine .list rfl ?_
  rintro (_ | _ | i) l m here there <;> cases here <;> cases there
  · exact .written a (.bool true)
  · exact .written b .null

theorem given_mentions {x : String} (mentions : Mentions (.object givenArguments) x) : x ≠ "c" := by
  cases mentions with
  | field field inside =>
    cases List.mem_singleton.mp field
    cases inside with
    | item member inside =>
      rcases List.mem_pair.mp member with rfl | rfl <;> cases inside <;> decide

theorem written_constant : Constant (.object writtenArguments) := by
  refine constant_object (List.forall_mem_singleton.mpr (constant_list ?_))
  intro l member x mentions
  rcases List.mem_pair.mp member with rfl | rfl <;> cases mentions

theorem given_arguments_exact :
    ofRequest givenRequest = .ok writtenOperation ∧
      (∀ v, Means (givenRequest.Binds givenDefinition) (.object givenArguments) v ↔
        v = .object writtenOperation.arguments) ∧
      (∀ c : Catalog, (c.compile writtenRequest).map (·.sourceKey) =
        (c.compile givenRequest).map (·.sourceKey)) ∧
      ofRequest fewerRequest = .ok writtenOperation := by
  have accepted : ofRequest givenRequest = .ok writtenOperation := by cbv
  have accepted' : ofRequest writtenRequest = .ok writtenOperation := by cbv
  have read : Document.parse givenRequest.query = .ok ⟨.unnamed givenDefinition, []⟩ := by cbv
  have read' : Document.parse writtenRequest.query = .ok ⟨.unnamed writtenDefinition, []⟩ := by cbv
  have root : givenRequest.Root givenDefinition ⟨givenArguments, .leaf "e"⟩ := ⟨_, read, rfl, rfl⟩
  have root' : writtenRequest.Root writtenDefinition ⟨writtenArguments, .leaf "e"⟩ :=
    ⟨_, read', rfl, rfl⟩
  obtain ⟨o, f, chosen, -, means, written, others⟩ := arguments_exact accepted
  obtain ⟨rfl, rfl⟩ := chosen.unique root
  refine ⟨accepted, means, ?_, ?_⟩
  · exact (written writtenRequest _ _ _ accepted' root' given_inlines
      fun x mentions => absurd mentions (written_constant x)).2 rfl
  · refine (others fewerRequest rfl rfl fun x mentions v => ?_).1
    have split : givenRequest.provided = fewerRequest.provided ++ [("c", .bool false)] := rfl
    rw [provides_iff, provides_iff, split, last_append, last_singleton]
    simp [Ne.symm (given_mentions mentions)]

end SubscriptionOperation

end SubscriptionGateway
