import SubscriptionGateway.GraphQL.Variables
import SubscriptionGateway.Proofs.Json.Values
import Mathlib.Data.List.Basic
import Mathlib.Data.List.Induction
import Mathlib.Data.List.Nodup

/-!
What a literal means when its variables have values. Lists and objects mean the list and the object
of what stands in them; of a key that is written more than once the first place and the last value
count. A literal written where a variable stood means the same if it means what the variable has.
-/
namespace SubscriptionGateway

def Last {α : Type} (pairs : List (String × α)) (key : String) (a : α) : Prop :=
  ∃ before after, pairs = before ++ (key, a) :: after ∧ ∀ p ∈ after, p.1 ≠ key

section Last

variable {α β : Type} {pairs more : List (String × α)} {p : String × α} {key : String} {a b : α}

theorem Last.mem (last : Last pairs key a) : (key, a) ∈ pairs := by
  obtain ⟨before, after, rfl, -⟩ := last
  simp

theorem not_last_nil : ¬ Last [] key a := fun last => nomatch last.mem

theorem last_append : Last (pairs ++ more) key a ↔
    Last more key a ∨ (∀ p ∈ more, p.1 ≠ key) ∧ Last pairs key a := by
  constructor
  · rintro ⟨before, after, same, absent⟩
    rcases List.append_eq_append_iff.mp same with ⟨between, rfl, rfl⟩ | ⟨between, rfl, rest⟩
    · exact .inl ⟨between, after, rfl, absent⟩
    · cases between with
      | nil =>
        rw [List.nil_append] at rest
        exact .inl ⟨[], after, rest.symm, absent⟩
      | cons q between =>
        obtain ⟨rfl, rfl⟩ := List.cons.inj rest
        exact .inr ⟨fun p member => absent p (by simp [member]), before, between, rfl,
          fun p member => absent p (by simp [member])⟩
  · rintro (⟨before, after, rfl, absent⟩ | ⟨none, before, after, rfl, absent⟩)
    · exact ⟨pairs ++ before, after, by simp, absent⟩
    · refine ⟨before, after ++ more, by simp, fun p member => ?_⟩
      exact (List.mem_append.mp member).elim (absent p) (none p)

theorem last_singleton : Last [p] key a ↔ p = (key, a) := by
  constructor
  · intro last
    exact (List.mem_singleton.mp last.mem).symm
  · rintro rfl
    exact ⟨[], [], rfl, by simp⟩

theorem exists_last (member : p ∈ pairs) (same : p.1 = key) : ∃ a, Last pairs key a := by
  induction pairs using List.reverseRecOn with
  | nil => cases member
  | append_singleton pairs q ih =>
    by_cases here : q.1 = key
    · exact ⟨q.2, last_append.mpr (.inl (last_singleton.mpr (by rw [← here])))⟩
    · have earlier : p ∈ pairs := by
        rcases List.mem_append.mp member with earlier | new
        · exact earlier
        · exact absurd (List.mem_singleton.mp new ▸ same) here
      obtain ⟨a, last⟩ := ih earlier
      exact ⟨a, last_append.mpr (.inr ⟨by simpa using here, last⟩)⟩

theorem Last.unique (last : Last pairs key a) (other : Last pairs key b) : a = b := by
  induction pairs using List.reverseRecOn with
  | nil => cases last.mem
  | append_singleton pairs p ih =>
    rw [last_append, last_singleton] at last other
    rcases last with rfl | ⟨differs, last⟩
    · rcases other with same | ⟨differs, -⟩
      · exact congrArg Prod.snd same
      · exact absurd rfl (differs _ (List.mem_singleton_self _))
    · rcases other with rfl | ⟨-, other⟩
      · exact absurd rfl (differs _ (List.mem_singleton_self _))
      · exact ih last other

theorem last_map {g : α → β} {b : β} :
    Last (pairs.map fun p => (p.1, g p.2)) key b ↔ ∃ a, Last pairs key a ∧ b = g a := by
  constructor
  · rintro ⟨before, after, same, absent⟩
    obtain ⟨first, rest, rfl, rfl, split⟩ := List.map_eq_append_iff.mp same
    obtain ⟨⟨key', a⟩, later, rfl, pair, rfl⟩ := List.map_eq_cons_iff.mp split
    cases pair
    refine ⟨a, ⟨first, later, rfl, fun p member => ?_⟩, rfl⟩
    exact absent _ (List.mem_map_of_mem (f := fun p => (p.1, g p.2)) member)
  · rintro ⟨a, ⟨before, after, rfl, absent⟩, rfl⟩
    refine ⟨before.map fun p => (p.1, g p.2), after.map fun p => (p.1, g p.2), by simp, ?_⟩
    exact List.forall_mem_map.mpr absent

end Last

namespace Json.Members

variable {ms ns : Members} {pairs : List (String × Json)} {key : String} {v : Json}

theorem ofList_append_singleton {p : String × Json} :
    ofList (pairs ++ [p]) = (ofList pairs).insert p.1 p.2 := by
  simp [ofList]

theorem get?_ofList : (ofList pairs).get? key = some v ↔ Last pairs key v := by
  induction pairs using List.reverseRecOn with
  | nil => exact ⟨fun found => (nomatch found), fun last => (not_last_nil last).elim⟩
  | append_singleton pairs p ih =>
    obtain ⟨k, w⟩ := p
    rw [ofList_append_singleton, get?_insert, last_append, last_singleton, ← ih]
    by_cases same : key = k
    · simp [same]
    · simp [same, Ne.symm same]

theorem get?_eq_none : ms.get? key = none ↔ key ∉ ms.keys := by
  induction ms with
  | nil => simp [get?, keys]
  | cons m rest ih =>
    obtain ⟨k, w⟩ := m
    by_cases same : k = key
    · simp [get?, keys, same]
    · simpa [get?, keys, same, Ne.symm same] using ih

theorem keys_insert :
    (ms.insert key v).keys = if key ∈ ms.keys then ms.keys else ms.keys ++ [key] := by
  induction ms with
  | nil => rfl
  | cons m rest ih =>
    obtain ⟨k, w⟩ := m
    by_cases same : k = key
    · simp [insert, keys, same]
    · have unseen : key ≠ k := Ne.symm same
      rw [insert, if_neg same, keys, List.map_cons, ← keys, ih]
      split <;> simp_all [keys]

theorem keys_ofList : (ofList pairs).keys = (pairs.map (·.1)).eraseDups := by
  induction pairs using List.reverseRecOn with
  | nil => rfl
  | append_singleton pairs p ih =>
    rw [ofList_append_singleton, keys_insert, ih, List.map_append, List.eraseDups_append]
    by_cases member : p.1 ∈ pairs.map (·.1)
    · simp_all [List.removeAll]
    · simp_all [List.removeAll, List.eraseDups_cons]

theorem nodup_ofList : (ofList pairs).keys.Nodup := by
  induction pairs using List.reverseRecOn with
  | nil => exact List.nodup_nil
  | append_singleton pairs p ih =>
    rw [ofList_append_singleton, keys_insert]
    split
    · exact ih
    · next fresh => simpa using ih.concat fresh

/-- Members with the same keys in the same places are told apart by their values alone. -/
theorem ext (distinct : ms.keys.Nodup) (same : ms.keys = ns.keys)
    (values : ∀ k v w, ms.get? k = some v → ns.get? k = some w → v = w) : ms = ns := by
  induction ms generalizing ns with
  | nil => exact (List.map_eq_nil_iff.mp same.symm).symm
  | cons m ms ih =>
    obtain ⟨⟨k, w⟩, ns, rfl, first, rest⟩ := List.map_eq_cons_iff.mp same.symm
    obtain ⟨k', v⟩ := m
    obtain rfl : k = k' := first
    obtain ⟨fresh, distinct⟩ := List.nodup_cons.mp distinct
    have here : v = w := values k v w (by simp [get?]) (by simp [get?])
    have below : ms = ns := by
      refine ih distinct rest.symm fun key a b found found' => values key a b ?_ ?_
      all_goals
        have other : k ≠ key := by
          rintro rfl
          exact fresh (Classical.byContradiction fun absent => by
            simp [get?_eq_none.mpr absent] at found)
        simpa [get?, other] using by assumption
    rw [here, below]

end Json.Members

namespace GraphQL

variable {l m : Literal} {v w : Json} {x : String}

inductive Mentions : Literal → String → Prop where
  | here {x : String} : Mentions (.variable x) x
  | item {items : List Literal} {l : Literal} {x : String} : l ∈ items → Mentions l x →
      Mentions (.list items) x
  | field {fields : List (String × Literal)} {name : String} {l : Literal} {x : String} :
      (name, l) ∈ fields → Mentions l x → Mentions (.object fields) x

/-- What a literal means where variables have the values that `bound` says. -/
inductive Means (bound : String → Json → Prop) : Literal → Json → Prop where
  | given {x : String} {v : Json} : bound x v → Means bound (.variable x) v
  | number (n : JsonNumber) : Means bound (.number n) (.number n)
  | string (s : String) : Means bound (.string s) (.string s)
  | bool (b : Bool) : Means bound (.bool b) (.bool b)
  | null : Means bound .null .null
  | enumerator (name : String) : Means bound (.enumerator name) (.string name)
  | list {items : List Literal} {values : List Json} : items.length = values.length →
      (∀ (i : Nat) l v, items[i]? = some l → values[i]? = some v → Means bound l v) →
      Means bound (.list items) (.array values)
  | object {fields : List (String × Literal)} {members : Json.Members} :
      members.keys = (fields.map (·.1)).eraseDups →
      (∀ name l v, Last fields name l → members.get? name = some v → Means bound l v) →
      Means bound (.object fields) (.object members)

abbrev Writes : Literal → Json → Prop := Means fun _ _ => False

/-- The second literal is the first, but for some of its variables: in their places stand literals
that write the values these have. -/
inductive Inlines (bound : String → Json → Prop) : Literal → Literal → Prop where
  | refl (l : Literal) : Inlines bound l l
  | written {x : String} {v : Json} {l : Literal} : bound x v → Writes l v →
      Inlines bound (.variable x) l
  | list {items others : List Literal} : items.length = others.length →
      (∀ (i : Nat) l m, items[i]? = some l → others[i]? = some m → Inlines bound l m) →
      Inlines bound (.list items) (.list others)
  | object {fields others : List (String × Literal)} : fields.map (·.1) = others.map (·.1) →
      (∀ (i : Nat) p q, fields[i]? = some p → others[i]? = some q → Inlines bound p.2 q.2) →
      Inlines bound (.object fields) (.object others)

/-! ## Values -/

theorem itemValues_eq (bound : Json.Members) (items : List Literal) :
    Literal.itemValues bound items = items.map (Literal.value bound) := by
  induction items with
  | nil => rfl
  | cons l items ih => rw [Literal.itemValues, ih, List.map_cons]

theorem fieldValues_eq (bound : Json.Members) (fields : List (String × Literal)) :
    Literal.fieldValues bound fields = fields.map fun p => (p.1, p.2.value bound) := by
  induction fields with
  | nil => rfl
  | cons p fields ih => rw [Literal.fieldValues, ih, List.map_cons]

theorem readableItems_iff {items : List Literal} :
    Literal.readableItems items = true ↔ ∀ l ∈ items, l.readable = true := by
  induction items with
  | nil => simp [Literal.readableItems]
  | cons l items ih => simp [Literal.readableItems, ih]

theorem readableFields_iff {fields : List (String × Literal)} :
    Literal.readableFields fields = true ↔ ∀ p ∈ fields, p.2.readable = true := by
  induction fields with
  | nil => simp [Literal.readableFields]
  | cons p fields ih => simp [Literal.readableFields, ih]

/-- The items of a list and the fields of an object are reached together with it. -/
@[elab_as_elim]
theorem Literal.deep {P : Literal → Prop} (free : ∀ x, P (.variable x))
    (number : ∀ n, P (.number n))
    (beyondRange : P .beyondRange) (string : ∀ s, P (.string s)) (bool : ∀ b, P (.bool b))
    (null : P .null) (enumerator : ∀ name, P (.enumerator name))
    (list : ∀ items, (∀ l ∈ items, P l) → P (.list items))
    (object : ∀ fields, (∀ p ∈ fields, P p.2) → P (.object fields)) (l : Literal) : P l :=
  @Literal.rec P (fun items => ∀ l ∈ items, P l) (fun fields => ∀ p ∈ fields, P p.2)
    (fun p => P p.2)
    free number beyondRange string bool null enumerator list object
    (fun _ member => nomatch member) (fun _ _ first rest => List.forall_mem_cons.mpr ⟨first, rest⟩)
    (fun _ member => nomatch member) (fun _ _ first rest => List.forall_mem_cons.mpr ⟨first, rest⟩)
    (fun _ _ second => second) l

section Values

variable {bound other : Json.Members} {B : String → Json → Prop}

theorem value_means (has : ∀ x, B x (bound.held x)) (readable : l.readable = true) :
    Means B l (l.value bound) := by
  induction l using Literal.deep with
  | free x => exact .given (has x)
  | beyondRange => cases readable
  | number | string | bool | null | enumerator => constructor
  | list items ih =>
    rw [Literal.readable, readableItems_iff] at readable
    rw [Literal.value, itemValues_eq]
    refine .list (List.length_map _).symm fun i l v here there => ?_
    have member := List.mem_of_getElem? here
    obtain rfl : l.value bound = v := by simpa [here] using there
    exact ih l member (readable l member)
  | object fields ih =>
    rw [Literal.readable, readableFields_iff] at readable
    rw [Literal.value, fieldValues_eq]
    refine .object (by rw [Json.Members.keys_ofList, List.map_map]; rfl) fun name l v last found =>
      ?_
    obtain ⟨l', last', rfl⟩ := last_map.mp (Json.Members.get?_ofList.mp found)
    obtain rfl := last.unique last'
    exact ih (name, l) last.mem (readable _ last.mem)

theorem Means.eq_value (has : ∀ x v, B x v → v = bound.held x) (means : Means B l v) :
    v = l.value bound := by
  induction means with
  | given is => exact has _ _ is
  | number | string | bool | null | enumerator => rfl
  | @list items values size _ ih =>
    rw [Literal.value, itemValues_eq]
    refine congrArg Json.array (List.ext_getElem (by simpa using size.symm) fun i here there => ?_)
    have inside : i < items.length := by omega
    rw [List.getElem_map]
    exact ih i items[i] values[i] (List.getElem?_eq_getElem inside) (List.getElem?_eq_getElem here)
  | @object fields members keys _ ih =>
    rw [Literal.value, fieldValues_eq]
    have same : members.keys =
        (Json.Members.ofList (fields.map fun p => (p.1, p.2.value bound))).keys := by
      rw [keys, Json.Members.keys_ofList, List.map_map]
      rfl
    refine congrArg Json.object (Json.Members.ext (same ▸ Json.Members.nodup_ofList) same ?_)
    intro name v w found found'
    obtain ⟨l, last, rfl⟩ := last_map.mp (Json.Members.get?_ofList.mp found')
    exact ih name l v last found

theorem Means.mono {C : String → Json → Prop} (means : Means B l v)
    (weaker : ∀ x w, Mentions l x → B x w → C x w) : Means C l v := by
  induction means with
  | given is => exact .given (weaker _ _ .here is)
  | number | string | bool | null | enumerator => constructor
  | list size _ ih =>
    refine .list size fun i l v here there => ih i l v here there fun x w mentions => ?_
    exact weaker x w (.item (List.mem_of_getElem? here) mentions)
  | object keys _ ih =>
    refine .object keys fun name l v last found => ih name l v last found fun x w mentions => ?_
    exact weaker x w (.field last.mem mentions)

theorem value_congr (alike : ∀ x, Mentions l x → bound.held x = other.held x) :
    l.value bound = l.value other := by
  induction l using Literal.deep with
  | free x => exact alike x .here
  | number | beyondRange | string | bool | null | enumerator => rfl
  | list items ih =>
    rw [Literal.value, Literal.value, itemValues_eq, itemValues_eq]
    refine congrArg Json.array (List.map_congr_left fun l member => ?_)
    exact ih l member fun x mentions => alike x (.item member mentions)
  | object fields ih =>
    rw [Literal.value, Literal.value, fieldValues_eq, fieldValues_eq]
    refine congrArg (Json.object ∘ Json.Members.ofList) (List.map_congr_left fun p member => ?_)
    rw [ih p member fun x mentions => alike x (.field member mentions)]

theorem Inlines.value (inlines : Inlines B l m) (has : ∀ x v, B x v → v = bound.held x)
    (alike : ∀ x, Mentions m x → other.held x = bound.held x) : m.value other = l.value bound := by
  induction inlines with
  | refl l => exact value_congr alike
  | written is writes =>
    rw [← writes.eq_value fun _ _ none => none.elim, has _ _ is]
    rfl
  | @list items others size _ ih =>
    rw [Literal.value, Literal.value, itemValues_eq, itemValues_eq]
    refine congrArg Json.array (List.ext_getElem (by simpa using size.symm) fun i here there => ?_)
    have inside : i < items.length := by simpa using there
    have inside' : i < others.length := by simpa using here
    rw [List.getElem_map, List.getElem_map]
    refine ih i items[i] others[i] (List.getElem?_eq_getElem inside)
      (List.getElem?_eq_getElem inside') ?_
    exact fun x mentions => alike x (.item (List.getElem_mem inside') mentions)
  | @object fields others names _ ih =>
    rw [Literal.value, Literal.value, fieldValues_eq, fieldValues_eq]
    have size : fields.length = others.length := by simpa using congrArg List.length names
    refine congrArg (Json.object ∘ Json.Members.ofList)
      (List.ext_getElem (by simpa using size.symm) fun i here there => ?_)
    have inside : i < fields.length := by simpa using there
    have inside' : i < others.length := by simpa using here
    rw [List.getElem_map, List.getElem_map]
    have name : fields[i].1 = others[i].1 := by
      have at_ := congrArg (·[i]?) names
      simpa [inside, inside'] using at_
    rw [name, ih i fields[i] others[i] (List.getElem?_eq_getElem inside)
      (List.getElem?_eq_getElem inside') fun x mentions =>
        alike x (.field (List.getElem_mem inside') mentions)]

end Values

end GraphQL

end SubscriptionGateway
