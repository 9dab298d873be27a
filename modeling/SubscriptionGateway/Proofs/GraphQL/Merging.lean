import SubscriptionGateway.GraphQL.Flattening
import Mathlib.Data.List.Induction
import Mathlib.Data.List.Nodup

/-!
What merging keeps of selections. Of fields with one key, each adds to the first the keys of the
next level that are not there yet. The sub-selections of a key that is there already are not looked
at, so two levels are complete, and further down the first field that has the key decides alone.
-/
namespace SubscriptionGateway

namespace Selection

variable {k k' : String} {q : List String} {s t : Selection} {set rest more : List Selection}

theorem mem_setPaths (p : List String) :
    p ∈ setPaths set ↔ ∃ s ∈ set, p ∈ paths s := by
  induction set with
  | nil => simp [setPaths]
  | cons s rest ih => simp [setPaths, ih]

theorem mem_paths (p : List String) :
    p ∈ paths s ↔ p = [s.key] ∨ ∃ q ∈ setPaths s.selections, s.key :: q = p := by
  obtain ⟨key, field, selections⟩ := s
  simp [paths]

theorem not_mem_setPaths_nil : [] ∉ setPaths set := by
  intro member
  obtain ⟨s, -, below⟩ := (mem_setPaths []).mp member
  rcases (mem_paths []).mp below with same | ⟨q, -, same⟩ <;> cases same

@[simp] theorem setPaths_empty (p : List String) : p ∉ setPaths [] := by
  simp [setPaths]

theorem singleton_mem_setPaths : [k] ∈ setPaths set ↔ ∃ s ∈ set, s.key = k := by
  rw [mem_setPaths]
  constructor
  · rintro ⟨s, member, below⟩
    rcases (mem_paths _).mp below with same | ⟨q, inside, same⟩
    · exact ⟨s, member, (List.cons.inj same).1.symm⟩
    · obtain ⟨-, rfl⟩ := List.cons.inj same
      exact absurd inside not_mem_setPaths_nil
  · rintro ⟨s, member, rfl⟩
    exact ⟨s, member, (mem_paths _).mpr (.inl rfl)⟩

theorem cons_mem_setPaths :
    k :: k' :: q ∈ setPaths set ↔ ∃ s ∈ set, s.key = k ∧ k' :: q ∈ setPaths s.selections := by
  rw [mem_setPaths]
  constructor
  · rintro ⟨s, member, below⟩
    rcases (mem_paths _).mp below with same | ⟨p, inside, same⟩
    · cases same
    · obtain ⟨rfl, rfl⟩ := List.cons.inj same
      exact ⟨s, member, rfl, inside⟩
  · rintro ⟨s, member, rfl, inside⟩
    exact ⟨s, member, (mem_paths _).mpr (.inr ⟨_, inside, rfl⟩)⟩

theorem cons_mem_setPaths_single :
    k :: k' :: q ∈ setPaths [s] ↔ s.key = k ∧ k' :: q ∈ setPaths s.selections := by
  simp [cons_mem_setPaths]

theorem setPaths_cons (p : List String) :
    p ∈ setPaths (s :: rest) ↔ p ∈ setPaths [s] ∨ p ∈ setPaths rest := by
  simp [setPaths]

theorem setPaths_append (p : List String) :
    p ∈ setPaths (set ++ more) ↔ p ∈ setPaths set ∨ p ∈ setPaths more := by
  simp only [mem_setPaths, List.mem_append, or_and_right, exists_or]

theorem head_mem_setPaths (below : k :: q ∈ setPaths set) : [k] ∈ setPaths set := by
  cases q with
  | nil => exact below
  | cons k' q =>
    obtain ⟨s, member, same, -⟩ := cons_mem_setPaths.mp below
    exact singleton_mem_setPaths.mpr ⟨s, member, same⟩

def Distinct (set : List Selection) : Prop := (set.map (·.key)).Nodup

theorem distinct_cons (distinct : Distinct (s :: rest)) :
    [s.key] ∉ setPaths rest ∧ Distinct rest := by
  obtain ⟨fresh, rest⟩ := List.nodup_cons.mp distinct
  refine ⟨fun member => ?_, rest⟩
  obtain ⟨t, member, same⟩ := singleton_mem_setPaths.mp member
  exact fresh (List.mem_map.mpr ⟨t, member, same⟩)

end Selection

namespace GraphQL

open Selection

variable {k k' : String} {p q : List String} {s t : Selection}
  {set siblings have_ more : List Selection}

/-! ## Merging -/

theorem setPaths_addMissing (distinct : Distinct more) :
    k :: q ∈ setPaths (addMissing have_ more) ↔
      k :: q ∈ setPaths have_ ∨ ([k] ∉ setPaths have_ ∧ k :: q ∈ setPaths more) := by
  induction more generalizing have_ with
  | nil => simp [addMissing]
  | cons s more ih =>
    obtain ⟨fresh, distinct⟩ := distinct_cons distinct
    have head (below : k :: q ∈ setPaths [s]) : k = s.key := by
      obtain ⟨t, member, same⟩ := singleton_mem_setPaths.mp (head_mem_setPaths below)
      rw [← same, List.mem_singleton.mp member]
    rw [addMissing, setPaths_cons]
    split
    · rename_i present
      have present : [s.key] ∈ setPaths have_ := by
        simpa [singleton_mem_setPaths] using present
      rw [ih distinct]
      constructor
      · rintro (first | ⟨absent, later⟩)
        · exact .inl first
        · exact .inr ⟨absent, .inr later⟩
      · rintro (first | ⟨absent, here | later⟩)
        · exact .inl first
        · exact absurd (head here ▸ present) absent
        · exact .inr ⟨absent, later⟩
    · rename_i absent
      have absent : [s.key] ∉ setPaths have_ := by
        simpa [singleton_mem_setPaths] using absent
      rw [ih distinct, setPaths_append, setPaths_append]
      constructor
      · rintro ((first | here) | ⟨neither, later⟩)
        · exact .inl first
        · exact .inr ⟨head here ▸ absent, .inl here⟩
        · exact .inr ⟨fun first => neither (.inl first), .inr later⟩
      · rintro (first | ⟨lacks, here | later⟩)
        · exact .inl (.inl first)
        · exact .inl (.inr here)
        · refine .inr ⟨fun either => ?_, later⟩
          rcases either with first | here
          · exact lacks first
          · obtain ⟨t, member, same⟩ := singleton_mem_setPaths.mp here
            rw [← same, List.mem_singleton.mp member] at later
            exact fresh (head_mem_setPaths later)

theorem keys_mergeInto (s : Selection) (set : List Selection) :
    (mergeInto s set).map (·.key) =
      if s.key ∈ set.map (·.key) then set.map (·.key) else set.map (·.key) ++ [s.key] := by
  induction set with
  | nil => rfl
  | cons t rest ih =>
    rw [mergeInto]
    split
    · rename_i same
      simp [same]
    · rename_i differ
      have differ : s.key ≠ t.key := fun same => differ same.symm
      simp only [List.map_cons, ih, List.mem_cons, differ, false_or]
      split <;> rfl

theorem distinct_mergeInto (distinct : Distinct set) : Distinct (mergeInto s set) := by
  rw [Distinct, keys_mergeInto]
  split
  · exact distinct
  · rename_i fresh
    exact List.nodup_append.mpr ⟨distinct, List.nodup_singleton _, fun a first b second same =>
      fresh (List.mem_singleton.mp second ▸ same ▸ first)⟩

theorem singleton_mem_mergeInto :
    [k] ∈ setPaths (mergeInto s set) ↔ [k] ∈ setPaths set ∨ s.key = k := by
  have keys (set : List Selection) : [k] ∈ setPaths set ↔ k ∈ set.map (·.key) := by
    simp [singleton_mem_setPaths]
  rw [keys, keys, keys_mergeInto]
  split
  · rename_i present
    constructor
    · exact .inl
    · rintro (first | rfl)
      · exact first
      · exact present
  · rw [List.mem_append, List.mem_singleton, eq_comm (a := k)]

theorem cons_mem_mergeInto (distinct : Distinct set) (below : Distinct s.selections) :
    k :: k' :: q ∈ setPaths (mergeInto s set) ↔
      k :: k' :: q ∈ setPaths set ∨
        (s.key = k ∧ [k, k'] ∉ setPaths set ∧ k' :: q ∈ setPaths s.selections) := by
  induction set with
  | nil => simp [mergeInto, cons_mem_setPaths]
  | cons t rest ih =>
    obtain ⟨fresh, distinct⟩ := distinct_cons distinct
    rw [mergeInto, setPaths_cons (k :: k' :: q), setPaths_cons [k, k']]
    split
    · rename_i same
      have alone : s.key = k → [k, k'] ∉ setPaths rest := by
        rintro rfl member
        exact fresh (same ▸ head_mem_setPaths member)
      rw [setPaths_cons]
      simp only [cons_mem_setPaths_single, setPaths_addMissing below]
      rw [same]
      constructor
      · rintro (⟨here, first | ⟨absent, added⟩⟩ | later)
        · exact .inl (.inl ⟨here, first⟩)
        · refine .inr ⟨here, ?_, added⟩
          rintro (⟨-, first⟩ | later)
          · exact absent first
          · exact alone here later
        · exact .inl (.inr later)
      · rintro ((⟨here, first⟩ | later) | ⟨here, absent, added⟩)
        · exact .inl ⟨here, .inl first⟩
        · exact .inr later
        · exact .inl ⟨here, .inr ⟨fun first => absent (.inl ⟨here, first⟩), added⟩⟩
    · rename_i differ
      have elsewhere : s.key = k → [k, k'] ∉ setPaths [t] := by
        rintro rfl member
        obtain ⟨u, inside, same, -⟩ := cons_mem_setPaths.mp member
        exact differ (List.mem_singleton.mp inside ▸ same)
      rw [setPaths_cons, ih distinct]
      constructor
      · rintro (first | later | ⟨here, absent, added⟩)
        · exact .inl (.inl first)
        · exact .inl (.inr later)
        · refine .inr ⟨here, ?_, added⟩
          rintro (first | later)
          · exact elsewhere here first
          · exact absent later
      · rintro ((first | later) | ⟨here, absent, added⟩)
        · exact .inl first
        · exact .inr (.inl later)
        · exact .inr (.inr ⟨here, fun later => absent (.inr later), added⟩)

theorem mergeSiblings_append (siblings : List Selection) (s : Selection) :
    mergeSiblings (siblings ++ [s]) = mergeInto s (mergeSiblings siblings) := by
  simp [mergeSiblings, List.foldl_append]

theorem distinct_mergeSiblings (siblings : List Selection) : Distinct (mergeSiblings siblings) := by
  induction siblings using List.reverseRecOn with
  | nil => exact List.nodup_nil
  | append_singleton siblings s ih =>
    rw [mergeSiblings_append]
    exact distinct_mergeInto ih

theorem singleton_mem_mergeSiblings :
    [k] ∈ setPaths (mergeSiblings siblings) ↔ ∃ s ∈ siblings, s.key = k := by
  induction siblings using List.reverseRecOn with
  | nil => simp [mergeSiblings]
  | append_singleton siblings s ih =>
    rw [mergeSiblings_append, singleton_mem_mergeInto, ih]
    simp [or_and_right, exists_or]

theorem pair_mem_mergeSiblings (below : ∀ s ∈ siblings, Distinct s.selections) :
    [k, k'] ∈ setPaths (mergeSiblings siblings) ↔
      ∃ s ∈ siblings, s.key = k ∧ [k'] ∈ setPaths s.selections := by
  induction siblings using List.reverseRecOn with
  | nil => simp [mergeSiblings]
  | append_singleton siblings s ih =>
    have inner := ih fun t member => below t (List.mem_append_left _ member)
    rw [mergeSiblings_append,
      cons_mem_mergeInto (distinct_mergeSiblings siblings) (below s (by simp)), inner]
    constructor
    · rintro (⟨t, member, shares⟩ | ⟨same, -, added⟩)
      · exact ⟨t, List.mem_append_left _ member, shares⟩
      · exact ⟨s, by simp, same, added⟩
    · rintro ⟨t, member, same, added⟩
      rcases List.mem_append.mp member with first | last
      · exact .inl ⟨t, first, same, added⟩
      · rw [List.mem_singleton.mp last] at same added
        by_cases present : ∃ u ∈ siblings, u.key = k ∧ [k'] ∈ setPaths u.selections
        · exact .inl present
        · exact .inr ⟨same, present, added⟩

/-- Below two levels the first of the siblings that has both keys decides. -/
theorem cons_mem_mergeSiblings (below : ∀ s ∈ siblings, Distinct s.selections) :
    k :: k' :: q ∈ setPaths (mergeSiblings siblings) ↔
      ∃ before s after, siblings = before ++ s :: after ∧ s.key = k ∧
        k' :: q ∈ setPaths s.selections ∧
        ∀ t ∈ before, t.key = k → [k'] ∉ setPaths t.selections := by
  induction siblings using List.reverseRecOn with
  | nil => simp [mergeSiblings]
  | append_singleton siblings s ih =>
    have below' : ∀ t ∈ siblings, Distinct t.selections :=
      fun t member => below t (List.mem_append_left _ member)
    rw [mergeSiblings_append,
      cons_mem_mergeInto (distinct_mergeSiblings siblings) (below s (by simp)), ih below',
      pair_mem_mergeSiblings below']
    constructor
    · rintro (⟨before, t, after, rfl, shares⟩ | ⟨same, absent, added⟩)
      · exact ⟨before, t, after ++ [s], by simp, shares⟩
      · exact ⟨siblings, s, [], rfl, same, added,
          fun t member here later => absent ⟨t, member, here, later⟩⟩
    · rintro ⟨before, t, after, parts, same, added, first⟩
      rcases List.eq_nil_or_concat after with rfl | ⟨after, last, rfl⟩
      · obtain ⟨rfl, here⟩ := List.append_inj' parts rfl
        obtain rfl : s = t := by simpa using here
        exact .inr ⟨same, fun ⟨u, member, here, later⟩ => first u member here later, added⟩
      · have parts : siblings ++ [s] = (before ++ t :: after) ++ [last] := by simpa using parts
        obtain ⟨rfl, -⟩ := List.append_inj' parts rfl
        exact .inl ⟨before, t, after, rfl, same, added, first⟩

end GraphQL

end SubscriptionGateway
