import SubscriptionGateway.Proofs.GraphQL.Kept

/-!
The selections of an operation give each response key to one field at every level, whatever aliases
and fragments it is written with. Merging keeps this at all depths at once: what it puts together is
a level of the one field and a level of the other, and it adds only the keys that are not there.
-/
namespace SubscriptionGateway

namespace Selection

/-- No two siblings have one key, here and at every level below. -/
inductive Unambiguous : List Selection → Prop where
  | level {set} : Distinct set → (∀ s ∈ set, Unambiguous s.selections) → Unambiguous set

variable {s : Selection} {set : List Selection}

theorem Unambiguous.distinct : Unambiguous set → Distinct set
  | .level distinct _ => distinct

theorem Unambiguous.inner : Unambiguous set → ∀ s ∈ set, Unambiguous s.selections
  | .level _ below => below

end Selection

namespace GraphQL

open Selection

variable {s : Selection} {set have_ more siblings : List Selection}

theorem mem_addMissing : s ∈ addMissing have_ more → s ∈ have_ ∨ s ∈ more := by
  induction more generalizing have_ with
  | nil => exact .inl
  | cons t more ih =>
    intro member
    rw [addMissing] at member
    split at member
    · exact (ih member).imp_right (List.mem_cons_of_mem t)
    · rcases ih member with first | later
      · rcases List.mem_append.mp first with old | new
        · exact .inl old
        · exact .inr (List.mem_singleton.mp new ▸ List.mem_cons_self)
      · exact .inr (List.mem_cons_of_mem t later)

theorem distinct_addMissing (distinct : Distinct have_) : Distinct (addMissing have_ more) := by
  induction more generalizing have_ with
  | nil => exact distinct
  | cons t more ih =>
    rw [addMissing]
    split
    · exact ih distinct
    · rename_i absent
      refine ih ?_
      rw [Distinct, List.map_append]
      refine List.nodup_append.mpr ⟨distinct, List.nodup_singleton _, ?_⟩
      rintro key first _ new rfl
      obtain ⟨u, member, same⟩ := List.mem_map.mp first
      exact absent (List.any_eq_true.mpr ⟨u, member, by simpa [same] using new⟩)

theorem unambiguous_addMissing (first : Unambiguous have_) (second : Unambiguous more) :
    Unambiguous (addMissing have_ more) :=
  .level (distinct_addMissing first.distinct) fun s member =>
    (mem_addMissing member).elim (first.inner s) (second.inner s)

theorem mem_mergeInto {t : Selection} (member : t ∈ mergeInto s set) :
    t = s ∨ t ∈ set ∨
      ∃ u ∈ set, t = { u with selections := addMissing u.selections s.selections } := by
  induction set with
  | nil => exact .inl (List.mem_singleton.mp member)
  | cons u rest ih =>
    rw [mergeInto] at member
    split at member
    · rcases List.mem_cons.mp member with rfl | later
      · exact .inr (.inr ⟨u, List.mem_cons_self, rfl⟩)
      · exact .inr (.inl (List.mem_cons_of_mem u later))
    · rcases List.mem_cons.mp member with rfl | later
      · exact .inr (.inl List.mem_cons_self)
      · rcases ih later with new | old | ⟨v, inside, merged⟩
        · exact .inl new
        · exact .inr (.inl (List.mem_cons_of_mem u old))
        · exact .inr (.inr ⟨v, List.mem_cons_of_mem u inside, merged⟩)

theorem unambiguous_mergeInto (first : Unambiguous set) (second : Unambiguous s.selections) :
    Unambiguous (mergeInto s set) := by
  refine .level (distinct_mergeInto first.distinct) fun t member => ?_
  rcases mem_mergeInto member with rfl | old | ⟨u, inside, rfl⟩
  · exact second
  · exact first.inner t old
  · exact unambiguous_addMissing (first.inner u inside) second

theorem unambiguous_mergeSiblings (below : ∀ s ∈ siblings, Unambiguous s.selections) :
    Unambiguous (mergeSiblings siblings) := by
  induction siblings using List.reverseRecOn with
  | nil => exact .level List.nodup_nil (by simp [mergeSiblings])
  | append_singleton siblings s ih =>
    rw [mergeSiblings_append]
    exact unambiguous_mergeInto (ih fun t member => below t (List.mem_append_left _ member))
      (below s (by simp))

/-- What a selection set is flattened to has no ambiguity below the fields it lists; among these
themselves a key may come twice until they are merged. -/
theorem built_unambiguous {fragments : List Fragment} {nodes : List Node}
    (built : Built fragments nodes set) : ∀ s ∈ set, Unambiguous s.selections := by
  induction built with
  | nil => simp
  | field _ _ ihBelow ihRest =>
    rintro s (_ | ⟨_, later⟩)
    · exact unambiguous_mergeSiblings ihBelow
    · exact ihRest s later
  | inline _ _ ihBelow ihRest =>
    intro s member
    exact (List.mem_append.mp member).elim (ihBelow s) (ihRest s)
  | spread _ _ _ ihBelow ihRest =>
    intro s member
    exact (List.mem_append.mp member).elim (ihBelow s) (ihRest s)

end GraphQL

open GraphQL Selection

theorem operation_unambiguous {r : Request} {op : SubscriptionOperation}
    (accepted : SubscriptionOperation.ofRequest r = .ok op) :
    Unambiguous op.root.selections := by
  obtain ⟨d, o, f, -, -, -, flat, rfl⟩ := SubscriptionOperation.ofRequest_ok.mp accepted
  exact built_unambiguous (flatten_built flat) f.selection (List.mem_singleton_self _)

end SubscriptionGateway
