import SubscriptionGateway.Fault
import Mathlib.Data.List.Nodup

/-!
Members of distinct keys are written as they are given.
-/
namespace SubscriptionGateway

namespace Json

/-- Neither null nor made of other values. -/
def isScalar : Json → Bool
  | .bool _ | .number _ | .string _ => true
  | _ => false

namespace Members

def held (ms : Members) (name : String) : Json := (ms.get? name).getD .null

variable {ms : Members} {pairs : List (String × Json)} {key : String} {v : Json}

theorem insert_fresh (fresh : key ∉ ms.keys) : insert ms key v = ms ++ [(key, v)] := by
  induction ms with
  | nil => rfl
  | cons m rest ih =>
    obtain ⟨k, w⟩ := m
    obtain ⟨differs, fresh⟩ := not_or.mp (mt List.mem_cons.mpr fresh)
    rw [insert, if_neg (Ne.symm differs), ih fresh, List.cons_append]

theorem ofList_eq (distinct : (keys pairs).Nodup) : ofList pairs = pairs := by
  suffices extends_ : ∀ ms : Members, (ms.keys ++ keys pairs).Nodup →
      pairs.foldl (fun ms p => insert ms p.1 p.2) ms = ms ++ pairs from extends_ [] distinct
  clear distinct
  induction pairs with
  | nil => intro ms _; exact (List.append_nil ms).symm
  | cons pair rest ih =>
    obtain ⟨k, v⟩ := pair
    intro ms distinct
    have fresh : k ∉ ms.keys := fun member =>
      (List.nodup_append.mp distinct).2.2 k member k List.mem_cons_self rfl
    have again : (keys (ms ++ [(k, v)]) ++ keys rest).Nodup := by
      simpa [keys] using distinct
    refine (ih (insert ms k v) (insert_fresh fresh ▸ again)).trans ?_
    rw [insert_fresh fresh, List.append_assoc, List.singleton_append]

end Members

end Json

end SubscriptionGateway
