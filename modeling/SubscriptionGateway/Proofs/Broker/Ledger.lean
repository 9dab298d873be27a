import SubscriptionGateway.Proofs.Broker.Play
import Mathlib.Data.List.Induction

/-!
Books about one topic of one consumer, kept from what comes of a play alone. A record a memory
broker took is unread until it is returned, or until it is the oldest of a full window when one more
comes. Records are told apart by their places among all that were taken.
-/
namespace SubscriptionGateway.Broker

namespace Hub

abbrev Entry := List UInt8 × Nat

structure Ledger where
  sent : List (List UInt8) := []
  returned : List Entry := []
  /-- Never returned, since they were the oldest unread ones when there were too many. -/
  lost : List Entry := []
  unread : List Entry := []

namespace Ledger

/-- A record more; in a full window it takes the place of the oldest. -/
def take (b : Ledger) (payload : List UInt8) : Ledger :=
  let sent := b.sent ++ [payload]
  let entry := (payload, b.sent.length)
  match b.unread with
  | oldest :: rest =>
    if b.unread.length < topicWindow then { b with sent := sent, unread := b.unread ++ [entry] }
    else { b with sent := sent, lost := b.lost ++ [oldest], unread := rest ++ [entry] }
  | [] => { b with sent := sent, unread := [entry] }

def give (b : Ledger) : Ledger :=
  match b.unread with
  | oldest :: rest => { b with returned := b.returned ++ [oldest], unread := rest }
  | [] => b

def taken? (provider topic : String) : Happening → Option (List UInt8)
  | .produced p t payload (.ok _) => if p = provider ∧ t = topic then some payload else none
  | _ => none

def given? (c : ConsumerId) (topic : String) : Happening → Option BrokerEvent
  | .polled c' (.event e) => if c' = c ∧ e.topic = topic then some e else none
  | _ => none

def note (provider : String) (c : ConsumerId) (topic : String) (b : Ledger)
    (x : Happening) : Ledger :=
  match taken? provider topic x with
  | some payload => b.take payload
  | none => if (given? c topic x).isSome then b.give else b

/-- The books after all that came of a play. -/
def of (provider : String) (c : ConsumerId) (topic : String) (log : List Happening) : Ledger :=
  log.foldl (note provider c topic) {}

variable {provider topic : String} {c : ConsumerId} {log : List Happening} {b : Ledger}

theorem of_append (log log' : List Happening) :
    of provider c topic (log ++ log') = log'.foldl (note provider c topic)
      (of provider c topic log) :=
  List.foldl_append

/-- Every record taken is in one place of the books, and records are returned in the order in which
they were taken. -/
structure Balanced (b : Ledger) : Prop where
  all : (b.returned ++ b.lost ++ b.unread).Perm b.sent.zipIdx
  ordered : ((b.returned ++ b.unread).map (·.2)).Pairwise (· < ·)
  window : b.unread.length ≤ topicWindow

theorem Balanced.place (balanced : b.Balanced) {x : Entry} (known : x ∈ b.returned ++ b.unread) :
    x.2 < b.sent.length := by
  have listed : x ∈ b.returned ++ b.lost ++ b.unread := by
    rw [List.mem_append] at known
    rcases known with returned | unread
    · exact List.mem_append_left _ (List.mem_append_left _ returned)
    · exact List.mem_append_right _ unread
  obtain ⟨payload, place⟩ := x
  exact (List.mem_zipIdx' (balanced.all.mem_iff.mp listed)).1

theorem Balanced.extend (balanced : b.Balanced) {unread : List Entry}
    (fewer : unread.Sublist b.unread)
    (payload : List UInt8) :
    ((b.returned ++ (unread ++ [(payload, b.sent.length)])).map (·.2)).Pairwise (· < ·) := by
  have sub : (b.returned ++ unread).Sublist (b.returned ++ b.unread) := fewer.append_left _
  rw [← List.append_assoc, List.map_append, List.pairwise_append]
  refine ⟨balanced.ordered.sublist (sub.map _), by simp, fun i before j last => ?_⟩
  obtain ⟨x, known, rfl⟩ := List.mem_map.mp before
  have place := balanced.place (sub.subset known)
  simpa [show j = b.sent.length by simpa using last] using place

theorem Balanced.take (balanced : b.Balanced) (payload : List UInt8) :
    (b.take payload).Balanced := by
  have added := balanced.all.append_right [(payload, b.sent.length)]
  have sent : b.sent.zipIdx ++ [(payload, b.sent.length)] = (b.sent ++ [payload]).zipIdx := by
    simp [List.zipIdx_append]
  rw [sent] at added
  have window := balanced.window
  unfold Ledger.take
  split
  · rename_i oldest rest unread
    split
    · refine ⟨by simpa [List.append_assoc] using added, balanced.extend (.refl _) payload, ?_⟩
      rename_i room
      simpa using Nat.succ_le_of_lt room
    · refine ⟨by simpa [unread, List.append_assoc] using added, ?_, ?_⟩
      · exact balanced.extend (unread ▸ List.sublist_cons_self oldest rest) payload
      · simpa [unread] using window
  · rename_i unread
    refine ⟨by simpa [unread, List.append_assoc] using added, ?_, by simp [topicWindow]⟩
    exact balanced.extend (List.nil_sublist _) payload

theorem Balanced.give (balanced : b.Balanced) : b.give.Balanced := by
  unfold Ledger.give
  split
  · rename_i oldest rest unread
    have all := balanced.all
    have ordered := balanced.ordered
    have window := balanced.window
    rw [unread] at all ordered window
    refine ⟨.trans ?_ all, by simpa [List.append_assoc] using ordered, ?_⟩
    · simp only [List.append_assoc, List.singleton_append]
      exact (List.perm_middle.symm).append_left _
    · exact Nat.le_of_succ_le window
  · exact balanced

theorem Balanced.note (balanced : b.Balanced) (x : Happening) :
    (b.note provider c topic x).Balanced := by
  unfold Ledger.note
  split
  · exact balanced.take _
  · split
    · exact balanced.give
    · exact balanced

theorem of_balanced (provider : String) (c : ConsumerId) (topic : String) (log : List Happening) :
    (of provider c topic log).Balanced := by
  induction log using List.reverseRecOn with
  | nil => exact ⟨.refl _, .nil, Nat.zero_le _⟩
  | append_singleton log x ih =>
    rw [of_append]
    exact ih.note x

theorem take_sent (b : Ledger) (payload : List UInt8) :
    (b.take payload).sent = b.sent ++ [payload] := by
  unfold Ledger.take
  split
  · split <;> rfl
  · rfl

theorem give_sent (b : Ledger) : b.give.sent = b.sent := by
  unfold Ledger.give
  split <;> rfl

theorem of_sent (provider : String) (c : ConsumerId) (topic : String) (log : List Happening) :
    (of provider c topic log).sent = log.filterMap (taken? provider topic) := by
  induction log using List.reverseRecOn with
  | nil => rfl
  | append_singleton log x ih =>
    rw [of_append, List.filterMap_append, ← ih]
    change (Ledger.note provider c topic _ x).sent = _
    unfold Ledger.note
    cases known : taken? provider topic x with
    | some payload => simp [known, take_sent]
    | none =>
      by_cases given : (given? c topic x).isSome
      · simp [known, given, give_sent]
      · simp [known, given]

theorem mem_take_lost {x : Entry} {payload : List UInt8} (lost : x ∈ (b.take payload).lost) :
    x ∈ b.lost ∨ ¬ b.unread.length < topicWindow ∧ b.unread.head? = some x := by
  unfold Ledger.take at lost
  split at lost
  · rename_i oldest rest unread
    split at lost
    · exact .inl lost
    · rename_i full
      exact (List.mem_append.mp lost).imp_right fun same => by
        rw [List.mem_singleton.mp same, unread]
        exact ⟨unread ▸ full, rfl⟩
  · exact .inl lost

theorem give_lost (b : Ledger) : b.give.lost = b.lost := by
  unfold Ledger.give
  split <;> rfl

theorem taken?_some {y : Happening} {payload : List UInt8}
    (taken : taken? provider topic y = some payload) :
    y = .produced provider topic payload (.ok ()) := by
  unfold taken? at taken
  split at taken
  · split at taken
    · rename_i mine
      cases taken
      simp [mine]
    · cases taken
  · cases taken

theorem mem_note_lost {x : Entry} {y : Happening} (lost : x ∈ (b.note provider c topic y).lost) :
    x ∈ b.lost ∨ ∃ payload, y = .produced provider topic payload (.ok ()) ∧
      ¬ b.unread.length < topicWindow ∧ b.unread.head? = some x := by
  unfold Ledger.note at lost
  split at lost
  · rename_i payload taken
    exact (mem_take_lost lost).imp_right fun full => ⟨payload, taken?_some taken, full⟩
  · split at lost
    · exact .inl (give_lost b ▸ lost)
    · exact .inl lost

/-- What is lost was the oldest record of a full window when one more was taken. -/
theorem of_lost {x : Entry} (lost : x ∈ (of provider c topic log).lost) :
    ∃ before payload after, log = before ++ .produced provider topic payload (.ok ()) :: after ∧
      (of provider c topic before).unread.length = topicWindow ∧
      (of provider c topic before).unread.head? = some x := by
  induction log using List.reverseRecOn with
  | nil => cases lost
  | append_singleton log y ih =>
    rw [of_append] at lost
    rcases mem_note_lost lost with old | ⟨payload, taken, full, oldest⟩
    · obtain ⟨before, payload, after, same, full⟩ := ih old
      exact ⟨before, payload, after ++ [y], by simp [same], full⟩
    · have window := (of_balanced provider c topic log).window
      exact ⟨log, payload, [], by rw [taken], by omega, oldest⟩

end Ledger

end Hub

end SubscriptionGateway.Broker
