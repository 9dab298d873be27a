import SubscriptionGateway.Proofs.Engine.Sequel

/-!
What may come of an action. What it goes on with or starts belongs to the delivery of a
subscription only when the action itself does, or enters a binding for it; it brings no error but
that of a failed source, and no work but what the resolver makes of an event.
-/
namespace SubscriptionGateway

namespace Engine

namespace Action

def enters? : Action → Option SubscriptionId
  | .join _ _ s => some s
  | .openSource _ _ s _ => some s
  | _ => none

def delivers? : Action → Option SubscriptionId
  | .deliverNext s => some s
  | .resolve s _ => some s
  | .deliverOutcome s _ => some s
  | .offer _ _ (.event s) => some s
  | .enqueue _ _ _ (.event s) => some s
  | .offer _ _ (.ending s) => some s
  | .enqueue _ _ _ (.ending s) => some s
  | .endDelivery s => some s
  | _ => none

def Quiet (s : SubscriptionId) (a : Action) : Prop := a.stand? s = none ∧ a.farewell? s = none

def settles : Action → Bool
  | .terminate .. => true
  | .endResolver .. => true
  | _ => false

theorem quiet_other {s : SubscriptionId} {a : Action} (other : a.delivers? ≠ some s) :
    a.Quiet s := by
  cases a with
  | offer c f r => cases r <;> simp_all [Quiet, stand?, farewell?, delivers?]
  | enqueue c f due r => cases r <;> simp_all [Quiet, stand?, farewell?, delivers?]
  | _ => simp_all [Quiet, stand?, farewell?, delivers?]

end Action

theorem mute_iff {s : SubscriptionId} {pool : List Action} :
    Mute s pool ↔ ∀ a ∈ pool, a.Quiet s := by
  simp only [Mute, stands, farewells, List.filterMap_eq_nil_iff, Action.Quiet]
  exact ⟨fun mute a member => ⟨mute.1 a member, mute.2 a member⟩,
    fun quiet => ⟨fun a member => (quiet a member).1, fun a member => (quiet a member).2⟩⟩

/-- A pending action brings no error and no work of its own. -/
def Honest (e : Engine) : Action → Prop
  | .terminate _ t => t = none ∨ t = some sourceFailed
  | .endResolver r w _ => ∃ y x, e.resolutions[r]? = some y ∧
    e.subscribers[y.subscriber]? = some x ∧ w = e.setup.resolve x.compiled y.event.payload
  | _ => True

theorem honest_unsettling {e : Engine} {a : Action} (unsettling : a.settles = false) :
    Honest e a := by
  cases a with
  | terminate | endResolver => cases unsettling
  | _ => trivial

structure Succeeds (e : Engine) (a b : Action) : Prop where
  quiet : ∀ s, a.Quiet s → a.enters? ≠ some s → b.Quiet s
  honest : Honest e b

variable {e : Engine} {a b : Action} {s : SubscriptionId}

/-- What goes on with a delivery comes of an action of the same one, or of its beginning. -/
theorem brings_delivers (brings : a.Brings b) :
    b.delivers? = none ∨ b.delivers? = a.enters? ∨ b.delivers? = a.delivers? := by
  cases a with
  | subscribe =>
    obtain ⟨_, _, rfl⟩ := brings
    exact .inl rfl
  | join =>
    obtain ⟨_, rfl⟩ | ⟨_, rfl⟩ | rfl := brings
    · exact .inl rfl
    · exact .inl rfl
    · exact .inr (.inl rfl)
  | openSource =>
    obtain ⟨_, rfl⟩ | rfl := brings
    · exact .inl rfl
    · exact .inr (.inl rfl)
  | unsubscribe | terminate | dispatch | releaseAll | terminateAll | sweepAll | sweep
  | pollDeliveries =>
    obtain ⟨_, rfl⟩ := brings
    exact .inl rfl
  | consume => obtain ⟨_, rfl⟩ | ⟨_, rfl⟩ | rfl | rfl := brings <;> exact .inl rfl
  | failBinding => obtain ⟨_, rfl | rfl⟩ := brings <;> exact .inl rfl
  | deliverNext =>
    obtain rfl | ⟨_, _, rfl⟩ | ⟨_, rfl⟩ | rfl := brings <;> exact .inr (.inr rfl)
  | resolve =>
    obtain ⟨_, rfl | rfl⟩ := brings
    · exact .inr (.inr rfl)
    · exact .inl rfl
  | runResolver | shutdown | awaitDeliveries =>
    obtain ⟨_, _, rfl⟩ := brings
    exact .inl rfl
  | deliverOutcome => obtain ⟨_, _, rfl⟩ | rfl := brings <;> exact .inr (.inr rfl)
  | offer c f r =>
    obtain ⟨_, rfl⟩ | ⟨_, rfl, rfl⟩ := brings
    · cases r <;> exact .inr (.inr rfl)
    · exact .inr (.inr rfl)
  | enqueue => obtain ⟨_, rfl, rfl | rfl⟩ := brings <;> exact .inr (.inr rfl)
  | release => obtain ⟨_, rfl⟩ | rfl := brings <;> exact .inl rfl
  | awaitDrain => obtain ⟨_, rfl⟩ | rfl | rfl | rfl := brings <;> exact .inl rfl
  | _ => cases brings

theorem brings_quiet (brings : a.Brings b) (quiet : a.Quiet s) (outside : a.enters? ≠ some s) :
    b.Quiet s := by
  rcases brings_delivers brings with none | enters | same
  · exact Action.quiet_other (by simp [none])
  · exact Action.quiet_other (enters ▸ outside)
  cases a with
  | offer c f r =>
    obtain ⟨_, rfl⟩ | ⟨t, rfl, rfl⟩ := brings
    · cases r with
      | event t => simpa [Action.Quiet, Action.stand?, Action.farewell?] using quiet
      | ending t => exact quiet
      | call call => exact quiet
    · exact Action.quiet_other (by simpa [Action.delivers?, Action.stand?] using quiet.1)
  | enqueue c f due r =>
    obtain ⟨t, rfl, -⟩ := brings
    exact Action.quiet_other (same ▸ by simpa [Action.delivers?, Action.stand?] using quiet.1)
  | deliverNext | resolve | deliverOutcome | endDelivery =>
    exact Action.quiet_other (same ▸ by simpa [Action.delivers?, Action.stand?] using quiet.1)
  | _ => exact Action.quiet_other (same ▸ by simp [Action.delivers?])

theorem perform_honest (e : Engine) (a : Action) : ∀ b ∈ (e.perform a).sequel, Honest e b := by
  intro b member
  have brings := perform_brings e a b member
  cases b with
  | terminate s t => cases a <;> simp_all [Action.Brings, Honest]
  | endResolver r w due =>
    cases a with
    | runResolver r' =>
      rcases runResolver_cases e r' with eq | ⟨x, y, w', found, who, made, eq⟩
      · simp [perform, eq, Effect.sequel] at member
      · obtain ⟨rfl, rfl, -⟩ : r = r' ∧ w = w' ∧ _ := by
          simpa [perform, eq, Effect.sequel] using member
        exact ⟨x, y, found, who, made⟩
    | _ => simp_all [Action.Brings]
  | _ => trivial

theorem perform_succeeds (e : Engine) (a : Action) :
    ∀ b ∈ (e.perform a).next ++ (e.perform a).started.flatten, Succeeds e a b :=
  fun b member => ⟨fun _ quiet outside => brings_quiet (perform_brings e a b member) quiet outside,
    perform_honest e a b member⟩

theorem perform_mute (e : Engine) (a : Action) (stand : a.stand? s = none)
    (farewell : a.farewell? s = none) (outside : a.enters? ≠ some s) :
    Mute s ((e.perform a).next ++ (e.perform a).started.flatten) :=
  mute_iff.mpr fun b member => (perform_succeeds e a b member).quiet s ⟨stand, farewell⟩ outside

end Engine

end SubscriptionGateway
