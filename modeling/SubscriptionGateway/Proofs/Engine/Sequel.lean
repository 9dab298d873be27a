import SubscriptionGateway.Proofs.Engine.History

/-!
What an action may go on with and what it may start. Said once for all actions; that the actions of
one delivery, one call or one binding come of each other only is read off it.
-/
namespace SubscriptionGateway

open Broker

namespace Engine

/-- Everything that may come of an action, in whichever state it is performed. -/
def Action.Brings (a b : Action) : Prop :=
  match a with
  | .subscribe call _ _ _ => ∃ k s, b = .join call k s
  | .join call k s =>
    (∃ k', b = .join call k' s) ∨ (∃ due, b = .openSource call k s due) ∨ b = .deliverNext s
  | .openSource _ k s _ => (∃ c, b = .consume k c .news) ∨ b = .deliverNext s
  | .unsubscribe s => ∃ k, b = .leave k s
  | .terminate s _ => ∃ k, b = .leave k s
  | .dispatch call event => ∃ k, b = .fanOut (some call) k event
  | .consume k c _ => (∃ event, b = .fanOut none k event) ∨ (∃ a, b = .consume k c a) ∨
    b = .closeConsumer c ∨ b = .failBinding k
  | .failBinding _ => ∃ s, b = .terminate s (some sourceFailed) ∨ b = .releaseInbox s
  | .deliverNext s => b = .endDelivery s ∨ (∃ c f, b = .offer c f (.ending s)) ∨
    (∃ event, b = .resolve s event) ∨ b = .deliverNext s
  | .resolve s _ => ∃ r, b = .deliverOutcome s r ∨ b = .runResolver r
  | .runResolver r => ∃ w due, b = .endResolver r w due
  | .deliverOutcome s _ => (∃ c f, b = .offer c f (.event s)) ∨ b = .deliverNext s
  | .offer c f r => (∃ due, b = .enqueue c f due r) ∨ ∃ s, r = .event s ∧ b = .endDelivery s
  | .enqueue _ _ _ r => ∃ s, r = .event s ∧ (b = .deliverNext s ∨ b = .endDelivery s)
  | .release _ => (∃ s, b = .unsubscribe s) ∨ b = .connectionReleased
  | .releaseAll => ∃ c, b = .release c
  | .shutdown _ => ∃ deadline due, b = .awaitDrain deadline due
  | .awaitDrain deadline _ => (∃ due, b = .awaitDrain deadline due) ∨ b = .terminateAll ∨
    b = .sweepAll ∨ b = .awaitDeliveries
  | .terminateAll => ∃ s, b = .terminate s none
  | .sweepAll => ∃ k, b = .sweep k
  | .sweep _ => ∃ s, b = .terminate s none
  | .awaitDeliveries => ∃ deadline due, b = .pollDeliveries deadline due
  | .pollDeliveries deadline _ => ∃ due, b = .pollDeliveries deadline due
  | _ => False

def Effect.sequel (f : Effect) : List Action := f.next ++ f.started.flatten

variable {e : Engine} {s : SubscriptionId}

theorem enter_brings (call : CallId) (k : BindingId) (s : SubscriptionId)
    (started : List (List Action)) :
    ∀ b ∈ (e.enter call k s started).sequel, b ∈ started.flatten ∨ b = .deliverNext s := by
  obtain ⟨replies, deliveries, more, eq, starts⟩ := enter_branches e call k s started
  rw [eq]
  intro b member
  rcases starts with rfl | rfl
  · exact .inl (by simpa [Effect.sequel] using member)
  · simpa [Effect.sequel] using member

theorem receipt_brings (result : Except Fault Unit) (r : Receipt) :
    ∀ b ∈ (e.receipt result r).sequel,
      ∃ s, r = .event s ∧ (b = .deliverNext s ∧ result = .ok () ∨ b = .endDelivery s) := by
  obtain ⟨n, replies, next, eq, goes⟩ := receipt_cases e result r
  rw [eq]
  exact fun b member => goes b (by simpa [Effect.sequel] using member)

theorem enqueue_brings (c : ConnectionId) (f : Frame) (r : Receipt) :
    ∀ b ∈ (e.enqueue c f r).sequel, ∃ s, r = .event s ∧
      (b = .deliverNext s ∨ b = .endDelivery s) := by
  have told (e' : Engine) (result : Except Fault Unit) : ∀ b ∈ (e'.receipt result r).sequel,
      ∃ s, r = .event s ∧ (b = .deliverNext s ∨ b = .endDelivery s) := by
    intro b member
    obtain ⟨s, same, onward⟩ := receipt_brings result r b member
    exact ⟨s, same, onward.imp_left And.left⟩
  rcases enqueue_cases e c f r with ⟨-, eq⟩ | ⟨-, e', fault, eq, -⟩ <;> rw [eq]
  · exact told _ _
  · exact told _ _

theorem perform_brings (e : Engine) (a : Action) : ∀ b ∈ (e.perform a).sequel, a.Brings b := by
  cases a with
  | subscribe call c clientId r =>
    rcases subscribe_cases e call c clientId r with ⟨fault, eq⟩ | ⟨compiled, -, -, eq⟩ <;> rw [eq]
    · simp [fail, Effect.sequel]
    · simp [seek, Effect.sequel, Action.Brings]
  | join call k s =>
    rcases joinBinding_branches e call k s with eq | ⟨key, eq⟩ | eq | eq | ⟨due, eq⟩ <;>
    rw [perform, eq]
    · simp [Effect.sequel]
    · simp [seek, Effect.sequel, Action.Brings]
    · intro b member
      have entered := enter_brings call k s [] b member
      exact .inr (.inr (by simpa using entered))
    · simp [fail, Effect.sequel]
    · simp [Effect.sequel, Action.Brings]
  | openSource call k s due =>
    rcases openBinding_branches e call k s with eq | ⟨hub, fault, eq⟩ | ⟨hub, c, eq⟩ <;>
    rw [perform, eq]
    · simp [Effect.sequel]
    · simp [fail, Effect.sequel]
    · intro b member
      exact (enter_brings call k s _ b member).imp_left fun watch => ⟨c, by simpa using watch⟩
  | unsubscribe s =>
    rcases unsubscribe_cases e s with eq | ⟨x, -, -, eq⟩ <;>
    simp [perform, eq, Effect.sequel, Action.Brings]
  | terminate s t =>
    rcases terminate_cases e s t with eq | ⟨x, -, -, eq⟩ <;>
    simp [perform, eq, Effect.sequel, Action.Brings]
  | dispatch call event =>
    simp only [perform]
    split <;> simp [Effect.sequel, Action.Brings]
  | consume k c a =>
    obtain ⟨hub, next, eq, onward⟩ := consumeNext_cases e k c a
    rw [perform, eq]
    rintro b member
    rcases onward b (by simpa [Effect.sequel] using member) with found | ⟨a, rfl⟩ | last
    · exact .inl found
    · exact .inr (.inl ⟨a, rfl⟩)
    · exact .inr (.inr last)
  | failBinding k =>
    simp only [perform, failBinding, Effect.sequel, List.flatten_nil, List.append_nil,
      List.mem_flatMap]
    rintro b ⟨s, -, member⟩
    exact ⟨s, by simpa using member⟩
  | deliverNext s =>
    obtain ⟨next, follows, eq | ⟨rest, n, eq⟩⟩ := deliverNext_cases e s <;> rw [perform, eq] <;>
    exact fun b member => follows b (by simpa [Effect.sequel] using member)
  | resolve s event =>
    intro b member
    have both : b = .deliverOutcome s e.resolutions.length ∨
          b = .runResolver e.resolutions.length := by
      simpa [perform, beginResolution, Effect.sequel] using member
    exact ⟨_, both⟩
  | runResolver r =>
    rcases runResolver_cases e r with eq | ⟨_, _, w, -, -, -, eq⟩ <;>
    simp [perform, eq, Effect.sequel, Action.Brings]
  | deliverOutcome s r =>
    rcases deliverOutcome_cases e s r with ⟨c, f, eq⟩ | eq | eq <;>
    simp [perform, eq, Effect.sequel, Action.Brings]
  | offer c f r =>
    rcases offer_cases e c f r with ⟨-, eq⟩ | ⟨-, eq⟩ <;> rw [perform, eq]
    · intro b member
      obtain ⟨s, same, ⟨-, taken⟩ | last⟩ := receipt_brings _ r b member
      · cases taken
      · exact .inr ⟨s, same, last⟩
    · simp [Effect.sequel, Action.Brings]
  | enqueue c f due r => exact enqueue_brings c f r
  | release c =>
    rcases release_cases e c with ⟨-, eq⟩ | ⟨e', -, -, eq⟩ <;> rw [perform, eq]
    · simp [Effect.sequel]
    · intro b member
      simp only [Effect.sequel, List.flatten_nil, List.append_nil, List.mem_append, List.mem_map,
        List.mem_singleton] at member
      rcases member with ⟨o, -, same⟩ | last
      · exact .inl ⟨o.1, same.symm⟩
      · exact .inr last
  | awaitDrain deadline due | pollDeliveries deadline due =>
    simp only [perform]
    split <;> simp [Effect.sequel, Action.Brings]
  | releaseAll | terminateAll | sweepAll | sweep k =>
    simp only [perform, sweep, Effect.sequel, List.flatten_nil, List.append_nil, List.mem_map]
    rintro b ⟨x, -, rfl⟩
    exact ⟨_, rfl⟩
  | _ => simp [perform, Effect.sequel, Action.Brings]

/-- What is read off actions one by one and an action brings none of, does not come of it. -/
theorem sequel_silent {α : Type} {read : Action → Option α} {a : Action}
    (silent : ∀ b, a.Brings b → read b = none) : (e.perform a).sequel.filterMap read = [] :=
  List.filterMap_eq_nil_iff.mpr fun b member => silent b (perform_brings e a b member)

end Engine

end SubscriptionGateway
