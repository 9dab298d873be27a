import SubscriptionGateway.Proofs.Engine.Delivery
import SubscriptionGateway.Proofs.Engine.Order

/-!
What becomes of the record of a subscription. Registering, an end and the end of its delivery move
it on; everything else changes at most its inbox and whether that is fed, and an inbox is given up
only when the subscription is over.
-/
namespace SubscriptionGateway

open Broker

/-- Nothing but the inbox has changed, and whether it is fed. -/
structure Subscriber.SameButInbox (x x' : Subscriber) : Prop where
  clientId : x'.clientId = x.clientId
  connection : x'.connection = x.connection
  life : x'.life = x.life
  delivering : x'.delivering = x.delivering
  termination : x'.termination? = x.termination?

namespace Engine

variable {e e' : Engine} {a : Action} {s : SubscriptionId} {b : BindingId} {x : Subscriber}
  {rest : List Action}

theorem alike_refl (x : Subscriber) : x.SameButInbox x := ⟨rfl, rfl, rfl, rfl, rfl⟩

theorem alike_trans {x x' x'' : Subscriber} (first : x.SameButInbox x')
    (second : x'.SameButInbox x'') :
    x.SameButInbox x'' :=
  ⟨second.clientId.trans first.clientId, second.connection.trans first.connection,
    second.life.trans first.life, second.delivering.trans first.delivering,
    second.termination.trans first.termination⟩

def RecordStays (s : SubscriptionId) (x : Subscriber) (e' : Engine) : Prop :=
  ∃ x', e'.subscribers[s]? = some x' ∧ x.SameButInbox x' ∧ x'.fed = x.fed

/-- The record has stayed and so has its inbox, unless this has been given up. -/
def Starved (s : SubscriptionId) (x : Subscriber) (e' : Engine) : Prop :=
  ∃ x', e'.subscribers[s]? = some x' ∧ x.SameButInbox x' ∧ x'.inbox = x.inbox

theorem alike_same (found : e.subscribers[s]? = some x)
    (same : e'.subscribers[s]? = e.subscribers[s]?) : RecordStays s x e' :=
  ⟨x, same.trans found, alike_refl x, rfl⟩

theorem leave_starves (found : e.subscribers[s]? = some x) (b : BindingId) (a : SubscriptionId) :
    Starved s x (e.leave b a) := by
  simp only [Starved, leave, closeIfIdle_subscribers, dropMember]
  split
  · by_cases same : a = s
    · subst same
      exact ⟨{ x with fed := false }, by simp [updateSubscriber, updateBinding, found],
        ⟨rfl, rfl, rfl, rfl, rfl⟩, rfl⟩
    · exact ⟨x, (updateSubscriber_other _ same).trans found, alike_refl x, rfl⟩
  · exact ⟨x, found, alike_refl x, rfl⟩

theorem stopFeeding_starves (found : e.subscribers[s]? = some x) (ss : List SubscriptionId) :
    Starved s x (e.stopFeeding ss) := by
  simp only [stopFeeding]
  induction ss generalizing e x with
  | nil => exact ⟨x, found, alike_refl x, rfl⟩
  | cons a ss ih =>
    rw [List.foldl_cons]
    by_cases same : a = s
    · subst same
      have starved : (e.updateSubscriber a fun x => { x with fed := false }).subscribers[a]? =
          some { x with fed := false } := by simp [updateSubscriber, found]
      obtain ⟨x', found', alike, inbox⟩ := ih starved
      have given : x.SameButInbox { x with fed := false } := ⟨rfl, rfl, rfl, rfl, rfl⟩
      exact ⟨x', found', alike_trans given alike, inbox⟩
    · exact ih ((updateSubscriber_other _ same).trans found)

theorem schedule_alike (event : BrokerEvent) (a : SubscriptionId)
    (found : e.subscribers[s]? = some x) : RecordStays s x (e.schedule event a).2 := by
  by_cases same : a = s
  · subst same
    simp only [schedule, found]
    split
    · exact alike_same found rfl
    split
    · exact alike_same found rfl
    · exact ⟨{ x with inbox := x.inbox ++ [event] }, by simp [updateSubscriber, found],
        ⟨rfl, rfl, rfl, rfl, rfl⟩, rfl⟩
  · exact alike_same found (schedule_other event same)

theorem scheduleAll_alike (event : BrokerEvent) (ss : List SubscriptionId)
    (found : e.subscribers[s]? = some x) : RecordStays s x (scheduleAll event ss e).2 := by
  induction ss generalizing e x with
  | nil => exact alike_same found rfl
  | cons a ss ih =>
    obtain ⟨y, first, alike, fed⟩ := schedule_alike event a found
    obtain ⟨z, second, alike', fed'⟩ := ih first
    exact ⟨z, second, alike_trans alike alike', fed'.trans fed⟩

def Action.moves (s : SubscriptionId) : Action → Bool
  | .join _ _ a => a = s
  | .openSource _ _ a _ => a = s
  | .unsubscribe a => a = s
  | .terminate a _ => a = s
  | .endDelivery a => a = s
  | _ => false

theorem perform_alike (sound : e.books.Sound (duties (a :: rest))) (first : Prepared e [] a)
    (found : e.subscribers[s]? = some x) (other : a.moves s = false) :
    ∃ x', (e.perform a).engine.subscribers[s]? = some x' ∧ x.SameButInbox x' ∧
      (x'.fed = x.fed ∨ x.life.phase = .cancelled) := by
  have still (alike : RecordStays s x (e.perform a).engine) :
      ∃ x', (e.perform a).engine.subscribers[s]? = some x' ∧ x.SameButInbox x' ∧
        (x'.fed = x.fed ∨ x.life.phase = .cancelled) := by
    obtain ⟨x', found', alike, fed⟩ := alike
    exact ⟨x', found', alike, .inl fed⟩
  have finished (phase : e.books.phase s = some .cancelled)
      (starved : Starved s x (e.perform a).engine) :
      ∃ x', (e.perform a).engine.subscribers[s]? = some x' ∧ x.SameButInbox x' ∧
        (x'.fed = x.fed ∨ x.life.phase = .cancelled) := by
    obtain ⟨x', found', alike, -⟩ := starved
    exact ⟨x', found', alike, .inr (by simpa [books, found] using phase)⟩
  by_cases handled : a.handles e s
  · cases a with
    | subscribe call c clientId r =>
      obtain ⟨bound, -⟩ := List.getElem?_eq_some_iff.mp found
      exact absurd handled (Nat.ne_of_lt bound)
    | join | openSource | unsubscribe | terminate | endDelivery =>
      obtain rfl := show s = _ from handled
      simp [Action.moves] at other
    | leave k a =>
      obtain rfl : s = a := handled
      exact finished (sound.leaving k s (List.mem_cons_self ..)) (leave_starves found k s)
    | releaseInbox a =>
      obtain rfl : s = a := handled
      have done : standing (e.books.phase s) = 3 := first.resolve_right fun told => by simp at told
      refine finished ?_ (stopFeeding_starves found [s])
      cases phase : e.books.phase s with
      | none => simp [phase, standing] at done
      | some p => cases p <;> simp_all [standing]
    | fanOut call? k event =>
      have alike := scheduleAll_alike event (e.targets k) found
      refine still ?_
      simp only [perform, fanOut_targets]
      cases call? <;> exact alike
    | sweep k =>
      obtain ⟨-, nobody⟩ := first
      have member : s ∈ e.books.members k := (empty_members e k) ▸ handled
      have past : e.books.phase s = some .cancelled := by
        obtain ⟨-, -, active | ⟨finished, -⟩⟩ := sound.member k s member
        · have registered := (sound.active_iff s).mpr active
          exact absurd registered (by simp [books, nobody])
        · exact finished
      have found' : (e.empty k).2.subscribers[s]? = some x := by rw [empty_subscribers, found]
      exact finished past (stopFeeding_starves found' (e.empty k).1)
    | deliverNext a =>
      obtain rfl : s = a := handled
      refine still ?_
      simp only [perform, deliverNext, found]
      split
      · exact alike_same found rfl
      split
      · exact alike_same found rfl
      split
      · rename_i event more inbox
        have popped : (e.updateSubscriber s fun x => { x with inbox := more }).subscribers[s]? =
            some { x with inbox := more } := by simp [updateSubscriber, found]
        split <;> exact ⟨_, popped, ⟨rfl, rfl, rfl, rfl, rfl⟩, rfl⟩
      · split <;> exact alike_same found rfl
    | _ => exact False.elim handled
  · exact still (alike_same found (perform_frame a handled))

/-! ## Moving on -/

theorem unsubscribe_record (found : e.subscribers[s]? = some x)
    (registered : e.isRegistered s = true) :
    (e.perform (.unsubscribe s)).engine.subscribers[s]? =
      some { x with life := x.life.cancel.2 } := by
  simp only [perform, unsubscribe, registered, found, endLife, deregister]
  split <;> simp [updateSubscriber, detach, updateConnection, count, found]

theorem terminate_record {t : Termination} (found : e.subscribers[s]? = some x)
    (registered : e.isRegistered s = true) :
    (e.perform (.terminate s t)).engine.subscribers[s]? =
      some { x with life := x.life.retire.2, termination? := some t } := by
  simp only [perform, terminate, registered, found, endLife, deregister]
  split <;> simp [updateSubscriber, detach, updateConnection, count, found]

theorem endDelivery_record (found : e.subscribers[s]? = some x) :
    (e.perform (.endDelivery s)).engine.subscribers[s]? =
      some { x with delivering := false, inbox := [] } := by
  simp [perform, endDelivery, found, updateSubscriber, doneWith]

theorem enroll_record (b : BindingId) (found : e.subscribers[s]? = some x) :
    (e.enroll b s x).subscribers[s]? =
      some { x with life := x.life.activate.2, binding? := some b } := by
  simp only [enroll]
  split <;> simp [updateSubscriber, updateBinding, count, found]

theorem admission_record (b : BindingId) (found : e.subscribers[s]? = some x) :
    (e.admission b s x).subscribers[s]? =
      some { x with life := x.life.activate.2, binding? := some b } := enroll_record b found

theorem refusal_record (b : BindingId) (found : e.subscribers[s]? = some x) :
    ∃ x', (e.refusal b s x).subscribers[s]? = some x' ∧ x'.life.phase = .cancelled ∧
      x'.connection = x.connection ∧ x'.delivering = x.delivering ∧
      x'.termination? = x.termination? ∧ x'.inbox = x.inbox := by
  obtain ⟨y, found', alike, inbox⟩ := leave_starves (enroll_record b found) b s
  refine ⟨{ y with life := y.life.cancel.2 }, ?_, rfl, alike.connection, alike.delivering,
    alike.termination, inbox⟩
  simp only [refusal, endLife, deregister, found']
  split <;> simp [updateSubscriber, count, found']

end Engine

end SubscriptionGateway
