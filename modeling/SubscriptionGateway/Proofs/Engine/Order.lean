import SubscriptionGateway.Proofs.Engine.Tally

/-!
What a task has done before it comes to an action, or will have done by then. A shutdown first
stops the engine from accepting, then tells all registered subscriptions and then takes the
bindings out of use; a binding that has failed tells a member before it gives up its inbox. Every
turn keeps this order.
-/
namespace SubscriptionGateway

open Broker

/-! ## Lists with something known of what comes before -/

/-- Of every place in a list something holds, given what stands before it. -/
def Ordered {α : Type} (P : List α → α → Prop) (l : List α) : Prop :=
  ∀ before x after, l = before ++ x :: after → P before x

namespace Ordered

variable {α : Type} {P Q : List α → α → Prop} {x : α} {l m : List α}

theorem nil : Ordered P ([] : List α) := fun before x after eq => by simp at eq

theorem mono (ordered : Ordered P l) (weaker : ∀ before x, P before x → Q before x) :
    Ordered Q l := fun before x after eq => weaker before x (ordered before x after eq)

theorem head (ordered : Ordered P (x :: l)) : P [] x := ordered [] x l rfl

theorem append (first : Ordered P l) (second : Ordered (fun before x => P (l ++ before) x) m) :
    Ordered P (l ++ m) := by
  intro before x after eq
  rcases List.append_eq_append_iff.mp eq with ⟨more, rfl, rest⟩ | ⟨more, here, rest⟩
  · exact second more x after rest
  · cases more with
    | nil =>
      simp only [List.append_nil] at here
      subst here
      simpa using second [] x after (by simpa using rest.symm)
    | cons y more =>
      obtain ⟨rfl, -⟩ : x = y ∧ after = more ++ m := by simpa using rest
      exact first before x more here

theorem turn (ordered : Ordered P (x :: l)) (next : Ordered Q m)
    (later : ∀ before y, P (x :: before) y → Q (m ++ before) y) : Ordered Q (m ++ l) := by
  refine next.append fun before y after eq => later before y ?_
  exact ordered (x :: before) y after (by rw [eq, List.cons_append])

theorem of_all (all : ∀ y ∈ l, ∀ before, P before y) : Ordered P l :=
  fun before x after eq => all x (by simp [eq]) before

theorem single (here : P [] x) : Ordered P [x] := by
  intro before y after eq
  cases before with
  | nil =>
    obtain ⟨rfl, -⟩ : x = y ∧ after = [] := by simpa using eq
    exact here
  | cons z before => simp at eq

end Ordered

namespace Engine

variable {e e' : Engine} {a : Action} {b : BindingId} {s : SubscriptionId} {k : CallId}
  {before pool rest todo : List Action} {others ts : List (List Action)}

/-! ## The order of tasks -/

def Notified (e : Engine) (before : List Action) : Prop :=
  .terminateAll ∈ before ∨ ∀ s ∈ e.registered, ∃ t, .terminate s t ∈ before

def Emptied (e : Engine) (before : List Action) : Prop :=
  .sweepAll ∈ before ∨ ∀ b, IsOpen e b → .sweep b ∈ before

/-- What an action may count on when its task comes to it. -/
def Prepared (e : Engine) (before : List Action) : Action → Prop
  | .terminate s _ => 2 ≤ standing (e.books.phase s)
  | .releaseInbox s => standing (e.books.phase s) = 3 ∨ ∃ t, .terminate s t ∈ before
  | .awaitDrain .. => e.accepting = false
  | .terminateAll => e.accepting = false
  | .sweepAll => e.accepting = false ∧ Notified e before
  | .sweep _ => e.accepting = false ∧ e.registered = []
  | .awaitDeliveries => e.accepting = false ∧ Notified e before ∧ Emptied e before
  | .pollDeliveries .. => e.accepting = false ∧ Notified e before ∧ Emptied e before
  | _ => True

def Action.free : Action → Bool
  | .terminate .. | .releaseInbox _ | .awaitDrain .. | .terminateAll | .sweepAll | .sweep _ => false
  | .awaitDeliveries | .pollDeliveries .. => false
  | _ => true

theorem prepared_free (free : a.free = true) : Prepared e before a := by
  cases a <;> trivial

structure Proceeds (e e' : Engine) : Prop where
  standing : ∀ s, standing (e.books.phase s) ≤ standing (e'.books.phase s)
  fewer : e.accepting = false → Fewer e e'

theorem standing_le (p : Option Phase) : standing p ≤ 3 := by
  cases p with
  | none => exact Nat.zero_le _
  | some p => cases p <;> simp [standing]

theorem notified_lasts (fewer : Fewer e e') (notified : Notified e before) : Notified e' before :=
  notified.imp_right fun all s member => all s (fewer.registered s member)

theorem emptied_lasts (fewer : Fewer e e') (emptied : Emptied e before) : Emptied e' before :=
  emptied.imp_right fun all b isOpen => all b (fewer.opened b isOpen)

theorem over_lasts (proceeds : Proceeds e e') (finished : standing (e.books.phase s) = 3) :
    standing (e'.books.phase s) = 3 := by
  have further := proceeds.standing s
  have most := standing_le (e'.books.phase s)
  omega

theorem prepared_lasts (proceeds : Proceeds e e') (prepared : Prepared e before a) :
    Prepared e' before a := by
  cases a with
  | terminate s t => exact Nat.le_trans prepared (proceeds.standing s)
  | releaseInbox s => exact prepared.imp_left (over_lasts proceeds)
  | awaitDrain | terminateAll => exact (proceeds.fewer prepared).accepting
  | sweepAll =>
    obtain ⟨accepting, notified⟩ := prepared
    have fewer := proceeds.fewer accepting
    exact ⟨fewer.accepting, notified_lasts fewer notified⟩
  | sweep b =>
    obtain ⟨accepting, nobody⟩ := prepared
    have fewer := proceeds.fewer accepting
    refine ⟨fewer.accepting, List.eq_nil_iff_forall_not_mem.mpr fun s member => ?_⟩
    have before := fewer.registered s member
    simp [nobody] at before
  | awaitDeliveries | pollDeliveries =>
    obtain ⟨accepting, notified, emptied⟩ := prepared
    have fewer := proceeds.fewer accepting
    exact ⟨fewer.accepting, notified_lasts fewer notified, emptied_lasts fewer emptied⟩
  | _ => trivial

theorem prepared_more (earlier : List Action) (prepared : Prepared e before a) :
    Prepared e (earlier ++ before) a := by
  have notified (all : Notified e before) : Notified e (earlier ++ before) := by
    refine all.imp (List.mem_append_right _) fun told s member => ?_
    obtain ⟨t, there⟩ := told s member
    exact ⟨t, List.mem_append_right _ there⟩
  have emptied (all : Emptied e before) : Emptied e (earlier ++ before) :=
    all.imp (List.mem_append_right _) fun swept b isOpen => List.mem_append_right _ (swept b isOpen)
  cases a with
  | releaseInbox s =>
    refine prepared.imp_right fun told => ?_
    obtain ⟨t, there⟩ := told
    exact ⟨t, List.mem_append_right _ there⟩
  | sweepAll => exact ⟨prepared.1, notified prepared.2⟩
  | awaitDeliveries | pollDeliveries =>
    exact ⟨prepared.1, notified prepared.2.1, emptied prepared.2.2⟩
  | _ => exact prepared

/-! ## One turn -/

theorem perform_proceeds (ready : e.ready a = true) (sound : e.books.Sound (duties (a :: rest)))
    (plain : ∀ call r, a = .answer call r → r = .done) : Proceeds e (e.perform a).engine :=
  ⟨(perform_keeps ready sound).2.phase, perform_fewer sound plain⟩

theorem terminate_over {t : Termination} (sound : e.books.Sound (duties (.terminate s t :: rest)))
    (begun : 2 ≤ standing (e.books.phase s)) :
    standing ((e.perform (.terminate s t)).engine.books.phase s) = 3 ∧
      s ∉ (e.perform (.terminate s t)).engine.registered := by
  simp only [perform, terminate]
  split
  · rename_i x registered found
    refine ⟨?_, fun member => ?_⟩
    · rw [books_updateSubscriber _ fun _ => by simp, books_detach,
        books_strike e found fun _ => rfl]
      simp [Books.disown, Books.strike, standing]
    · have left : s ∈ ((e.deregister s).endLife s Lifecycle.retire).registered := member
      rw [endLife_registered] at left
      simp [deregister] at left
  · rename_i absent
    have idle : e.books.phase s ≠ some .active := fun active => by
      obtain ⟨x, found, -⟩ := subscriber_of_phase e active
      exact absent x ((isRegistered_iff e s).mpr ((sound.active_iff s).mpr active)) found
    refine ⟨?_, fun member => idle ((sound.active_iff s).mp member)⟩
    cases phase : e.books.phase s with
    | none => simp [phase, standing] at begun
    | some p =>
      cases p with
      | pending => simp [phase, standing] at begun
      | active => exact absurd phase idle
      | cancelled => rfl

theorem sweep_shuts (e : Engine) (b : BindingId) : ¬ IsOpen (e.perform (.sweep b)).engine b := by
  rintro ⟨y, here, opened⟩
  rw [sweep_bindings, List.getElem?_modify_eq] at here
  obtain ⟨z, -, rfl⟩ : ∃ z, e.bindings[b]? = some z ∧ { z.cleared with cancelled := true } = y := by
    simpa using here
  simp [Binding.cleared, Binding.shut] at opened

theorem open_listed {d : Duties} (sound : e.books.Sound d) (isOpen : IsOpen e b) :
    ∃ key, (key, b) ∈ e.listed := by
  obtain ⟨y, here, opened⟩ := isOpen
  exact ⟨y.key, (sound.listed_iff y.key b).mpr (by simp [books, here, opened])⟩

/-- What is behind the action of a turn stays prepared: what the action was to do is done or it
goes on with it. -/
theorem prepared_turn {x : Action} (sound : e.books.Sound (duties (a :: rest)))
    (proceeds : Proceeds e (e.perform a).engine) (first : Prepared e [] a)
    (prepared : Prepared e (a :: before) x) :
    Prepared (e.perform a).engine ((e.perform a).next ++ before) x := by
  have notified (accepting : e.accepting = false) (all : Notified e (a :: before)) :
      Notified (e.perform a).engine ((e.perform a).next ++ before) := by
    rcases all with announced | told
    · rcases List.mem_cons.mp announced with rfl | later
      · right
        intro s member
        exact ⟨none, List.mem_append_left _ (List.mem_map.mpr ⟨s, member, rfl⟩)⟩
      · exact .inl (List.mem_append_right _ later)
    · right
      intro s member
      obtain ⟨t, there⟩ := told s ((proceeds.fewer accepting).registered s member)
      rcases List.mem_cons.mp there with rfl | later
      · exact absurd member (terminate_over sound first).2
      · exact ⟨t, List.mem_append_right _ later⟩
  have emptied (accepting : e.accepting = false) (all : Emptied e (a :: before)) :
      Emptied (e.perform a).engine ((e.perform a).next ++ before) := by
    rcases all with announced | swept
    · rcases List.mem_cons.mp announced with rfl | later
      · right
        intro b isOpen
        obtain ⟨key, listed⟩ := open_listed sound isOpen
        exact List.mem_append_left _ (List.mem_map.mpr ⟨(key, b), listed, rfl⟩)
      · exact .inl (List.mem_append_right _ later)
    · right
      intro b isOpen
      have before := (proceeds.fewer accepting).opened b isOpen
      rcases List.mem_cons.mp (swept b before) with rfl | later
      · exact absurd isOpen (sweep_shuts e b)
      · exact List.mem_append_right _ later
  cases x with
  | releaseInbox s =>
    rcases prepared with finished | ⟨t, there⟩
    · exact .inl (over_lasts proceeds finished)
    · rcases List.mem_cons.mp there with rfl | later
      · exact .inl (terminate_over sound first).1
      · exact .inr ⟨t, List.mem_append_right _ later⟩
  | sweepAll =>
    obtain ⟨accepting, told⟩ := prepared
    exact ⟨(proceeds.fewer accepting).accepting, notified accepting told⟩
  | awaitDeliveries | pollDeliveries =>
    obtain ⟨accepting, told, swept⟩ := prepared
    exact ⟨(proceeds.fewer accepting).accepting, notified accepting told, emptied accepting swept⟩
  | terminate s t => exact Nat.le_trans prepared (proceeds.standing s)
  | awaitDrain | terminateAll => exact (proceeds.fewer prepared).accepting
  | sweep k =>
    have lasts : Prepared (e.perform a).engine (a :: before) (.sweep k) :=
      prepared_lasts proceeds prepared
    exact lasts
  | _ => trivial

/-! ## What is gone on with -/

theorem member_begun {d : Duties} (sound : e.books.Sound d) (member : s ∈ e.books.members b) :
    2 ≤ standing (e.books.phase s) := by
  obtain ⟨-, -, active | ⟨finished, -⟩⟩ := sound.member b s member
  · simp [active, standing]
  · simp [finished, standing]

theorem empty_members (e : Engine) (b : BindingId) : (e.empty b).1 = e.books.members b := by
  simp only [empty, books]
  cases e.bindings[b]? <;> rfl

theorem failing_prepared (t : Termination) (ss : List SubscriptionId)
    (begun : ∀ s ∈ ss, 2 ≤ standing (e.books.phase s)) :
    Ordered (Prepared e) (ss.flatMap fun s => [.terminate s t, .releaseInbox s]) := by
  induction ss with
  | nil => exact Ordered.nil
  | cons s ss ih =>
    have rest := ih fun a member => begun a (List.mem_cons_of_mem _ member)
    rw [List.flatMap_cons]
    refine Ordered.append ?_ (rest.mono fun before x => prepared_more _)
    have told : Prepared e [] (.terminate s t) := begun s (List.mem_cons_self ..)
    refine (Ordered.single told).append (m := [.releaseInbox s]) (Ordered.single ?_)
    exact .inr ⟨t, List.mem_cons_self ..⟩

theorem perform_prepares (sound : e.books.Sound (duties (a :: rest)))
    (proceeds : Proceeds e (e.perform a).engine) (first : Prepared e [] a) :
    Ordered (Prepared (e.perform a).engine) (e.perform a).next := by
  have ending (b : BindingId) (s : SubscriptionId) (member : s ∈ (e.empty b).1) :
      2 ≤ standing ((e.perform a).engine.books.phase s) := by
    rw [empty_members] at member
    exact Nat.le_trans (member_begun sound member) (proceeds.standing s)
  cases a with
  | failBinding k => exact failing_prepared (some sourceFailed) (e.empty k).1 (ending k)
  | sweep k =>
    refine Ordered.of_all fun x member before => ?_
    obtain ⟨s, inside, rfl⟩ := List.mem_map.mp member
    exact ending k s inside
  | terminateAll =>
    refine Ordered.of_all fun x member before => ?_
    obtain ⟨s, registered, rfl⟩ := List.mem_map.mp member
    have active := (sound.active_iff s).mp registered
    simp [Prepared, perform, active, standing]
  | sweepAll =>
    obtain ⟨accepting, told⟩ := first
    have nobody : e.registered = [] := by
      refine List.eq_nil_iff_forall_not_mem.mpr fun s member => ?_
      rcases told with announced | told
      · simp at announced
      · simpa using told s member
    refine Ordered.of_all fun x member before => ?_
    obtain ⟨l, -, rfl⟩ := List.mem_map.mp member
    exact ⟨accepting, nobody⟩
  | shutdown drainMs => exact Ordered.single rfl
  | awaitDrain deadline due =>
    have accepting : e.accepting = false := first
    simp only [perform]
    split
    · have tells : Ordered (Prepared e) [Action.terminateAll] := Ordered.single accepting
      have sweeps : Ordered (fun before => Prepared e ([.terminateAll] ++ before))
          [Action.sweepAll] := Ordered.single ⟨accepting, .inl (by simp)⟩
      have awaits : Ordered (fun before => Prepared e ([.terminateAll, .sweepAll] ++ before))
          [Action.awaitDeliveries] := Ordered.single ⟨accepting, .inl (by simp), .inl (by simp)⟩
      exact tells.append (sweeps.append awaits)
    · exact Ordered.single accepting
  | awaitDeliveries => exact Ordered.single first
  | pollDeliveries deadline due =>
    simp only [perform]
    split
    · exact Ordered.nil
    · exact Ordered.single first
  | _ =>
    refine Ordered.of_all fun x member before => prepared_free ?_
    have brings := perform_brings e _ x (List.mem_append_left _ member)
    cases x <;> first | rfl | simp [Action.Brings] at brings

theorem started_free (e : Engine) (a : Action) :
    ∀ task ∈ (e.perform a).started, ∀ x ∈ task, x.free = true := by
  intro task started x member
  have sequel : x ∈ (e.perform a).sequel :=
    List.mem_append_right _ (List.mem_flatten.mpr ⟨task, started, member⟩)
  have brings := perform_brings e a x sequel
  cases a with
  | failBinding | sweep | terminateAll | sweepAll | shutdown | awaitDeliveries =>
    cases started
  | awaitDrain deadline due =>
    simp only [perform] at started
    split at started <;> cases started
  | pollDeliveries deadline due =>
    simp only [perform] at started
    split at started <;> cases started
  | _ => cases x <;> first | rfl | simp [Action.Brings] at brings

/-- What is known of the order of tasks passes through a turn. -/
theorem ordered_turn {P Q : List Action → Action → Prop} {next : List Action}
    {started : List (List Action)} (all : ∀ task ∈ (a :: todo) :: others, Ordered P task)
    (first : Ordered Q next) (later : ∀ before x, P (a :: before) x → Q (next ++ before) x)
    (lasts : ∀ before x, P before x → Q before x) (new : ∀ task ∈ started, Ordered Q task) :
    ∀ task ∈ (next ++ todo) :: (started ++ others), Ordered Q task := by
  intro task member
  rcases List.mem_cons.mp member with rfl | member
  · exact (all _ (List.mem_cons_self ..)).turn first later
  rcases List.mem_append.mp member with started | other
  · exact new task started
  · exact (all task (List.mem_cons_of_mem _ other)).mono lasts

def Orderly (e : Engine) (ts : List (List Action)) : Prop :=
  ∀ task ∈ ts, Ordered (Prepared e) task

def Regular : Fact := fun e ts log =>
  (Accounted e ts log ∧ Honored e ts.flatten) ∧ Orderly e ts

theorem input_proceeds (i : Input) (sound : e.books.Sound (duties pool)) :
    Proceeds e (i.apply e) := by
  have apart := input_apart e i
  refine ⟨(input_keeps i sound).2.phase, fun accepting => fewer_apart ?_ apart⟩
  cases i with
  | take c most =>
    simp only [Input.apply, takeFrames]
    split <;> exact accepting
  | _ => exact accepting

theorem task_free (e : Engine) (i : Input) : ∀ x ∈ i.task e, x.free = true := by
  intro x member
  cases task_begins member <;> rfl

theorem orderly_upheld :
    Upheld (fun e ts log => Accounted e ts log ∧ Honored e ts.flatten)
      fun e ts _ => Orderly e ts where
  shuffle perm orderly task member := orderly task (perm.mem_iff.mpr member)
  idle orderly task member := orderly task (List.mem_cons_of_mem _ member)
  outside {e ts log} i known orderly := by
    intro task member
    rcases List.mem_cons.mp member with rfl | old
    · exact Ordered.of_all fun x member before => prepared_free (task_free e i x member)
    · exact (orderly task old).mono fun before x => prepared_lasts (input_proceeds i known.1)
  inside {e a todo others log} ready known orderly := by
    have sound : e.books.Sound (duties (a :: (todo ++ others.flatten))) := known.1
    have plain (call : CallId) (r : Reply) (same : a = .answer call r) : r = .done :=
      known.2.plain call r (same ▸ List.mem_cons_self ..)
    have proceeds := perform_proceeds ready sound plain
    have first : Prepared e [] a := (orderly _ (List.mem_cons_self ..)).head
    refine ordered_turn orderly (perform_prepares sound proceeds first) ?_ ?_ ?_
    · intro before x
      exact prepared_turn sound proceeds first
    · intro before x
      exact prepared_lasts proceeds
    · intro task started
      exact Ordered.of_all fun x member before =>
        prepared_free (started_free e a task started x member)

theorem start_regular (setup : Setup) (hub : Hub) : Always (World.start setup hub) Regular := by
  refine ((start_accounted setup hub).and honored_upheld ?_).and orderly_upheld ?_
  · exact ⟨by simp [World.start], by simp [World.start, Engine.start, tickets],
      by simp [World.start, Engine.start, tickets]⟩
  · intro task member
    simp [World.start] at member

end Engine

end SubscriptionGateway
