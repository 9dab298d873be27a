import SubscriptionGateway.Proofs.Engine.Consumers
import SubscriptionGateway.Proofs.Engine.Order

/-!
What a shutdown leaves. When its call is answered nothing is registered and no binding is in use,
and that is so for good. One kind of binding may be left in the list: one that is still to be
opened, by a call that had found another of its key out of use and so sought it after the list was
swept. Such a call is refused in the end, and a consumer that it opens is closed at once.
-/
namespace SubscriptionGateway

open Broker

namespace Engine

variable {e e' : Engine} {a x : Action} {b : BindingId} {s : SubscriptionId} {k : CallId}
  {before pool rest : List Action} {ts : List (List Action)} {log : Steps}

/-! ## Wound up -/

/-- Nothing is registered and nothing is open, and nothing will be. -/
structure WoundUp (e : Engine) : Prop where
  accepting : e.accepting = false
  registered : e.registered = []
  opened : ∀ b, ¬ IsOpen e b

theorem woundUp_lasts (proceeds : Proceeds e e') (woundUp : WoundUp e) : WoundUp e' := by
  have fewer := proceeds.fewer woundUp.accepting
  refine ⟨fewer.accepting, List.eq_nil_iff_forall_not_mem.mpr fun s member => ?_,
      fun b isOpen => ?_⟩
  · have before := fewer.registered s member
    simp [woundUp.registered] at before
  · exact woundUp.opened b (fewer.opened b isOpen)

theorem woundUp_upheld : Upheld Regular fun e _ _ => WoundUp e where
  shuffle _ woundUp := woundUp
  idle woundUp := woundUp
  outside i known woundUp := woundUp_lasts (input_proceeds i known.1.1) woundUp
  inside {e a todo others log} ready known woundUp := by
    have sound : e.books.Sound (duties (a :: (todo ++ others.flatten))) := known.1.1
    refine woundUp_lasts (perform_proceeds ready sound fun call r same => ?_) woundUp
    exact known.1.2.plain call r (same ▸ List.mem_cons_self ..)

def Action.lingers : Action → Bool
  | .shutdown _ | .awaitDrain .. | .awaitDeliveries | .pollDeliveries .. => true
  | _ => false

theorem lingers_turn (lingers : a.lingers = true) (first : Prepared e [] a) :
    WoundUp e ∨ ∃ x ∈ (e.perform a).next, x.lingers = true := by
  cases a with
  | shutdown drainMs => exact .inr ⟨_, List.mem_cons_self .., rfl⟩
  | awaitDrain deadline due =>
    right
    simp only [perform]
    split
    · exact ⟨.awaitDeliveries, by simp, rfl⟩
    · exact ⟨_, List.mem_cons_self .., rfl⟩
  | awaitDeliveries => exact .inr ⟨_, List.mem_cons_self .., rfl⟩
  | pollDeliveries deadline due =>
    obtain ⟨accepting, told, swept⟩ := first
    left
    refine ⟨accepting, List.eq_nil_iff_forall_not_mem.mpr fun s member => ?_, fun b isOpen => ?_⟩
    · rcases told with announced | told
      · simp at announced
      · simpa using told s member
    · rcases swept with announced | swept
      · simp at announced
      · simpa using swept b isOpen
  | _ => simp [Action.lingers] at lingers

/-! ## The answer of a shutdown -/

def Concludes (k : CallId) (e : Engine) (before : List Action) (x : Action) : Prop :=
  x.ticket? = some k → (∃ r, x = .answer k r) ∧ (WoundUp e ∨ ∃ a ∈ before, a.lingers = true)

structure Concluding (k : CallId) (e : Engine) (ts : List (List Action)) : Prop where
  made : k < e.calls
  ordered : ∀ task ∈ ts, Ordered (Concludes k e) task
  answered : ∀ r, (k, r) ∈ e.replies → WoundUp e

theorem concludes_lasts (proceeds : Proceeds e e') (concludes : Concludes k e before x) :
    Concludes k e' before x := fun whose => by
  obtain ⟨answers, done⟩ := concludes whose
  exact ⟨answers, done.imp_left (woundUp_lasts proceeds)⟩

theorem concludes_turn (proceeds : Proceeds e (e.perform a).engine) (first : Prepared e [] a)
    (concludes : Concludes k e (a :: before) x) :
    Concludes k (e.perform a).engine ((e.perform a).next ++ before) x := fun whose => by
  obtain ⟨answers, done | ⟨y, there, lingers⟩⟩ := concludes whose
  · exact ⟨answers, .inl (woundUp_lasts proceeds done)⟩
  refine ⟨answers, ?_⟩
  rcases List.mem_cons.mp there with rfl | later
  · rcases lingers_turn lingers first with done | ⟨z, next, lingers⟩
    · exact .inl (woundUp_lasts proceeds done)
    · exact .inr ⟨z, List.mem_append_left _ next, lingers⟩
  · exact .inr ⟨y, List.mem_append_right _ later, lingers⟩

theorem sequel_concludes {f : Effect} (answered : Answered e a f) (first : Concludes k e [] a)
    (closes : ∀ r, a = .answer k r → f.sequel = []) (member : x ∈ f.sequel) :
    Concludes k e' before x := fun whose => by
  obtain ⟨⟨r, answers⟩, -⟩ := first (sequel_whose answered member whose)
  simp [closes r answers] at member

theorem concluding_upheld (k : CallId) : Upheld Regular fun e ts _ => Concluding k e ts where
  shuffle perm before :=
    ⟨before.made, fun task member => before.ordered task (perm.mem_iff.mpr member), before.answered⟩
  idle before :=
    ⟨before.made, fun task member => before.ordered task (List.mem_cons_of_mem _ member),
      before.answered⟩
  outside {e ts log} i known before := by
    have proceeds := input_proceeds i known.1.1
    refine ⟨input_made i before.made, fun task member => ?_, fun r replied => ?_⟩
    · rcases List.mem_cons.mp member with rfl | old
      · refine Ordered.of_all fun x new earlier whose => ?_
        exact absurd whose (task_whose before.made new)
      · exact (before.ordered task old).mono fun earlier x => concludes_lasts proceeds
    · rw [input_replies] at replied
      exact woundUp_lasts proceeds (before.answered r replied)
  inside {e a todo others log} ready known before := by
    have sound : e.books.Sound (duties (a :: (todo ++ others.flatten))) := known.1.1
    have plain (call : CallId) (r : Reply) (same : a = .answer call r) : r = .done :=
      known.1.2.plain call r (same ▸ List.mem_cons_self ..)
    have proceeds := perform_proceeds ready sound plain
    have serves := perform_serves sound plain
    have prepared : Prepared e [] a := (known.2 _ (List.mem_cons_self ..)).head
    have first : Concludes k e [] a := (before.ordered _ (List.mem_cons_self ..)).head
    have closes (r : Reply) (answers : a = .answer k r) : (e.perform a).sequel = [] := by
      subst answers
      rfl
    refine ⟨serves.calls ▸ before.made, ?_, fun r replied => ?_⟩
    · refine ordered_turn before.ordered ?_ ?_ ?_ ?_
      · exact Ordered.of_all fun x member earlier =>
          sequel_concludes serves.answered first closes (List.mem_append_left _ member)
      · exact fun earlier x => concludes_turn proceeds prepared
      · exact fun earlier x => concludes_lasts proceeds
      · intro task started
        exact Ordered.of_all fun x member earlier =>
          sequel_concludes serves.answered first closes
            (List.mem_append_right _ (List.mem_flatten.mpr ⟨task, started, member⟩))
    · refine woundUp_lasts proceeds ?_
      rcases replied_whose serves.answered replied with old | ⟨whose, -⟩
      · exact before.answered r old
      · obtain ⟨-, done | ⟨y, none, -⟩⟩ := first whose
        · exact done
        · simp at none

/-! ## What is left and what still comes -/

theorem left_listed {d : Duties} {key : SourceKey} (sound : e.books.Sound d)
    (manned : Manned e pool b) (woundUp : WoundUp e) (listed : (key, b) ∈ e.listed) :
    ∃ y, e.bindings[b]? = some y ∧ y.key = key ∧ y.phase = .opening ∧ y.members = [] ∧
      seekers b pool ≠ [] := by
  obtain ⟨source, stage⟩ := (sound.listed_iff key b).mp listed
  cases read : e.bindings[b]? with
  | none => simp [books, read] at source
  | some y =>
    have opening : y.phase = .opening := by
      cases phase : y.phase with
      | opening => rfl
      | opened => exact absurd ⟨y, read, phase⟩ (woundUp.opened b)
      | closed => simp [books, read, phase] at stage
    exact ⟨y, rfl, by simpa [books, read] using source, opening, opening_empty sound read opening,
      (manned.staffed y read).sought opening⟩

structure Late (e : Engine) (log : Steps) : Prop where
  now : e.accepting = false
  since : ∀ p ∈ log, p.1.accepting = false

theorem late_upheld : Upheld Regular fun e _ log => Late e log where
  shuffle _ late := late
  idle late := late
  outside i known late :=
    ⟨((input_proceeds i known.1.1).fewer late.now).accepting, late.since⟩
  inside {e a todo others log} ready known late := by
    have sound : e.books.Sound (duties (a :: (todo ++ others.flatten))) := known.1.1
    have proceeds := perform_proceeds ready sound fun call r same =>
      known.1.2.plain call r (same ▸ List.mem_cons_self ..)
    refine ⟨(proceeds.fewer late.now).accepting, fun p member => ?_⟩
    rcases List.mem_append.mp member with old | new
    · exact late.since p old
    · obtain rfl := List.mem_singleton.mp new
      exact late.now

/-- What is opened although nothing is accepted is closed in the same step. -/
theorem late_closings (late : e.accepting = false) : openings e a ⊆ closings e a := by
  cases a with
  | openSource => simp [openings, closings, late]
  | _ => simp [openings]

def Denied (k : CallId) (e : Engine) : Prop := ∀ r, (k, r) ∈ e.replies → ∃ fault, r = .failed fault

theorem denied_upheld (k : CallId) :
    Upheld (fun e ts log => (Regular e ts log ∧ Asking k e ts.flatten) ∧ Late e log)
      fun e _ _ => Denied k e where
  shuffle _ denied := denied
  idle denied := denied
  outside {e _ _} i _ denied := by
    rw [Denied, input_replies e i]
    exact denied
  inside {e a todo others log} _ known denied := by
    obtain ⟨⟨⟨⟨sound, honored⟩, -⟩, asking⟩, late⟩ := known
    have sound : e.books.Sound (duties (a :: (todo ++ others.flatten))) := sound
    have serves := perform_serves sound fun call r same =>
      honored.plain call r (same ▸ List.mem_cons_self ..)
    intro r replied
    rcases replied_whose serves.answered replied with old | ⟨whose, fits⟩
    · exact denied r old
    · have asks := asking.asks a (List.mem_cons_self ..) whose
      cases r with
      | failed fault => exact ⟨fault, rfl⟩
      | subscribed s => simp [FitReply, late.now] at fits
      | done | scheduled => simp [FitReply, asks] at fits

structure Unsought (pool : List Action) (log : Steps) : Prop where
  nobody : ∀ a ∈ pool, a.seeks? = none
  unopened : (log.flatMap fun p => openings p.1 p.2) = []

theorem late_seeks (late : e.accepting = false) (idle : a.seeks? = none)
    (member : x ∈ (e.perform a).sequel) : x.seeks? = none := by
  have brings := perform_brings e a x member
  cases a with
  | subscribe => simp [perform, prepare, late, fail, Effect.sequel] at member
  | join | openSource => simp [Action.seeks?] at idle
  | _ => cases x <;> first | rfl | simp [Action.Brings] at brings

theorem unsought_upheld :
    Upheld (fun e ts log => Regular e ts log ∧ Late e log)
      fun _ ts log => Unsought ts.flatten log := by
  refine upheld_pending (P := fun _ pool log => Unsought pool log) ?_ ?_ ?_
  · intro e p q log perm unsought
    exact ⟨fun a member => unsought.nobody a (perm.mem_iff.mpr member), unsought.unopened⟩
  · intro e ts log i _ unsought
    refine ⟨fun a member => ?_, unsought.unopened⟩
    rcases List.mem_append.mp member with new | old
    · cases task_begins new <;> rfl
    · exact unsought.nobody a old
  · intro e a rest ts log _ pending known unsought
    have idle := unsought.nobody a (List.mem_cons_self ..)
    refine ⟨fun x member => ?_, ?_⟩
    · rcases List.mem_append.mp member with new | old
      · exact late_seeks known.2.now idle new
      · exact unsought.nobody x (List.mem_cons_of_mem _ old)
    · have unopened : openings e a = [] := by
        cases a with
        | openSource => simp [Action.seeks?] at idle
        | _ => rfl
      simp [unsought.unopened, unopened]

theorem unsought_seekers (nobody : ∀ a ∈ pool, a.seeks? = none) (b : BindingId) :
    seekers b pool = [] := by
  refine List.filterMap_eq_nil_iff.mpr fun a member => ?_
  have idle := nobody a member
  cases a with
  | join | openSource => simp [Action.seeks?] at idle
  | _ => rfl

/-! ## Every play -/

def BooksKept : Fact := fun e ts log =>
  (Regular e ts log ∧ Tallied e) ∧ ∀ b, Manned e ts.flatten b

theorem start_kept (setup : Setup) (hub : Hub) : Always (World.start setup hub) BooksKept := by
  have tallied := (start_regular setup hub).and
    (tallied_upheld.given fun known : Regular _ _ _ => known.1.1) ⟨rfl⟩
  refine tallied.both ((start_staffed setup hub).imp ?_ fun known => known.2.manned)
  intro e ts us log perm manned b
  exact (manned b).shuffle perm.flatten

theorem concluding_begun {w : World} (regular : Regular w.state w.tasks log) (drainMs : Nat) :
    Concluding w.state.calls (w.input (.call (.shutdown drainMs))).state
      (w.input (.call (.shutdown drainMs))).tasks := by
  have known := regular.1.2.known
  have tasks : (w.input (.call (.shutdown drainMs))).tasks =
      w.tasks ++ [[.shutdown drainMs, .answer w.state.calls .done]] := rfl
  rw [World.input_state, tasks]
  refine ⟨Nat.lt_succ_self _, fun task member => ?_, fun r replied => ?_⟩
  · rcases List.mem_append.mp member with old | new
    · refine Ordered.of_all fun x inside before whose => ?_
      have pending := mem_tickets (List.mem_flatten.mpr ⟨task, old, inside⟩) whose
      exact absurd (known _ (List.mem_append_right _ pending)) (Nat.lt_irrefl _)
    · obtain rfl := List.mem_singleton.mp new
      have first :
        Ordered (Concludes w.state.calls ((Input.call (.shutdown drainMs)).apply w.state))
          [.shutdown drainMs] := Ordered.single fun whose => by simp [Action.ticket?] at whose
      refine first.append (m := [.answer w.state.calls .done]) (Ordered.single fun _ => ?_)
      exact ⟨⟨.done, rfl⟩, .inr ⟨_, List.mem_cons_self .., rfl⟩⟩
  · have before := known _ (List.mem_append_left _ (List.mem_map_of_mem replied))
    exact absurd before (Nat.lt_irrefl _)

/-- When a shutdown has been answered nothing is registered or counted and no binding is in use,
from then on. A binding that is listed still is one that a pending call has yet to open; what that
opens is closed at once, and without such a call nothing is listed and nothing is opened any more.
A call that subscribes and is answered after the engine has stopped accepting gets a fault. -/
theorem shutdown_is_final (setup : Setup) (hub : Hub) (moves : List Move) :
    let w := (World.start setup hub).play moves
    (∀ drainMs later, let v := (w.input (.call (.shutdown drainMs))).play later
      (v.state.reply? w.state.calls).isSome = true → ∀ further, let u := v.play further
        WoundUp u.state ∧ u.state.counters.subscriptions = 0 ∧
        (∀ key b, (key, b) ∈ u.state.listed → ∃ y, u.state.bindings[b]? = some y ∧ y.key = key ∧
          y.phase = .opening ∧ y.members = [] ∧ seekers b u.pending ≠ []) ∧
        (∀ p ∈ v.steps further, openings p.1 p.2 ⊆ closings p.1 p.2) ∧
        ((∀ a ∈ v.pending, a.seeks? = none) →
          u.state.listed = [] ∧ v.record openings further = [])) ∧
    ∀ c clientId r before, let v := (w.input (.call (.subscribe c clientId r))).play before
      v.state.accepting = false → v.state.reply? w.state.calls = none →
      ∀ later reply, (v.play later).state.reply? w.state.calls = some reply →
        ∃ fault, reply = .failed fault := by
  intro w
  have kept : Always w BooksKept :=
    (start_kept setup hub).later (P := fun e ts => BooksKept e ts []) moves
  have onward (i : Input) (later : List Move) : Always ((w.input i).play later) BooksKept :=
    (kept.later (P := fun e ts => BooksKept e ts []) [.input i]).later
      (P := fun e ts => BooksKept e ts []) later
  have regular {w : World} (kept : Always w BooksKept) : Always w Regular :=
    kept.imp (start_regular setup hub).loose fun known => known.1.1
  have now := (regular kept).throughout []
  refine ⟨fun drainMs later => ?_, fun c clientId r before => ?_⟩
  · intro v replied further u
    have always : Always v BooksKept := onward (.call (.shutdown drainMs)) later
    have concluding := (regular (onward (.call (.shutdown drainMs)) [])).and
      (concluding_upheld w.state.calls) (concluding_begun now drainMs)
    obtain ⟨reply, answer⟩ := Option.isSome_iff_exists.mp replied
    have woundUp : WoundUp v.state :=
      (concluding.throughout later).2.answered reply (mem_of_reply answer)
    have finished := (regular always).and woundUp_upheld woundUp
    have late := (regular always).and late_upheld ⟨woundUp.accepting, by simp⟩
    have known := always.throughout further
    have done := (finished.throughout further).2
    have left (key : SourceKey) (b : BindingId) (listed : (key, b) ∈ u.state.listed) :=
      left_listed known.1.1.1.1 (known.2 b) done listed
    refine ⟨done, ?_, left, fun p member => ?_, fun nobody => ?_⟩
    · rw [known.1.2.count, done.registered]
      rfl
    · exact late_closings ((late.throughout further).2.since p member)
    · have unsought := (late.and unsought_upheld ⟨nobody, rfl⟩).throughout further
      refine ⟨List.eq_nil_iff_forall_not_mem.mpr fun l listed => ?_, ?_⟩
      · obtain ⟨_, _, _, _, _, sought⟩ := left l.1 l.2 listed
        exact sought (unsought_seekers unsought.2.nobody l.2)
      · rw [World.record_steps]
        exact unsought.2.unopened
  · intro v late unanswered later reply answer
    have always := regular (onward (.call (.subscribe c clientId r)) [])
    have asking := always.and ((asking_upheld w.state.calls).given fun known => known.1)
      (asking_begun now.1.2 c clientId r)
    have asked : Always v fun e ts log => Regular e ts log ∧ Asking w.state.calls e ts.flatten :=
      asking.later (P := fun e ts => Regular e ts [] ∧ Asking w.state.calls e ts.flatten) before
    have denied := (asked.and (late_upheld.given fun known => known.1) ⟨late, by simp⟩).and
      (denied_upheld w.state.calls) fun r replied => absurd replied (not_mem_of_reply unanswered r)
    exact (denied.throughout later).2 reply (mem_of_reply answer)

def slowSetup : Setup := { staffSetup with openDelayMs := fun _ => 100 }

def slowSubscribe (clientId : String) : Input :=
  .call (.subscribe 0 clientId { query := "subscription { employee { id } }" })

def slowQueue : List Move := [.input (slowSubscribe "2"), .step 0, .step 0, .step 1, .step 0]

def slowDrain : List Move := [.step 2, .step 0, .step 0, .step 0]

def slowEnd : List Move :=
  [.input (.pass 100), .step 0, .step 0, .step 0, .step 0, .step 0, .step 0, .step 0]

/-- The call that waited has made a binding of its own, which is listed when the shutdown is
answered. -/
theorem slow_shutdown_final :
    ((((World.start slowSetup staffHub).play
      ([.input (.connect .webSocket), .input (slowSubscribe "1")] ++ slowQueue)).input
        (.call (.shutdown 0))).play (slowDrain ++ slowEnd)).state.listed.length = 1 ∧
    (∀ further, WoundUp (((((World.start slowSetup staffHub).play
      ([.input (.connect .webSocket), .input (slowSubscribe "1")] ++ slowQueue)).input
        (.call (.shutdown 0))).play (slowDrain ++ slowEnd)).play further).state) ∧
    ∃ fault, ((((World.start slowSetup staffHub).play [.input (.connect .webSocket)]).input
      (slowSubscribe "1")).play (slowQueue ++ [.input (.call (.shutdown 0))] ++ slowDrain ++
        slowEnd)).state.reply? 0 = some (.failed fault) := by
  refine ⟨by decide +kernel, fun further => ?_, ?_⟩
  · have final := shutdown_is_final slowSetup staffHub
      ([.input (.connect .webSocket), .input (slowSubscribe "1")] ++ slowQueue)
    exact (final.1 0 (slowDrain ++ slowEnd) (by decide +kernel) further).1
  · have answered : ((((World.start slowSetup staffHub).play [.input (.connect .webSocket)]).input
        (slowSubscribe "1")).play (slowQueue ++ [.input (.call (.shutdown 0))] ++ slowDrain ++
          slowEnd)).state.reply? 0 |>.isSome := by decide +kernel
    obtain ⟨reply, answer⟩ := Option.isSome_iff_exists.mp answered
    have final := shutdown_is_final slowSetup staffHub [.input (.connect .webSocket)]
    obtain ⟨fault, rfl⟩ := final.2 0 "1" { query := "subscription { employee { id } }" }
      (slowQueue ++ [.input (.call (.shutdown 0))] ++ slowDrain) (by decide +kernel)
      (Option.isNone_iff_eq_none.mp (by decide +kernel)) slowEnd reply
      (by rw [← World.play_append]; exact answer)
    exact ⟨fault, answer⟩

end Engine

end SubscriptionGateway
