import SubscriptionGateway.Proofs.Engine.Parting

/-!
How a subscription comes to its end. It ends once, and its delivery parts with what that end brings:
nothing when it was unsubscribed, completion when the engine shuts down, an error and completion
when its source has failed. Answers come before, and none that was being resolved comes after.
-/
namespace SubscriptionGateway

open Broker

namespace Engine

variable {e e' : Engine} {a : Action} {s : SubscriptionId} {x x' : Subscriber} {c : ConnectionId}
  {isOpen isOpen' : Prop} {talk more : List Happening} {ends : List Ending} {k : Ending}
  {said : List (ConnectionId × Frame)} {chain todo rest : List Action} {l : List (List Action)}
  {others : List (List Action)} {f : Effect} {b : BindingId} {d : Duties}

/-! ## What has brought an end about -/

/-- What must have been done for a subscription to end so. -/
def Cause (s : SubscriptionId) (log : Steps) : Ending → Prop
  | .unsubscribed => ∃ p ∈ log, p.2 = .unsubscribe s
  | .told none => ∃ p ∈ log, ∃ drainMs, p.2 = .shutdown drainMs
  | .told (some error) => error = sourceFailed ∧
    ∃ p ∈ log, ∃ b, p.2 = .failBinding b ∧ s ∈ p.1.books.members b

def Action.winds : Action → Bool
  | .shutdown _ | .awaitDrain .. | .terminateAll | .sweepAll | .sweep _ => true
  | .terminate _ none => true
  | _ => false

structure Caused (s : SubscriptionId) (pool : List Action) (log : Steps) : Prop where
  winding : ∀ a ∈ pool, a.winds = true → (∃ drainMs, a = .shutdown drainMs) ∨
      Cause s log (.told none)
  failing : ∀ error, .terminate s (some error) ∈ pool → Cause s log (.told (some error))
  ended : ∀ k ∈ ended s log, Cause s log k

theorem cause_more {log more : Steps} {k : Ending} (cause : Cause s log k) :
    Cause s (log ++ more) k := by
  cases k with
  | unsubscribed =>
    obtain ⟨p, member, done⟩ := cause
    exact ⟨p, List.mem_append_left _ member, done⟩
  | told t =>
    cases t with
    | none =>
      obtain ⟨p, member, done⟩ := cause
      exact ⟨p, List.mem_append_left _ member, done⟩
    | some error =>
      obtain ⟨which, p, member, done⟩ := cause
      exact ⟨which, p, List.mem_append_left _ member, done⟩

theorem brings_winding {a' : Action} (brings : a.Brings a') (winds : a'.winds = true) :
    a.winds = true ∧ ∀ drainMs, a' ≠ .shutdown drainMs := by
  cases a with
  | failBinding b =>
    obtain ⟨s', rfl | rfl⟩ := brings <;> simp [Action.winds] at winds
  | _ => cases a' <;> simp_all [Action.Brings, Action.winds]

theorem failBinding_terminates {error : ClientError}
    (member : .terminate s (some error) ∈ (e.perform (.failBinding b)).sequel) :
    error = sourceFailed ∧ s ∈ e.books.members b := by
  rw [← empty_members]
  simpa [perform, failBinding, Effect.sequel, and_comm] using member

theorem caused_upheld (s : SubscriptionId) :
    Upheld (fun _ _ _ => True) fun _ ts log => Caused s ts.flatten log := by
  refine upheld_pending (P := fun _ pool log => Caused s pool log) ?_ ?_ ?_
  · intro e p q log perm caused
    exact ⟨fun a member => caused.winding a (perm.mem_iff.mpr member),
      fun error member => caused.failing error (perm.mem_iff.mpr member), caused.ended⟩
  · intro e ts log i _ caused
    have asked (a : Action) (member : a ∈ i.task e) :
        (a.winds = true → ∃ drainMs, a = .shutdown drainMs) ∧ ∀ t, a ≠ .terminate s t := by
      cases task_begins member <;> simp [Action.winds]
    refine ⟨fun a member winds => ?_, fun error member => ?_, caused.ended⟩
    · rcases List.mem_append.mp member with new | old
      · exact .inl ((asked a new).1 winds)
      · exact caused.winding a old winds
    · rcases List.mem_append.mp member with new | old
      · exact absurd rfl ((asked _ new).2 _)
      · exact caused.failing error old
  · intro e a rest ts log _ _ _ caused
    have winding (winds : a.winds = true) : Cause s (log ++ [(e, a)]) (.told none) := by
      rcases caused.winding a (List.mem_cons_self ..) winds with ⟨drainMs, rfl⟩ | before
      · exact ⟨(e, .shutdown drainMs), by simp, drainMs, rfl⟩
      · exact cause_more before
    refine ⟨fun a' member winds => ?_, fun error member => ?_, fun k member => ?_⟩
    · rcases List.mem_append.mp member with new | old
      · exact .inr (winding (brings_winding (perform_brings e a a' new) winds).1)
      · exact (caused.winding a' (List.mem_cons_of_mem _ old) winds).imp_right cause_more
    · rcases List.mem_append.mp member with new | old
      · have brings := perform_brings e a _ new
        cases a with
        | failBinding b =>
          obtain ⟨rfl, inside⟩ := failBinding_terminates new
          exact ⟨rfl, (e, .failBinding b), by simp, b, rfl, inside⟩
        | _ => simp [Action.Brings] at brings
      · exact cause_more (caused.failing error (List.mem_cons_of_mem _ old))
    · rw [ended_more] at member
      rcases List.mem_append.mp member with old | new
      · exact cause_more (caused.ended k old)
      · cases a with
        | unsubscribe s' =>
          obtain ⟨⟨rfl, -⟩, rfl⟩ : (s' = s ∧ e.isRegistered s = true) ∧ k = .unsubscribed := by
            simpa [endings] using new
          exact ⟨(e, .unsubscribe s'), by simp, rfl⟩
        | terminate s' t =>
          obtain ⟨⟨rfl, -⟩, rfl⟩ : (s' = s ∧ e.isRegistered s = true) ∧ k = .told t := by
            simpa [endings] using new
          cases t with
          | none => exact winding rfl
          | some error => exact cause_more (caused.failing error (List.mem_cons_self ..))
        | _ => simp [endings] at new

/-! ## Resolutions that come too late -/

def Action.hands (s : SubscriptionId) : Action → Bool
  | .offer _ _ (.event a) => a = s
  | .enqueue _ _ _ (.event a) => a = s
  | _ => false

def Action.resolving (s : SubscriptionId) : Action → Bool
  | .resolve a _ => a = s
  | .deliverOutcome a _ => a = s
  | _ => false

/-- A subscription is over; the answers that have gone, with those on their way, are so many at
most. -/
structure Owing (s : SubscriptionId) (n : Nat) (e : Engine) (pool : List Action)
    (log : Steps) : Prop where
  finished : e.books.phase s = some .cancelled
  few : (answered s (happened log)).length + (pool.filter (Action.hands s)).length ≤ n

theorem sequel_idle {b : Action} (finished : e.books.phase s = some .cancelled)
    (idle : a.hands s = false) (member : b ∈ (e.perform a).sequel) : b.hands s = false := by
  have brings := perform_brings e a b member
  cases a with
  | deliverOutcome s' r =>
    simp only [perform, deliverOutcome] at member
    split at member
    · rename_i x y found _
      split at member
      · rename_i active _
        obtain rfl : b = _ := by simpa [Effect.sequel] using member
        refine decide_eq_false fun same => ?_
        subst same
        have past : x.life.phase = .cancelled := by simpa [books, found] using finished
        simp [Lifecycle.isActive, past] at active
      · obtain rfl : b = _ := by simpa [Effect.sequel] using member
        rfl
    · simp [Effect.sequel] at member
  | offer c f r =>
    rcases brings with ⟨due, rfl⟩ | ⟨s', rfl, rfl⟩
    · cases r <;> exact idle
    · rfl
  | _ => cases b <;> first | rfl | simp_all [Action.Brings, Action.hands]

/-- An answer on its way goes at most once; nothing else becomes an answer any more. -/
theorem perform_hands (finished : e.books.phase s = some .cancelled) :
    (answered s (e.happenings a)).length + ((e.perform a).sequel.filter (Action.hands s)).length ≤
      ([a].filter (Action.hands s)).length := by
  cases hands : a.hands s with
  | false =>
    have none : (e.perform a).sequel.filter (Action.hands s) = [] :=
      List.filter_eq_nil_iff.mpr fun b member => by simp [sequel_idle finished hands member]
    have mute : answered s (e.happenings a) = [] := by
      cases a with
      | enqueue c f due r =>
        simp only [happenings]
        split
        · cases r <;> simp_all [answered, Action.hands]
        · rfl
      | fanOut call? b event => exact (silent_given _ event).answered
      | _ => rfl
    rw [none, mute]
    exact Nat.zero_le _
  | true =>
    rw [List.filter_cons_of_pos hands]
    cases a with
    | offer c f r =>
      have mute : answered s (e.happenings (.offer c f r)) = [] := rfl
      rw [mute, List.length_nil, Nat.zero_add, List.length_cons]
      refine Nat.le_trans (List.length_filter_le ..) ?_
      simp only [perform, offer]
      split
      · cases r <;> simp [receipt, Effect.sequel]
      · simp [Effect.sequel]
    | enqueue c f due r =>
      have ends (e' : Engine) (result : Except Fault Unit) :
          (e'.receipt result r).sequel.filter (Action.hands s) = [] :=
        List.filter_eq_nil_iff.mpr fun b member => by
          obtain ⟨s', -, ⟨rfl, -⟩ | rfl⟩ := receipt_brings result r b member <;>
          exact Bool.false_ne_true
      have sequel : (e.perform (.enqueue c f due r)).sequel.filter (Action.hands s) = [] := by
        cases takes : e.takes c with
        | true =>
          obtain ⟨e', same, -⟩ := enqueue_taken (f := f) (r := r) takes
          simp only [perform, same, ends]
        | false =>
          obtain ⟨e', fault, same, -⟩ := enqueue_refused (f := f) (r := r) takes
          simp only [perform, same, ends]
      rw [sequel, List.length_nil, Nat.add_zero, List.length_cons]
      refine Nat.le_trans (List.length_filterMap_le ..) ?_
      simp only [happenings]
      split <;> simp
    | _ => simp [Action.hands] at hands

theorem owing_upheld (s : SubscriptionId) (n : Nat) :
    Upheld Regular fun e ts log => Owing s n e ts.flatten log := by
  have phase {e e' : Engine} (proceeds : Proceeds e e')
        (finished : e.books.phase s = some .cancelled) :
      e'.books.phase s = some .cancelled := by
    have past := over_lasts (s := s) proceeds (by simp [finished, standing])
    cases read : e'.books.phase s with
    | none => simp [read, standing] at past
    | some p => cases p <;> simp_all [standing]
  refine upheld_pending (P := fun e pool log => Owing s n e pool log) ?_ ?_ ?_
  · intro e p q log perm before
    exact ⟨before.finished, (perm.filter _).length_eq ▸ before.few⟩
  · intro e ts log i known before
    refine ⟨phase (input_proceeds i known.1.1) before.finished, ?_⟩
    have none : (i.task e).filter (Action.hands s) = [] :=
      List.filter_eq_nil_iff.mpr fun a member => by
        cases task_begins member <;> exact Bool.false_ne_true
    rw [List.filter_append, none, List.nil_append]
    exact before.few
  · rintro e a rest ts log ready pending ⟨⟨sound, honored⟩, -⟩ before
    rw [pending] at honored
    have proceeds := perform_proceeds ready (sound.sound pending) fun call r same =>
      honored.plain call r (same ▸ List.mem_cons_self ..)
    refine ⟨phase proceeds before.finished, ?_⟩
    have one : (answered s (e.happenings a)).length +
        ((e.perform a).sequel.filter (Action.hands s)).length ≤
          ([a].filter (Action.hands s)).length := perform_hands before.finished
    have few := before.few
    have split : (a :: rest).filter (Action.hands s) =
        [a].filter (Action.hands s) ++ rest.filter (Action.hands s) := List.filter_append [a] rest
    have after : ((e.perform a).next ++ (e.perform a).started.flatten ++ rest).filter
        (Action.hands s) =
        (e.perform a).sequel.filter (Action.hands s) ++ rest.filter (Action.hands s) :=
      List.filter_append ..
    rw [split, List.length_append] at few
    rw [happened_more, answered_append, List.length_append, after, List.length_append]
    omega

/-- Whoever is over is answered no more than what is on its way. -/
theorem late_answers {w : World} (regular : Always w Regular)
    (finished : w.state.books.phase s = some .cancelled) (later : List Move) :
    (answered s (w.record happenings later)).length ≤
      (w.pending.filter (Action.hands s)).length := by
  have first : Owing s (w.pending.filter (Action.hands s)).length w.state w.pending [] :=
    ⟨finished, Nat.le_of_eq (Nat.zero_add _)⟩
  have few := ((regular.and (owing_upheld s _) first).throughout later).2.few
  have talked : w.record happenings later = happened (w.steps later) := World.record_steps ..
  rw [talked]
  exact Nat.le_trans (Nat.le_add_right ..) few

theorem stand_unique {pool : List Action} {b : Action} {t u : Stand} (story : Story s e pool talk x)
    (first : a ∈ pool) (here : a.stand? s = some t) (second : b ∈ pool)
    (there : b.stand? s = some u) : t = u := by
  have one : t ∈ stands s pool := List.mem_filterMap.mpr ⟨a, first, here⟩
  have other : u ∈ stands s pool := List.mem_filterMap.mpr ⟨b, second, there⟩
  obtain ⟨v, whole⟩ := List.length_eq_one_iff.mp
    (Nat.le_antisymm story.single (List.length_pos_of_mem one))
  rw [whole, List.mem_singleton] at one other
  rw [one, other]

theorem resolving_idle {pool : List Action} (story : Story s e pool talk x)
    (resolving : ∃ a ∈ pool, a.resolving s = true) : ∀ a ∈ pool, a.hands s = false := by
  obtain ⟨a, pending, resolves⟩ := resolving
  intro b member
  by_contra hands
  obtain ⟨t, stand, plain⟩ : ∃ t, a.stand? s = some t ∧
        ∀ c f, t ≠ .offer c f ∧ t ≠ .enqueue c f := by
    cases a <;> simp_all [Action.resolving, Action.stand?]
  obtain ⟨c, f, u, stand', form⟩ :
      ∃ c f u, b.stand? s = some u ∧ (u = .offer c f ∨ u = .enqueue c f) := by
    cases b with
    | offer c f r | enqueue c f due r => cases r <;> simp_all [Action.hands, Action.stand?]
    | _ => simp [Action.hands] at hands
  have same := stand_unique story pending stand member stand'
  rcases form with rfl | rfl
  · exact (plain c f).1 same
  · exact (plain c f).2 same

/-! ## Every play -/

theorem lastWords_complete {t? : Option Termination} {before after : List (ConnectionId × Frame)}
    {m : ConnectionId × Frame} (split : lastWords x t? = before ++ m :: after)
    (complete : m.2.isMessage = false) : after = [] := by
  cases t? with
  | none => simp [lastWords] at split
  | some t =>
    cases t with
    | none =>
      cases before with
      | nil => simpa [lastWords, lastFrames, eq_comm] using (List.cons.inj split).2
      | cons y before => simp [lastWords, lastFrames] at split
    | some error =>
      cases before with
      | nil =>
        obtain ⟨rfl, -⟩ := List.cons.inj split
        simp [Frame.error, Frame.isMessage] at complete
      | cons y before =>
        cases before with
        | nil =>
          have rest := (List.cons.inj split).2
          simpa [eq_comm] using (List.cons.inj rest).2
        | cons z before => simp [lastWords, lastFrames] at split

/-- What has been said is what the end brings, as far as it goes. -/
theorem Stage.brought (stage : Stage s x isOpen said ends l) :
    ends = [] ∧ said = [] ∨ ∃ k, ends = [k] ∧ said <+: lastWords x k.termination? := by
  have begun (begun : Begun x ends) (order : said <+: lastWords x x.termination?) :
      ends = [] ∧ said = [] ∨ ∃ k, ends = [k] ∧ said <+: lastWords x k.termination? := by
    by_cases active : x.life.phase = .active
    · obtain ⟨none, unended, -⟩ := begun.active active
      rw [unended] at order
      exact .inl ⟨none, List.prefix_nil.mp order⟩
    · obtain ⟨-, k, one, termination, -⟩ := begun.finished active
      exact .inr ⟨k, one, termination ▸ order⟩
  cases stage with
  | before _ _ _ _ mute none => exact .inl ⟨none, mute⟩
  | works a _ here mute =>
    refine begun here ?_
    rw [mute]
    exact List.nil_prefix
  | closes _ here parts | hands _ _ _ here parts | finished _ here parts =>
      exact begun here parts.order

theorem stage_over {ts : List (List Action)} (story : Story s e ts.flatten talk x)
    (stage : Stage s x isOpen said ends (chains s ts)) (stopped : x.delivering = false) :
    Begun x ends ∧ Parts x isOpen said [] := by
  have running {chain : List Action} {b : Action} (linked : chain ∈ chains s ts)
        (inside : b ∈ chain)
      (stands : b.stand? s ≠ none) : False := by
    obtain ⟨t, stand⟩ := Option.ne_none_iff_exists'.mp stands
    have somewhere : t ∈ Engine.stands s ts.flatten :=
      List.mem_filterMap.mpr ⟨b, mem_chains linked inside, stand⟩
    have delivering := story.delivering (List.ne_nil_of_mem somewhere)
    simp [stopped] at delivering
  generalize whole : chains s ts = l at stage running
  cases stage with
  | before _ _ _ ready => simp [stopped] at ready
  | works a ongoing =>
    refine (running (List.mem_singleton.mpr rfl) (List.mem_singleton.mpr rfl) ?_).elim
    cases a with
    | offer c f r | enqueue c f due r => cases r <;> simp_all [Action.works, Action.stand?]
    | _ => simp_all [Action.works, Action.stand?]
  | closes last =>
    refine (running (b := .endDelivery s) (List.mem_singleton.mpr rfl) ?_ ?_).elim
    · simp [goodbye]
    · simp [Action.stand?]
  | hands f due last =>
    refine (running (b := .endDelivery s) (List.mem_singleton.mpr rfl) ?_ ?_).elim
    · simp [goodbye]
    · simp [Action.stand?]
  | finished _ begun parts => exact ⟨begun, parts⟩

theorem Part.final (part : Part s x isOpen talk ends l) {m : ConnectionId × Frame}
    {before after : List (ConnectionId × Frame)} (split : spoken s talk = before ++ m :: after)
    (complete : m.2.isMessage = false) : after = [] := by
  have finish (earlier : List (ConnectionId × Frame))
    (last : parted s talk = earlier ++ m :: after) :
      after = [] := by
    rcases part.stage.brought with ⟨-, none⟩ | ⟨k, -, order⟩
    · simp [none] at last
    · obtain ⟨unsaid, whole⟩ := order
      rw [last, List.append_assoc, List.cons_append] at whole
      exact (List.append_eq_nil_iff.mp (lastWords_complete whole.symm complete)).1
  rw [part.order] at split
  rcases List.append_eq_append_iff.mp split with ⟨earlier, -, last⟩ | ⟨later, said, rest⟩
  · exact finish earlier last
  · cases later with
    | nil => exact finish [] rest.symm
    | cons y later =>
      obtain ⟨rfl, -⟩ := List.cons.inj rest
      have message := (part.answers m (by simp [said])).2
      simp [complete] at message

/-- A subscription ends once, in one of three ways. Its delivery speaks to its own connection only:
first data and errors, and then what its end brings, in this order and as far as the connection
lets it; a delivery that has come to its end while the connection is open has said all of it.
Nothing follows completion, and nothing that was being resolved at the end is said after it. -/
theorem last_words_last (setup : Setup) (hub : Hub) (moves : List Move) (s : SubscriptionId)
    (x : Subscriber)
    (present : ((World.start setup hub).play moves).state.subscribers[s]? = some x) :
    let w := (World.start setup hub).play moves
    let talk := (World.start setup hub).record happenings moves
    let ends := (World.start setup hub).record (endings s) moves
    spoken s talk = answered s talk ++ parted s talk ∧
    (∀ m ∈ answered s talk, m.1 = x.connection ∧ m.2.isMessage = true) ∧
    (ends = [] ∧ parted s talk = [] ∨
      ∃ k, ends = [k] ∧ Cause s ((World.start setup hub).steps moves) k ∧
        parted s talk <+: lastWords x k.termination?) ∧
    (x.delivering = false → w.state.isClosed x.connection = false →
      ∃ k, ends = [k] ∧ parted s talk = lastWords x k.termination?) ∧
    (∀ before m after, spoken s talk = before ++ m :: after → m.2.isMessage = false → after = []) ∧
    (x.life.phase = .cancelled → (∃ a ∈ w.pending, a.resolving s = true) →
      ∀ later, answered s (w.record happenings later) = []) := by
  intro w talk ends
  obtain ⟨⟨regular, delivery⟩, parting⟩ := (start_parting setup hub s).throughout moves
  have talked : talk = happened ((World.start setup hub).steps moves) := World.record_steps ..
  have finished : ends = ended s ((World.start setup hub).steps moves) := World.record_steps ..
  have part := parting.present x present
  rw [← talked, ← finished] at part
  have caused := ((start_parting setup hub s).and ((caused_upheld s).given fun _ => trivial)
    ⟨by simp [World.start], by simp [World.start], by simp [ended]⟩).throughout moves
  have onward := part.stage.brought
  refine ⟨part.order, part.answers, ?_, fun stopped isOpen => ?_,
      fun before m after split complete => ?_,
    fun past resolving later => ?_⟩
  · refine onward.imp_right ?_
    rintro ⟨k, one, order⟩
    refine ⟨k, one, caused.2.ended k ?_, order⟩
    rw [← finished, one]
    exact List.mem_singleton.mpr rfl
  · obtain ⟨begun, parts⟩ := stage_over (delivery.present x present) part.stage stopped
    obtain ⟨past, whole⟩ := parts.whole isOpen
    obtain ⟨-, k, one, termination, -⟩ := begun.finished (by simp [past])
    exact ⟨k, one, by rw [← termination, ← whole, List.append_nil]⟩
  · exact part.final split complete
  · have idle := resolving_idle (delivery.present x present) resolving
    have always : Always w Regular :=
      (start_regular setup hub).later (P := fun e ts => Regular e ts []) moves
    have none : w.pending.filter (Action.hands s) = [] :=
      List.filter_eq_nil_iff.mpr fun a member => by simp [idle a member]
    have finished : w.state.books.phase s = some .cancelled := by simp [w, books, present, past]
    have few := late_answers always finished later
    rw [none] at few
    exact List.eq_nil_of_length_eq_zero (Nat.le_zero.mp few)

def staffEnded : List Move :=
  staffMoves ++ staffAnswer ++ staffFailure ++ [.step 0, .step 0, .step 0]

def staffLeaving : List Move :=
  staffMoves ++ [.input (.call (.dispatch staffEvent)), .step 2, .step 0, .step 1,
    .input (.call (.unsubscribe 0)), .step 2]

theorem staff_last_words :
    (∃ x k, ((World.start staffSetup staffHub).play staffEnded).state.subscribers[0]? = some x ∧
      (World.start staffSetup staffHub).record (endings 0) staffEnded = [k] ∧
      parted 0 ((World.start staffSetup staffHub).record happenings staffEnded) =
        lastWords x k.termination?) ∧
    (parted 0 ((World.start staffSetup staffHub).record happenings staffEnded)).length = 2 ∧
    ∀ later, answered 0 (((World.start staffSetup staffHub).play staffLeaving).record happenings
      later) = [] := by
  refine ⟨?_, by decide +kernel, ?_⟩
  · have state : ((World.start staffSetup staffHub).play staffEnded).state.subscribers[0]?.map
        (fun x => (x.delivering, ((World.start staffSetup staffHub).play staffEnded).state.isClosed
          x.connection)) = some (false, false) := by decide +kernel
    obtain ⟨x, present, both⟩ := Option.map_eq_some_iff.mp state
    obtain ⟨stopped, isOpen⟩ := Prod.mk.inj both
    obtain ⟨-, -, -, all, -, -⟩ := last_words_last staffSetup staffHub staffEnded 0 x present
    obtain ⟨k, one, said⟩ := all stopped isOpen
    exact ⟨x, k, present, one, said⟩
  · have state : ((World.start staffSetup staffHub).play staffLeaving).state.subscribers[0]?.map
        (·.life.phase) = some .cancelled := by decide +kernel
    obtain ⟨x, present, past⟩ := Option.map_eq_some_iff.mp state
    have resolving : ((World.start staffSetup staffHub).play staffLeaving).pending.any
        (Action.resolving 0) = true := by decide +kernel
    obtain ⟨-, -, -, -, -, late⟩ := last_words_last staffSetup staffHub staffLeaving 0 x present
    exact late past (List.any_eq_true.mp resolving)

end Engine

end SubscriptionGateway
