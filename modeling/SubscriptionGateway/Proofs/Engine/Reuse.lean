import SubscriptionGateway.Proofs.Engine.LastWords

/-!
What is said on a connection under a client id that has been used before. A subscription that is
over may still have one answer on its way to the queue, and its last words if it was told of its
end; they may come when its client id is another one's. Nothing else of it does.
-/
namespace SubscriptionGateway

open Broker

namespace Engine

variable {e : Engine} {s : SubscriptionId} {x : Subscriber} {c : ConnectionId} {f : Frame}
  {talk : List Happening} {ends : List Ending} {pool : List Action} {ts : List (List Action)}
  {log : Steps}

theorem hands_le_stands (s : SubscriptionId) (pool : List Action) :
    (pool.filter (Action.hands s)).length ≤ (stands s pool).length := by
  induction pool with
  | nil => exact Nat.le_refl _
  | cons a pool ih =>
    by_cases hands : a.hands s = true
    · obtain ⟨t, stand⟩ : ∃ t, a.stand? s = some t := by
        cases a with
        | offer c f r | enqueue c f due r => cases r <;> simp_all [Action.hands, Action.stand?]
        | _ => simp [Action.hands] at hands
      simpa [stands, List.filter_cons_of_pos hands, stand] using ih
    · rw [List.filter_cons_of_neg hands]
      refine Nat.le_trans ih ?_
      simp only [stands, List.filterMap_cons]
      split
      · exact Nat.le_refl _
      · exact Nat.le_succ _

theorem ofOutcome_clientId (clientId : String) (o : SubscriptionGateway.Outcome) :
    (Frame.ofOutcome clientId o).clientId = clientId := by
  cases o <;> rfl

theorem mem_spoken (queued : .queued c f r ∈ talk) (whose : r = .event s ∨ r = .ending s) :
    (c, f) ∈ spoken s talk := by
  refine List.mem_filterMap.mpr ⟨_, queued, ?_⟩
  rcases whose with rfl | rfl <;> simp

theorem spoken_addressed (attended : Attended s e ts log) (parting : Parting s e ts log)
    (found : e.subscribers[s]? = some x) :
    ∀ m ∈ spoken s (happened log), m.1 = x.connection ∧ m.2.clientId = x.clientId := by
  have part := parting.present x found
  have lastly (t? : Option Termination) (m : ConnectionId × Frame) (last : m ∈ lastWords x t?) :
      m.1 = x.connection ∧ m.2.clientId = x.clientId := by
    cases t? with
    | none => simp [lastWords] at last
    | some t =>
      cases t with
      | none =>
        obtain rfl : m = _ := by simpa [lastWords, lastFrames] using last
        exact ⟨rfl, rfl⟩
      | some error =>
        have either : m = (x.connection, .error x.clientId [error]) ∨
            m = (x.connection, .complete x.clientId) := by
          simpa [lastWords, lastFrames] using last
        rcases either with rfl | rfl <;> exact ⟨rfl, rfl⟩
  intro m said
  rw [part.order] at said
  rcases List.mem_append.mp said with answer | last
  · obtain ⟨_, _, ⟨done, -, told, -⟩, -, -, byes⟩ := (attended.2.present x found).told
    have among : m ∈ messages s (happened log) := by
      have message := (part.answers m answer).2
      obtain ⟨h, member, reads⟩ := List.mem_filterMap.mp answer
      refine List.mem_filterMap.mpr ⟨h, member, ?_⟩
      cases h with
      | found => simp at reads
      | queued c f r =>
        cases r with
        | event a =>
          obtain ⟨rfl, rfl⟩ : a = s ∧ (c, f) = m := by simpa using reads
          simpa using message
        | ending | call => simp at reads
    rw [told] at among
    rcases List.mem_append.mp among with given | farewell
    · obtain ⟨d, -, rfl⟩ := List.mem_map.mp given
      exact ⟨rfl, ofOutcome_clientId ..⟩
    · obtain ⟨rfl, -⟩ := byes m (List.mem_append_left _ farewell)
      exact ⟨rfl, rfl⟩
  · rcases part.stage.brought with ⟨-, none⟩ | ⟨k, -, order⟩
    · simp [none] at last
    · exact lastly k.termination? m (order.subset last)

theorem ended_over (parting : Parting s e ts log) {k : Ending} (member : k ∈ ended s log) :
    ∃ x, e.subscribers[s]? = some x ∧ x.life.phase = .cancelled := by
  cases found : e.subscribers[s]? with
  | none => simp [(parting.absent found).2.2] at member
  | some x =>
    have stage := (parting.present x found).stage
    refine ⟨x, rfl, ?_⟩
    cases phase : x.life.phase with
    | pending =>
      obtain ⟨-, -, -, -, -, none⟩ := stage.pending phase
      simp [none] at member
    | active => simp [(stage.active phase).1] at member
    | cancelled => rfl

/-! ## Whoever speaks has been registered -/

theorem active_stays {rest : List Action} (sound : e.books.Sound (duties (a :: rest)))
    (first : Prepared e [] a) (found : e.subscribers[s]? = some x)
    (active : x.life.phase = .active) (endless : endings s e a = []) :
    ∃ x', (e.perform a).engine.subscribers[s]? = some x' ∧ x'.life.phase = .active := by
  have seeks {b : BindingId} (seeker : a.seeks? = some (b, s)) : False := by
    obtain ⟨x', found', pending⟩ := seeker_pending sound seeker
    obtain rfl : x = x' := by simpa [found] using found'
    simp [active] at pending
  have registered : e.isRegistered s = true :=
    (isRegistered_iff e s).mpr ((sound.active_iff s).mpr (by simp [books, found, active]))
  by_cases still : a.moves s = false
  · obtain ⟨x', found', alike, -⟩ := perform_alike sound first found still
    exact ⟨x', found', alike.life ▸ active⟩
  · cases a with
    | join call b s' | openSource call b s' due =>
      obtain rfl : s' = s := by simpa [Action.moves] using still
      exact (seeks (b := b) rfl).elim
    | unsubscribe s' | terminate s' t =>
      obtain rfl : s' = s := by simpa [Action.moves] using still
      simp [endings, registered] at endless
    | endDelivery s' =>
      obtain rfl : s' = s := by simpa [Action.moves] using still
      simp [perform, endDelivery, found, updateSubscriber, doneWith, active]
    | _ => simp [Action.moves] at still

def Voiced (s : SubscriptionId) (e : Engine) (log : Steps) : Prop :=
  answered s (happened log) ≠ [] → ∃ x, e.subscribers[s]? = some x ∧ Begun x (ended s log)

theorem begun_onward {todo : List Action} {others : List (List Action)}
    (known : Attended s e ((a :: todo) :: others) log)
    (parting : Parting s e ((a :: todo) :: others) log)
    (found : e.subscribers[s]? = some x) (begun : Begun x (ended s log)) :
    ∃ x', (e.perform a).engine.subscribers[s]? = some x' ∧
      Begun x' (ended s (log ++ [(e, a)])) := by
  obtain ⟨⟨⟨sound, -⟩, orderly⟩, delivery⟩ := known
  have first := (orderly _ (List.mem_cons_self ..)).head
  have after := perform_parting sound first delivery parting
  obtain ⟨x', found', -⟩ := perform_same e a found
  refine ⟨x', found', ?_⟩
  have stage := (after.present x' found').stage
  generalize chains s
    (((e.perform a).next ++ todo) :: ((e.perform a).started ++ others)) = l at stage
  cases stage with
  | works _ _ begun | closes _ begun | hands _ _ _ begun | finished _ begun => exact begun
  | before idle _ _ _ _ none =>
    -- It would have been active and not be any more, without an end.
    exfalso
    rw [ended_more, List.append_eq_nil_iff] at none
    obtain ⟨unended, endless⟩ := none
    rw [unended] at begun
    by_cases active : x.life.phase = .active
    · obtain ⟨x'', found'', still⟩ := active_stays sound first found active endless
      obtain rfl : x' = x'' := by simpa [found'] using found''
      exact idle still
    · obtain ⟨-, k, one, -⟩ := begun.finished active
      simp at one

theorem voiced_upheld (s : SubscriptionId) :
    Upheld (fun e ts log => Attended s e ts log ∧ Parting s e ts log) fun e _ log =>
      Voiced s e log where
  shuffle _ voiced := voiced
  idle voiced := voiced
  outside {e ts log} i known voiced spoken := by
    obtain ⟨x, found, begun⟩ := voiced spoken
    exact ⟨x, (input_spares e i).1 ▸ found, begun⟩
  inside {e a todo others log} _ known voiced spoken := by
    obtain ⟨attended, parting⟩ := known
    have there : ∃ x, e.subscribers[s]? = some x ∧ Begun x (ended s log) := by
      by_cases before : answered s (happened log) = []
      · rw [happened_more, answered_append, before, List.nil_append] at spoken
        have mine : a.delivers? = some s := by
          by_contra other
          exact spoken (silent_other e other).answered
        have linked : chains s ((a :: todo) :: others) ≠ [] := by
          rw [chains_cons, own_cons mine]
          simp [link]
        cases found : e.subscribers[s]? with
        | none => exact absurd (parting.absent found).1 linked
        | some x =>
          refine ⟨x, rfl, ?_⟩
          have stage := (parting.present x found).stage
          generalize chains s ((a :: todo) :: others) = l at stage linked
          cases stage with
          | before => exact absurd rfl linked
          | works _ _ begun | closes _ begun | hands _ _ _ begun | finished _ begun => exact begun
      · exact voiced before
    obtain ⟨x, found, begun⟩ := there
    exact begun_onward attended parting found begun

theorem start_voiced (setup : Setup) (hub : Hub) (s : SubscriptionId) :
    Always (World.start setup hub) fun e ts log =>
      (Attended s e ts log ∧ Parting s e ts log) ∧ Voiced s e log :=
  (start_parting setup hub s).and (voiced_upheld s) fun spoken => absurd rfl spoken

theorem spoken_ended (parting : Parting s e ts log) (voiced : Voiced s e log)
    (spoken : spoken s (happened log) ≠ []) : ∃ x, e.subscribers[s]? = some x ∧
      (x.life.phase = .active ∨ ∃ k, k ∈ ended s log) := by
  cases found : e.subscribers[s]? with
  | none => exact absurd (parting.absent found).2.1.spoken spoken
  | some x =>
    refine ⟨x, rfl, ?_⟩
    have part := parting.present x found
    by_cases active : x.life.phase = .active
    · exact .inl active
    right
    rcases part.stage.brought with ⟨-, mute⟩ | ⟨k, one, -⟩
    · rw [part.order, mute, List.append_nil] at spoken
      obtain ⟨x', found', begun⟩ := voiced spoken
      obtain rfl : x = x' := by simpa [found] using found'
      obtain ⟨-, k, one, -⟩ := begun.finished active
      exact ⟨k, one ▸ List.mem_singleton.mpr rfl⟩
    · exact ⟨k, one ▸ List.mem_singleton.mpr rfl⟩

/-! ## What comes late -/

/-- Of a subscription that has ended, one answer at most is still to come, which is on its way
then, and what its end brings. -/
theorem late_frames (setup : Setup) (hub : Hub) (before later : List Move) {s : SubscriptionId}
    {k : Ending} (ended : k ∈ ended s ((World.start setup hub).steps before)) :
    let w := (World.start setup hub).play before
    ∃ x, (w.play later).state.subscribers[s]? = some x ∧
      (answered s (happened (w.steps later))).length ≤
        (w.pending.filter (Action.hands s)).length ∧
      (w.pending.filter (Action.hands s)).length ≤ 1 ∧
      parted s (happened ((World.start setup hub).steps (before ++ later))) <+:
        lastWords x k.termination? := by
  intro w
  obtain ⟨⟨-, delivery⟩, parting⟩ := (start_parting setup hub s).throughout before
  obtain ⟨y, present, past⟩ := ended_over parting ended
  have finished : w.state.books.phase s = some .cancelled := by simp [w, books, present, past]
  have regular : Always w Regular :=
    (start_regular setup hub).later (P := fun e ts => Regular e ts []) before
  obtain ⟨-, after⟩ := (start_parting setup hub s).throughout (before ++ later)
  rw [World.play_append] at after
  have still : k ∈ Engine.ended s ((World.start setup hub).steps (before ++ later)) := by
    rw [World.steps_append, Engine.ended, List.flatMap_append]
    exact List.mem_append_left _ ended
  obtain ⟨x, found, -⟩ := ended_over after still
  have few := late_answers regular finished later
  rw [World.record_steps] at few
  refine ⟨x, found, few, ?_, ?_⟩
  · exact Nat.le_trans (hands_le_stands s w.pending) (delivery.present y present).single
  · rcases (after.present x found).stage.brought with ⟨none, -⟩ | ⟨k', one, order⟩
    · simp [none] at still
    · rw [one, List.mem_singleton] at still
      exact still ▸ order

/-- Of a subscription that has ended, one answer at most is still to come, which is on its way
then, and what its end brings. As long as a subscription is registered, all that comes to its
connection under its client id answers its own events, or is of another subscription that has the
id as well, or has been given by a call. -/
theorem reused_id_frames (setup : Setup) (hub : Hub) (before later : List Move) :
    let w := (World.start setup hub).play before
    let talk := w.record happenings later
    (∀ s k, k ∈ (World.start setup hub).record (endings s) before →
      ∃ x, (w.play later).state.subscribers[s]? = some x ∧
        (answered s talk).length ≤ (w.pending.filter (Action.hands s)).length ∧
        (w.pending.filter (Action.hands s)).length ≤ 1 ∧
        parted s ((World.start setup hub).record happenings before) ++ parted s talk <+:
          lastWords x k.termination?) ∧
    ∀ s x, (w.play later).state.subscribers[s]? = some x →
      (w.play later).state.isRegistered s = true →
      ∀ c f r, .queued c f r ∈ talk → c = x.connection → f.clientId = x.clientId →
        r = .event s ∨ (∃ call, r = .call call) ∨
        ∃ t y, t ≠ s ∧ (r = .event t ∨ r = .ending t) ∧
          (w.play later).state.subscribers[t]? = some y ∧
          y.connection = x.connection ∧ y.clientId = x.clientId := by
  intro w talk
  have whole : (World.start setup hub).play (before ++ later) = w.play later :=
    World.play_append ..
  have heard : happened ((World.start setup hub).steps (before ++ later)) =
      (World.start setup hub).record happenings before ++ talk := by
    rw [← World.record_append]
    exact (World.record_steps ..).symm
  have attending (s : SubscriptionId) (moves : List Move) :=
    (start_parting setup hub s).throughout moves
  refine ⟨fun s k ended => ?_, fun s x found registered c f r queued here address => ?_⟩
  · rw [World.record_steps] at ended
    obtain ⟨x, found, few, one, words⟩ := late_frames setup hub before later ended
    have spoken : talk = happened (w.steps later) := World.record_steps ..
    rw [World.steps_append, happened_append, parted_append] at words
    rw [World.record_steps _ _ before, spoken]
    exact ⟨x, found, few, one, words⟩
  · have queued : .queued c f r ∈ happened ((World.start setup hub).steps (before ++ later)) :=
      heard ▸ List.mem_append_right _ queued
    have speaker (t : SubscriptionId) (whose : r = .event t ∨ r = .ending t) :
        ∃ y, (w.play later).state.subscribers[t]? = some y ∧ y.connection = x.connection ∧
          y.clientId = x.clientId := by
      obtain ⟨attended, after⟩ := attending t (before ++ later)
      have said := mem_spoken queued whose
      rw [whole] at attended after
      cases found' : (w.play later).state.subscribers[t]? with
      | none =>
        rw [(after.absent found').2.1.spoken] at said
        exact absurd said List.not_mem_nil
      | some y =>
        obtain ⟨connection, clientId⟩ := spoken_addressed attended after found' _ said
        exact ⟨y, rfl, connection.symm.trans here, clientId.symm.trans address⟩
    cases r with
    | call call => exact .inr (.inl ⟨call, rfl⟩)
    | event t =>
      by_cases same : t = s
      · exact .inl (same ▸ rfl)
      · obtain ⟨y, found', alike⟩ := speaker t (.inl rfl)
        exact .inr (.inr ⟨t, y, same, .inl rfl, found', alike⟩)
    | ending t =>
      obtain ⟨y, found', alike⟩ := speaker t (.inr rfl)
      refine .inr (.inr ⟨t, y, fun same => ?_, .inr rfl, found', alike⟩)
      subst same
      obtain ⟨⟨⟨⟨sound, -⟩, -⟩, -⟩, after⟩ := attending t (before ++ later)
      rw [whole] at sound after
      have active := (sound.active_iff t).mp ((isRegistered_iff ..).mp registered)
      have phase : y.life.phase = .active := by simpa [books, found'] using active
      have stage := (after.present y found').stage
      rcases stage.brought with ⟨-, mute⟩ | ⟨k, one, -⟩
      · have said :
          (c, f) ∈ parted t (happened ((World.start setup hub).steps (before ++ later))) :=
          List.mem_filterMap.mpr ⟨_, queued, by simp⟩
        rw [mute] at said
        exact absurd said List.not_mem_nil
      · simp [(stage.active phase).1] at one

def crampedSetup : Setup := { staffSetup with queueCapacity := 1 }

def staffReturn : List Move :=
  staffMoves ++ staffAnswer ++ staffAnswer ++
    [.input (.call (.unsubscribe 0)), .step 2, .step 0, .step 0,
      .input (.call (.subscribe 0 "1" { query := "subscription { employee { id } }" })), .step 2,
      .step 0, .step 0]

def staffRoom : List Move := [.input (.take 0 1), .step 1]

theorem staff_reused_id_frames :
    .unsubscribed ∈ (World.start crampedSetup staffHub).record (endings 0) staffReturn ∧
    (((World.start crampedSetup staffHub).play staffReturn).play staffRoom).state.isRegistered 1 =
      true ∧
    (answered 0 (((World.start crampedSetup staffHub).play staffReturn).record happenings
      staffRoom)).length = 1 ∧
    parted 0 (((World.start crampedSetup staffHub).play staffReturn).record happenings
      staffRoom) = [] := by
  have stops : ((World.start crampedSetup staffHub).record (endings 0) staffReturn).any
      Ending.stops = true := by decide +kernel
  have some : 1 ≤ (answered 0 (((World.start crampedSetup staffHub).play staffReturn).record
      happenings staffRoom)).length := by decide +kernel
  obtain ⟨k, member, stop⟩ := List.any_eq_true.mp stops
  cases k with
  | told t => simp [Ending.stops] at stop
  | unsubscribed =>
    obtain ⟨late, -⟩ := reused_id_frames crampedSetup staffHub staffReturn staffRoom
    obtain ⟨x, -, few, one, words⟩ := late 0 .unsubscribed member
    refine ⟨member, by decide +kernel, ?_, ?_⟩
    · exact Nat.le_antisymm (Nat.le_trans few one) some
    · exact (List.append_eq_nil_iff.mp (List.prefix_nil.mp words)).2

end Engine

end SubscriptionGateway
