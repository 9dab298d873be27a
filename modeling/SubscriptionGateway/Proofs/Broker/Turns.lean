import SubscriptionGateway.Broker.Receiver
import Mathlib.Data.List.Perm.Basic

/-!
What taking turns does to a line of receivers. A line gives the head of one queue, or it waits
because all queues are empty, or it ends because no receiver is left. Besides that it only loses
receivers that are spent: their channel has ended and nothing is left in their queue. Which
receivers are asked and which are parked does not matter to what they hold.
-/
namespace SubscriptionGateway.Broker

namespace Receiver

/-- What a receiver holds, without the marks that tell when to ask it. -/
def bare (r : Receiver) : Receiver := { r with lagged := false, newsAt := none }

def Spent (r : Receiver) : Prop := r.ended = true ∧ r.queue = []

/-- Nothing to give, and something may still come. -/
def Idle (r : Receiver) : Prop := r.queue = [] ∧ r.ended = false

@[simp] theorem bare_channel (r : Receiver) : r.bare.channel = r.channel := rfl

@[simp] theorem bare_bare (r : Receiver) : r.bare.bare = r.bare := rfl

theorem channel_of_bare {r s : Receiver} (same : r.bare = s.bare) : r.channel = s.channel :=
  (congrArg Receiver.channel same :)

theorem queue_of_bare {r s : Receiver} (same : r.bare = s.bare) : r.queue = s.queue :=
  (congrArg Receiver.queue same :)

theorem ended_of_bare {r s : Receiver} (same : r.bare = s.bare) : r.ended = s.ended :=
  (congrArg Receiver.ended same :)

theorem Spent.of_bare {r s : Receiver} (same : r.bare = s.bare) (spent : r.Spent) : s.Spent :=
  ⟨ended_of_bare same ▸ spent.1, queue_of_bare same ▸ spent.2⟩

@[simp] theorem push_ended (w : Option Nat) (stamp : Nat) (m : Message) (r : Receiver) :
    (r.push w stamp m).ended = r.ended := rfl

theorem push_noted (w : Option Nat) (stamp : Nat) (m : Message) (r : Receiver) :
    (r.push w stamp m).newsAt ≠ none := by
  simp [push, noted]

@[simp] theorem finish_ended (stamp : Nat) (r : Receiver) : (r.finish stamp).ended = true := rfl

def onChannel (ch : ChannelId) (f : Receiver → Receiver) (r : Receiver) : Receiver :=
  if r.channel = ch then f r else r

theorem onChannel_eq {ch : ChannelId} {r : Receiver} (mine : r.channel = ch)
    (f : Receiver → Receiver) : r.onChannel ch f = f r := if_pos mine

theorem onChannel_ne {ch : ChannelId} {r : Receiver} (other : r.channel ≠ ch)
    (f : Receiver → Receiver) : r.onChannel ch f = r := if_neg other

theorem finish_noted (stamp : Nat) (r : Receiver) : (r.finish stamp).newsAt ≠ none := by
  simp [finish, noted]

end Receiver

namespace Line

open Receiver

/-! ## Losing nothing but what is spent -/

/-- The receivers that remain of some, up to their order and marks, are all but spent ones. -/
def Leaves (before after : List Receiver) : Prop :=
  ∃ spent : List Receiver, (∀ s ∈ spent, s.Spent) ∧
    (before.map bare).Perm (after.map bare ++ spent)

theorem Leaves.of_perm {before after : List Receiver}
    (perm : (before.map bare).Perm (after.map bare)) : Leaves before after :=
  ⟨[], by simp, by simpa using perm⟩

theorem Leaves.trans {a b c : List Receiver} (first : Leaves a b) (second : Leaves b c) :
    Leaves a c := by
  obtain ⟨xs, gone, perm⟩ := first
  obtain ⟨ys, gone', perm'⟩ := second
  refine ⟨ys ++ xs, fun s member => ?_, ?_⟩
  · exact (List.mem_append.mp member).elim (gone' s) (gone s)
  · rw [← List.append_assoc]
    exact perm.trans (perm'.append_right xs)

theorem Leaves.drop {r : Receiver} (spent : r.Spent) {front back : List Receiver} :
    Leaves (front ++ r :: back) (front ++ back) := by
  refine ⟨[r.bare], by simpa using spent.of_bare (bare_bare r).symm, ?_⟩
  simp only [List.map_append, List.map_cons]
  exact List.perm_middle.trans (List.perm_append_singleton _ _).symm

theorem Leaves.mem_before {before after : List Receiver} (leaves : Leaves before after)
    {a : Receiver} (member : a ∈ after) : ∃ b ∈ before, b.bare = a.bare := by
  obtain ⟨spent, -, perm⟩ := leaves
  have : a.bare ∈ before.map bare :=
    perm.mem_iff.mpr (List.mem_append_left _ (List.mem_map_of_mem member))
  exact List.mem_map.mp this

theorem Leaves.mem_after {before after : List Receiver} (leaves : Leaves before after)
    {b : Receiver} (member : b ∈ before) : b.Spent ∨ ∃ a ∈ after, a.bare = b.bare := by
  obtain ⟨spent, gone, perm⟩ := leaves
  rcases List.mem_append.mp (perm.mem_iff.mp (List.mem_map_of_mem member)) with stays | leaves
  · exact .inr (List.mem_map.mp stays)
  · exact .inl ((gone _ leaves).of_bare (bare_bare b))

theorem channels_bare (rs : List Receiver) :
    (rs.map bare).map (·.channel) = rs.map (·.channel) := by
  simp [Function.comp_def]

theorem Leaves.nodup {before after : List Receiver} (leaves : Leaves before after)
    (apart : (before.map (·.channel)).Nodup) : (after.map (·.channel)).Nodup := by
  obtain ⟨spent, -, perm⟩ := leaves
  rw [← channels_bare] at apart ⊢
  have all := (perm.map (·.channel)).nodup_iff.mp apart
  rw [List.map_append] at all
  exact (List.nodup_append.mp all).1

/-! ## Joining the line again -/

theorem insertByNews_perm (t : Nat) (r : Receiver) (l : List (Nat × Receiver)) :
    (insertByNews t r l).Perm ((t, r) :: l) := by
  induction l with
  | nil => exact .refl _
  | cons x rest ih =>
    obtain ⟨u, s⟩ := x
    by_cases first : t < u
    · simp [insertByNews, first]
    · simp only [insertByNews, first, if_false]
      exact (ih.cons _).trans (.swap _ _ _)

theorem foldl_perm {join : List (Nat × Receiver) → Receiver → List (Nat × Receiver)}
    (joins : ∀ acc r, ((join acc r).map (·.2)).Perm
      (acc.map (·.2) ++ [r].filter fun r => r.newsAt.isSome))
    (parked : List Receiver) (acc : List (Nat × Receiver)) :
    ((parked.foldl join acc).map (·.2)).Perm
      (acc.map (·.2) ++ parked.filter fun r => r.newsAt.isSome) := by
  induction parked generalizing acc with
  | nil => simp
  | cons r rest ih =>
    have split : (r :: rest).filter (fun r => r.newsAt.isSome) =
        [r].filter (fun r => r.newsAt.isSome) ++ rest.filter fun r => r.newsAt.isSome := by
      rw [← List.filter_append]
      rfl
    rw [List.foldl_cons, split, ← List.append_assoc]
    exact (ih _).trans ((joins acc r).append_right _)

theorem awake_perm (parked : List Receiver) :
    (awake parked).Perm (parked.filter fun r => r.newsAt.isSome) := by
  refine (foldl_perm (fun acc r => ?_) parked []).trans (.of_eq rfl)
  cases news : r.newsAt with
  | none => simp [news]
  | some t =>
    refine ((insertByNews_perm t r acc).map (·.2)).trans ?_
    simpa [news] using (List.perm_append_singleton r (acc.map (·.2))).symm

theorem rejoin_perm (l : Line) : l.rejoin.receivers.Perm l.receivers := by
  have parts := List.filter_append_perm (fun r : Receiver => r.newsAt.isSome) l.parked
  simp only [rejoin, receivers, List.append_assoc]
  refine ((awake_perm l.parked).append_right _).trans ?_ |>.append_left _
  simpa using parts

/-! ## One round -/

theorem round_silent {again parked rs again' parked' : List Receiver}
    (asked : round again parked rs = .silent again' parked') :
    Leaves (again ++ parked ++ rs) (again' ++ parked') ∧
      (∀ r ∈ again', r ∈ again ∨ r.lagged = false ∧ ∃ s ∈ rs, s.lagged = true) ∧
      ∀ r ∈ parked', r ∈ parked ∨ r.Idle ∧ r.newsAt = none := by
  induction rs generalizing again parked with
  | nil =>
    simp only [round, Round.silent.injEq] at asked
    obtain ⟨rfl, rfl⟩ := asked
    exact ⟨.of_perm (by simp), fun r member => .inl member, fun r member => .inl member⟩
  | cons r rest ih =>
    unfold round at asked
    split at asked
    · rename_i lagged
      obtain ⟨leaves, second, kept⟩ := ih asked
      refine ⟨.trans (.of_perm ?_) leaves, fun s member => ?_, kept⟩
      · simp only [List.map_append, List.map_cons, List.map_nil, List.append_assoc]
        exact (List.perm_middle.trans (.refl _)).append_left _
      · rcases second s member with old | ⟨done, -⟩
        · rcases List.mem_append.mp old with old | new
          · exact .inl old
          · exact .inr ⟨by rw [List.mem_singleton.mp new], r, by simp, lagged⟩
        · exact .inr ⟨done, r, by simp, lagged⟩
    · split at asked
      · cases asked
      · rename_i empty
        split at asked
        · rename_i ended
          obtain ⟨leaves, second, kept⟩ := ih asked
          refine ⟨.trans (.drop ⟨ended, empty⟩) leaves, fun s member => ?_, kept⟩
          exact (second s member).imp_right fun ⟨done, q, known, lagged⟩ =>
            ⟨done, q, List.mem_cons_of_mem _ known, lagged⟩
        · rename_i ended
          obtain ⟨leaves, second, kept⟩ := ih asked
          refine ⟨.trans (.of_perm ?_) leaves, fun s member => ?_, fun s member => ?_⟩
          · simp [List.append_assoc, bare]
          · exact (second s member).imp_right fun ⟨done, q, known, lagged⟩ =>
              ⟨done, q, List.mem_cons_of_mem _ known, lagged⟩
          · rcases kept s member with old | new
            · rcases List.mem_append.mp old with old | new
              · exact .inl old
              · rw [List.mem_singleton.mp new]
                exact .inr ⟨⟨empty, by simpa using ended⟩, rfl⟩
            · exact .inr new

theorem round_message {again parked rs : List Receiver} {m : Message} {l : Line}
    (asked : round again parked rs = .message m l) :
    ∃ r q others, Leaves (again ++ parked ++ rs) (r :: others) ∧ r.queue = m :: q ∧
      l.receivers.Perm ({ r with queue := q } :: others) ∧
      ∀ s ∈ l.parked, s ∈ parked ∨ s.Idle ∧ s.newsAt = none := by
  induction rs generalizing again parked with
  | nil => cases asked
  | cons r rest ih =>
    unfold round at asked
    split at asked
    · obtain ⟨s, q, others, leaves, head, perm, kept⟩ := ih asked
      refine ⟨s, q, others, .trans (.of_perm ?_) leaves, head, perm, kept⟩
      simp only [List.map_append, List.map_cons, List.map_nil, List.append_assoc]
      exact (List.perm_middle.trans (.refl _)).append_left _
    · split at asked
      · rename_i m' q head
        simp only [Round.message.injEq] at asked
        obtain ⟨rfl, rfl⟩ := asked
        refine ⟨r, q, rest ++ again ++ parked, .of_perm (.map _ ?_), head, ?_,
          fun s member => .inl member⟩
        · refine List.perm_middle.trans (.cons _ ?_)
          rw [List.append_assoc rest]
          exact List.perm_append_comm
        · change ((rest ++ again) ++ [{ r with queue := q }] ++ parked).Perm _
          rw [List.append_assoc]
          exact List.perm_middle
      · rename_i empty
        split at asked
        · rename_i ended
          obtain ⟨s, q, others, leaves, rest⟩ := ih asked
          exact ⟨s, q, others, .trans (.drop ⟨ended, empty⟩) leaves, rest⟩
        · rename_i ended
          obtain ⟨s, q, others, leaves, head, perm, kept⟩ := ih asked
          refine ⟨s, q, others, .trans (.of_perm ?_) leaves, head, perm, fun t member => ?_⟩
          · simp [List.append_assoc, bare]
          · rcases kept t member with old | new
            · rcases List.mem_append.mp old with old | new
              · exact .inl old
              · rw [List.mem_singleton.mp new]
                exact .inr ⟨⟨empty, by simpa using ended⟩, rfl⟩
            · exact .inr new

/-! ## A whole turn -/

/-- Each channel is listened to once, and who is parked without news has nothing to tell. -/
structure Fit (l : Line) : Prop where
  apart : l.channels.Nodup
  alert : ∀ r ∈ l.parked, r.newsAt = none → r.Idle

theorem Fit.map {l : Line} (fit : l.Fit) {f : Receiver → Receiver}
    (channel : ∀ r, (f r).channel = r.channel) (news : ∀ r, f r = r ∨ (f r).newsAt ≠ none) :
    (l.map f).Fit where
  apart := by
    have same : (l.map f).channels = l.channels := by
      simp [channels, receivers, Line.map, Function.comp_def, channel]
    exact same ▸ fit.apart
  alert s member quiet := by
    obtain ⟨r, known, rfl⟩ := List.mem_map.mp member
    rcases news r with same | noted
    · rw [same] at quiet ⊢
      exact fit.alert r known quiet
    · exact absurd quiet noted

theorem Fit.rejoin_parked {l : Line} (fit : l.Fit) {r : Receiver} (member : r ∈ l.rejoin.parked) :
    r.Idle ∧ r.newsAt = none := by
  obtain ⟨known, quiet⟩ := List.mem_filter.mp member
  have quiet : r.newsAt = none := by simpa using quiet
  exact ⟨fit.alert r known quiet, quiet⟩

theorem leaves_rejoin (l : Line) :
    Leaves l.receivers ([] ++ l.rejoin.parked ++ l.rejoin.asked) := by
  refine .of_perm (.map _ ((rejoin_perm l).symm.trans ?_))
  rw [receivers, List.nil_append]
  exact List.perm_append_comm

theorem take_message {l l' : Line} {m : Message} (fit : l.Fit) (taken : l.take = .message m l') :
    ∃ r q others, Leaves l.receivers (r :: others) ∧ r.queue = m :: q ∧
      l'.receivers.Perm ({ r with queue := q } :: others) ∧ l'.Fit := by
  suffices turn : ∃ r q others, Leaves l.receivers (r :: others) ∧ r.queue = m :: q ∧
      l'.receivers.Perm ({ r with queue := q } :: others) ∧
      ∀ s ∈ l'.parked, s ∈ l.rejoin.parked ∨ s.Idle ∧ s.newsAt = none by
    obtain ⟨r, q, others, leaves, head, perm, kept⟩ := turn
    refine ⟨r, q, others, leaves, head, perm, ?_, fun s member quiet => ?_⟩
    · exact (perm.map (·.channel)).nodup_iff.mpr (leaves.nodup fit.apart)
    · exact (kept s member).elim (fun old => (fit.rejoin_parked old).1) (·.1)
  simp only [take] at taken
  split at taken
  · rename_i asked
    simp only [Taken.message.injEq] at taken
    obtain ⟨rfl, rfl⟩ := taken
    obtain ⟨r, q, others, leaves, rest⟩ := round_message asked
    exact ⟨r, q, others, (leaves_rejoin l).trans leaves, rest⟩
  · rename_i again parked first
    obtain ⟨leaves, -, kept⟩ := round_silent first
    split at taken
    · rename_i asked
      simp only [Taken.message.injEq] at taken
      obtain ⟨rfl, rfl⟩ := taken
      obtain ⟨r, q, others, leaves', head, perm, kept'⟩ := round_message asked
      refine ⟨r, q, others, ?_, head, perm, fun s member => ?_⟩
      · refine ((leaves_rejoin l).trans leaves).trans (.trans (.of_perm (.map _ ?_)) leaves')
        rw [List.nil_append]
        exact List.perm_append_comm
      · exact (kept' s member).elim (kept s) .inr
    · split at taken <;> cases taken

/-- After a turn without a message everybody is parked and idle. -/
theorem take_silent {l : Line} (fit : l.Fit) (quiet : ∀ m l', l.take ≠ .message m l') :
    ∃ parked, (l.take = if parked = [] then .ended else .waiting ⟨[], parked⟩) ∧
      Leaves l.receivers parked ∧ ∀ r ∈ parked, r.Idle ∧ r.newsAt = none := by
  simp only [take] at quiet ⊢
  split
  · rename_i asked
    simp [asked] at quiet
  · rename_i again parked first
    obtain ⟨leaves, done, kept⟩ := round_silent first
    simp only [first] at quiet
    split
    · rename_i asked
      simp [asked] at quiet
    · rename_i again' parked' second
      obtain ⟨leaves', done', kept'⟩ := round_silent second
      have nobody : again' = [] := by
        refine List.eq_nil_iff_forall_not_mem.mpr fun r member => ?_
        rcases done' r member with old | ⟨-, s, known, lagged⟩
        · simp at old
        · rcases done s known with old | ⟨fresh, -⟩
          · simp at old
          · simp [fresh] at lagged
      subst nobody
      refine ⟨parked', ?_, ?_, fun r member => ?_⟩
      · cases parked' <;> simp
      · refine ((leaves_rejoin l).trans leaves).trans (.trans (.of_perm (.map _ ?_)) leaves')
        rw [List.nil_append]
        exact List.perm_append_comm
      · exact (kept' r member).elim (fun old => (kept r old).elim fit.rejoin_parked id) id

theorem take_waiting {l l' : Line} (fit : l.Fit) (taken : l.take = .waiting l') :
    Leaves l.receivers l'.receivers ∧ (∀ r ∈ l'.receivers, r.Idle) ∧
      l'.receivers ≠ [] ∧ l'.Fit := by
  obtain ⟨parked, same, leaves, idle⟩ := take_silent fit (by simp [taken])
  rw [taken] at same
  split at same
  · cases same
  · rename_i some_left
    cases same
    refine ⟨leaves, fun r member => (idle r member).1, some_left, ?_, fun r member _ =>
      (idle r member).1⟩
    exact leaves.nodup fit.apart

theorem take_ended {l : Line} (fit : l.Fit) (taken : l.take = .ended) :
    ∀ r ∈ l.receivers, r.Spent := by
  obtain ⟨parked, same, leaves, -⟩ := take_silent fit (by simp [taken])
  rw [taken] at same
  split at same
  · rename_i nobody
    subst nobody
    intro r member
    simpa using leaves.mem_after member
  · cases same

/-- A line that still has all receivers that may hear something, and no others than it had. -/
structure Remains (l l' : Line) : Prop where
  fit : l'.Fit
  came : ∀ r' ∈ l'.receivers, ∃ r ∈ l.receivers, r.channel = r'.channel ∧ r.ended = r'.ended
  stays : ∀ r ∈ l.receivers, r.ended = false → ∃ r' ∈ l'.receivers, r'.channel = r.channel

theorem remains_of_leaves {l l' : Line} {rs : List Receiver} (leaves : Leaves l.receivers rs)
    (fit : l'.Fit)
    (came : ∀ r' ∈ l'.receivers, ∃ r ∈ rs, r.channel = r'.channel ∧ r.ended = r'.ended)
    (stays : ∀ r ∈ rs, ∃ r' ∈ l'.receivers, r'.channel = r.channel) : Remains l l' where
  fit := fit
  came r' member := by
    obtain ⟨r, there, channel, ended⟩ := came r' member
    obtain ⟨s, known, same⟩ := leaves.mem_before there
    exact ⟨s, known, (channel_of_bare same).trans channel, (ended_of_bare same).trans ended⟩
  stays r member live := by
    rcases leaves.mem_after member with spent | ⟨s, known, same⟩
    · simp [spent.1] at live
    · obtain ⟨r', there, channel⟩ := stays s known
      exact ⟨r', there, channel.trans (channel_of_bare same)⟩

theorem take_message_remains {l l' : Line} {m : Message} (fit : l.Fit)
    (taken : l.take = .message m l') : Remains l l' := by
  obtain ⟨r, q, others, leaves, head, perm, fit'⟩ := take_message fit taken
  refine remains_of_leaves leaves fit' (fun r' member => ?_) fun s member => ?_
  · rcases List.mem_cons.mp (perm.mem_iff.mp member) with rfl | member
    · exact ⟨r, by simp, rfl, rfl⟩
    · exact ⟨r', List.mem_cons_of_mem _ member, rfl, rfl⟩
  · rcases List.mem_cons.mp member with rfl | member
    · exact ⟨_, perm.mem_iff.mpr (List.mem_cons_self ..), rfl⟩
    · exact ⟨s, perm.mem_iff.mpr (List.mem_cons_of_mem _ member), rfl⟩

theorem take_waiting_remains {l l' : Line} (fit : l.Fit) (taken : l.take = .waiting l') :
    Remains l l' := by
  obtain ⟨leaves, -, -, fit'⟩ := take_waiting fit taken
  exact remains_of_leaves leaves fit' (fun r member => ⟨r, member, rfl, rfl⟩) fun r member =>
    ⟨r, member, rfl⟩

theorem take_of_queue {l : Line} (fit : l.Fit) {r : Receiver} (member : r ∈ l.receivers)
    (some_left : r.queue ≠ []) : ∃ m l', l.take = .message m l' := by
  cases taken : l.take with
  | message m l' => exact ⟨m, l', rfl⟩
  | waiting l' =>
    obtain ⟨leaves, idle, -⟩ := take_waiting fit taken
    rcases leaves.mem_after member with spent | ⟨s, known, same⟩
    · exact absurd spent.2 some_left
    · exact absurd (Receiver.queue_of_bare same ▸ (idle s known).1) some_left
  | ended => exact absurd (take_ended fit taken r member).2 some_left

end Line

end SubscriptionGateway.Broker
