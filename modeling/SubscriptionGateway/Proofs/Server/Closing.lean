import SubscriptionGateway.Proofs.Server.Silence

/-!
What goes to a client when a subscription of it is over. Its session says no more of it than that it
is complete. But what waits in the queue of its connection goes out after that, whoever it is of,
and so does what deliveries that are over have still on their way.
-/
namespace SubscriptionGateway

open Broker

namespace Server

open Engine (Unheld happened_append)

variable {s : Server} {k : PeerId} {c : ConnectionId} {id : String} {a : Action}
  {ts : List (List Action)} {log more : Steps} {setup : Setup} {hub : Hub} {first : Server}
  {x : SubscriptionId} {place : Nat}

/-- What is still to come of a subscription that has ended. -/
theorem reached_late {w : World} {k : Ending} (begun : first.engine = Engine.start setup hub)
    (before : Reached (World.start first) w.state w.tasks log) (reached : Reached w s ts more)
    (ended : k ∈ Engine.ended x (innerSteps log)) :
    ∃ y, s.engine.subscribers[x]? = some y ∧
      (Engine.answered x (Engine.happened (innerSteps more))).length ≤ 1 ∧
      Engine.parted x (Engine.happened (innerSteps (log ++ more))) <+:
        Engine.lastWords y k.termination? := by
  have front := reached_fronted (by simp [World.start]) before
  obtain ⟨earlier, state, tasks, steps⟩ :=
    reached_mirrored (by simp [World.start]) (start_mirrored begun) before
  have onward : Mirrored ((Engine.World.start setup hub).play earlier) [] w.state w.tasks [] :=
    ⟨state, tasks, rfl⟩
  obtain ⟨later, state', tasks', steps'⟩ := reached_mirrored front onward reached
  rw [← steps] at ended
  obtain ⟨y, found, few, one, words⟩ := Engine.late_frames setup hub earlier later ended
  rw [state'] at found
  rw [steps'] at few
  rw [Engine.World.steps_append, steps, steps', ← innerSteps_append] at words
  exact ⟨y, found, Nat.le_trans few one, words⟩

theorem ended_record {p : Engine × Engine.Action} {y : Subscriber}
    (begun : first.engine = Engine.start setup hub) (reached : Reached (World.start first) s ts log)
    (member : p ∈ innerSteps log) (ends : Engine.endings x p.1 p.2 ≠ [])
    (found : s.engine.subscribers[x]? = some y) :
    ∃ y', p.1.subscribers[x]? = some y' ∧ y'.connection = y.connection ∧
      y'.clientId = y.clientId := by
  obtain ⟨_, -, lasting⟩ := reached_always begun (Engine.start_lasting setup hub) reached
  obtain ⟨y', y'', found', found'', same⟩ :=
    lasting p member x (Engine.ending_registered ends)
  obtain rfl : y = y'' := by simpa [found] using found''
  exact ⟨y', found', same.connection.symm, same.clientId.symm⟩

/-- When a writer has taken a message that a subscription is complete, something has closed it. -/
theorem reached_closed (begun : first.engine = Engine.start setup hub) (nobody : first.peers = [])
    (reached : Reached (World.start first) s ts log) (sits : s.Sits k c)
    (taken : .complete id ∈ sendings k log ∨ .complete id ∈ passings k log) :
    ∃ q ∈ log, q.1.Closes k c id q.2 := by
  rcases taken with sent | passed
  · obtain ⟨q, member, told⟩ := List.mem_flatMap.mp
      (reached_told nobody reached _ (List.mem_append_left _ sent))
    exact ⟨q, member, .told told⟩
  · obtain ⟨c', sits', entered⟩ := reached_taken begun reached _ passed
    obtain rfl := sits.alone sits'
    obtain ⟨r, queued⟩ := Engine.mem_entered.mp entered
    obtain ⟨x, whose⟩ := reached_spoken reached queued
    have said := Engine.mem_spoken queued whose
    obtain ⟨_, -, attended, parting⟩ :=
      reached_always begun (Engine.start_parting setup hub x) reached
    cases found : s.engine.subscribers[x]? with
    | none => simp [(parting.absent found).2.1.spoken] at said
    | some y =>
      obtain ⟨connection, clientId⟩ := Engine.spoken_addressed attended parting found _ said
      have part := parting.present y found
      rw [part.order] at said
      have last := (List.mem_append.mp said).resolve_left fun answer => by
        simpa [Frame.complete, Frame.isMessage] using (part.answers _ answer).2
      rcases part.stage.brought with ⟨-, mute⟩ | ⟨ending, one, -⟩
      · simp [mute] at last
      have ended : ending ∈ Engine.ended x (innerSteps log) := one ▸ List.mem_singleton.mpr rfl
      obtain ⟨p, member, ends⟩ := Engine.ended_step ended
      obtain ⟨y', found', own⟩ := ended_record begun reached member ends found
      obtain ⟨q, there, state, action⟩ := mem_innerSteps.mp member
      rw [← state] at ends found'
      exact ⟨q, there, .ended p.2 x y' action ends found' (own.1.trans connection.symm)
        (own.2.trans clientId.symm)⟩

theorem reached_entered {w : World} {f : Frame} (begun : first.engine = Engine.start setup hub)
    (before : Reached (World.start first) w.state w.tasks log) (reached : Reached w s ts more)
    (unheld : Unheld s.engine c id) (unended : Unended c id more)
    (entered : f ∈ Engine.entered c (Engine.happened (innerSteps more))) (own : f.clientId = id) :
    ∃ x y k, k ∈ Engine.ended x (innerSteps log) ∧ s.engine.subscribers[x]? = some y ∧
      y.connection = c ∧ y.clientId = id ∧
      (c, f) ∈ Engine.spoken x (Engine.happened (innerSteps more)) ∧
      (Engine.answered x (Engine.happened (innerSteps more))).length ≤ 1 ∧
      Engine.parted x (Engine.happened (innerSteps (log ++ more))) <+:
        Engine.lastWords y k.termination? := by
  have whole : Reached (World.start first) s ts (log ++ more) := before.trans reached
  have all : Engine.happened (innerSteps (log ++ more)) =
      Engine.happened (innerSteps log) ++ Engine.happened (innerSteps more) := by
    rw [innerSteps_append, happened_append]
  obtain ⟨r, queued⟩ := Engine.mem_entered.mp entered
  obtain ⟨x, whose⟩ := reached_spoken whole (all ▸ List.mem_append_right _ queued)
  have said := Engine.mem_spoken queued whose
  have spoken : (c, f) ∈ Engine.spoken x (Engine.happened (innerSteps (log ++ more))) := by
    rw [all, Engine.spoken_append]
    exact List.mem_append_right _ said
  obtain ⟨_, -, ⟨attended, parting⟩, voiced⟩ :=
    reached_always begun (Engine.start_voiced setup hub x) whole
  obtain ⟨y, found, ends⟩ := Engine.spoken_ended parting voiced (List.ne_nil_of_mem spoken)
  obtain ⟨connection, clientId⟩ := Engine.spoken_addressed attended parting found _ spoken
  have connection : y.connection = c := connection.symm
  have clientId : y.clientId = id := clientId.symm.trans own
  have sound := (reached_grounded begun whole).sound
  have inactive : y.life.phase ≠ .active := fun active => by
    refine unheld x ⟨(Engine.isRegistered_iff _ x).mpr ((sound.active_iff x).mpr ?_), y, found,
      connection, clientId⟩
    simp [Engine.books, found, active]
  obtain ⟨k, ended⟩ := ends.resolve_left inactive
  rw [innerSteps_append, Engine.ended, List.flatMap_append] at ended
  have earlier : k ∈ Engine.ended x (innerSteps log) := by
    refine (List.mem_append.mp ended).resolve_right fun later => ?_
    obtain ⟨p, member, ends⟩ := Engine.ended_step later
    obtain ⟨y', found', own⟩ := ended_record begun whole
      (innerSteps_append .. ▸ List.mem_append_right _ member) ends found
    exact unended p member x ends y' found' ⟨own.1.trans connection, own.2.trans clientId⟩
  obtain ⟨y', found', few, words⟩ := reached_late begun before reached earlier
  obtain rfl : y = y' := by simpa [found] using found'
  exact ⟨x, y, k, earlier, found, connection, clientId, said, few, words⟩

theorem closes_sits {w : World} (begun : first.engine = Engine.start setup hub)
    (nobody : first.peers = []) (before : Reached (World.start first) w.state w.tasks log)
    (goes : w.actionAt machine place = some a) (closes : w.state.Closes k c id a)
    (reached : Reached w s ts more) (sits : s.Sits k c) : w.state.Sits k c := by
  obtain ⟨todo, others, turn⟩ := World.step_turn goes
  have taken := before.shuffle turn.before
  cases closes with
  | told complete =>
    have reads := (tells_reads complete).1
    have bound := (reached_seated begun nobody taken).present _ (List.mem_cons_self ..) k
      (by simp [readBy, reads])
    obtain ⟨p', there, same⟩ := reached_peer (List.getElem?_eq_getElem bound) reached
    obtain ⟨p, here, connection⟩ := sits
    obtain rfl : p = p' := by simpa [here] using there
    exact ⟨_, List.getElem?_eq_getElem bound, same.symm.trans connection⟩
  | ended b x y same ends found connection clientId =>
    refine (reached_sat (Nat.lt_of_not_le fun fresh => ?_) reached).2 sits
    exact Engine.fresh_unheld (reached_grounded begun before) fresh x
      ⟨Engine.ending_registered ends, y, found, connection, clientId⟩

/-- When the writer of a client has taken a message that a subscription is complete, something has
closed that subscription before: the session has said so, or a subscription of the client has ended.
From then on, as long as the client does not ask for another one under its id, the messages of its
session go out in the order in which they are said, and of the id it says only that it is complete.
The frames that go out have waited in the queue already, in the same order, or enter it after that.
Of the id those are of subscriptions that have ended before: one answer at most of each, which was
on its way, and what its end brings. -/
theorem closing_lasts (setup : Setup) (hub : Hub) (first : Server)
    (begun : first.engine = Engine.start setup hub) (nobody : first.peers = []) (k : PeerId)
    (c : ConnectionId) (id : String) :
    let w := World.start first
    (∀ moves, (w.play moves).state.Sits k c →
      .complete id ∈ sendings k (w.steps moves) ∨ .complete id ∈ passings k (w.steps moves) →
      ∃ before place later a, moves = before ++ [.step place] ++ later ∧
        (w.play before).state.Sits k c ∧ (w.play before).actionAt machine place = some a ∧
        (w.play before).state.Closes k c id a) ∧
    ∀ before place later a, (w.play before).state.Sits k c →
      (w.play before).actionAt machine place = some a → (w.play before).state.Closes k c id a →
      (∀ q ∈ (w.play (before ++ [.step place])).steps later, q.1.asksFor? k q.2 ≠ some id) →
      let w' := w.play (before ++ [.step place])
      let talk := Engine.happened (innerSteps (w'.steps later))
      w'.state.unsent k ++ tellings k (w'.steps later) =
        sendings k (w'.steps later) ++ (w'.play later).state.unsent k ∧
      (∀ m ∈ tellings k (w'.steps later), m.id? = some id → m = .complete id) ∧
      (passings k (w'.steps later)).Sublist
        (w'.state.engine.queueOf c ++ Engine.entered c talk) ∧
      ∀ f ∈ Engine.entered c talk, f.clientId = id → ∃ x y ending,
        ending ∈ Engine.ended x (innerSteps (w.steps (before ++ [.step place]))) ∧
        (w'.play later).state.engine.subscribers[x]? = some y ∧
        y.connection = c ∧ y.clientId = id ∧ (c, f) ∈ Engine.spoken x talk ∧
        (Engine.answered x talk).length ≤ 1 ∧
        Engine.parted x (Engine.happened (innerSteps
          (w.steps (before ++ [.step place] ++ later)))) <+:
            Engine.lastWords y ending.termination? := by
  intro w
  refine ⟨fun moves sits taken => ?_, fun before place later a sits goes closes silent => ?_⟩
  · obtain ⟨q, member, closes⟩ :=
      reached_closed begun nobody (play_reached w moves) sits taken
    obtain ⟨before, place, later, rfl, state, found⟩ := World.mem_steps member
    rw [← state] at closes
    refine ⟨before, place, later, q.2, rfl, ?_, found, closes⟩
    rw [List.append_assoc, World.play_append] at sits
    exact closes_sits begun nobody (play_reached w before) found closes
      (play_reached (w.play before) ([.step place] ++ later)) sits
  intro w' talk
  have earlier := play_reached w before
  have reached := play_reached w (before ++ [.step place])
  have onward : Reached w' (w'.play later).state (w'.play later).tasks (w'.steps later) :=
    play_reached w' later
  have moved : w' = (w.play before).move (.step place) := World.play_append ..
  have there : w'.state.Sits k c ∧ Clear k c id w'.state.engine w'.tasks := by
    obtain ⟨todo, others, turn⟩ := World.step_turn goes
    rw [← moved] at turn
    have taken := earlier.shuffle turn.before
    have clear := closes_clear turn.ready (reached_grounded begun taken) sits
      ((reached_seated begun nobody taken).reading k c sits) closes
    rw [turn.state]
    refine ⟨(perform_sits _ a).mpr sits, ?_⟩
    rcases turn.after with all | ⟨finished, rest⟩
    · exact clear.perm all.symm
    · have finished : ((w.play before).state.perform a).next ++ todo = [] := finished
      rw [finished] at clear
      exact clear.tail.perm rest.symm
  obtain ⟨sits, clear⟩ := there
  obtain ⟨cleared, unended, quiet⟩ := reached_clear begun nobody reached sits clear onward silent
  have passed := (List.sublist_append_left ..).trans (reached_passed sits onward)
  have whole : w.steps (before ++ [.step place] ++ later) =
      w.steps (before ++ [.step place]) ++ w'.steps later := World.steps_append ..
  refine ⟨reached_said sits onward, quiet, passed, fun f entered own => ?_⟩
  rw [whole]
  exact reached_entered begun reached onward cleared.unheld unended entered own

def staffServer : Server :=
  { settings := {}, engine := Engine.start Engine.staffSetup Engine.staffHub }

def staffStart : List Move :=
  [.input (.join (some "graphql-ws") 1024 false),
    .input (.say 0 (.text "\x7b\"type\":\"connection_init\"\x7d")), .step 1,
    .input (.say 0 (.text ("\x7b\"id\":\"1\",\"type\":\"start\",\"payload\":" ++
      "\x7b\"query\":\"subscription \x7b employee \x7b id \x7d \x7d\"\x7d\x7d"))),
    .step 1, .step 0, .step 0, .step 0, .step 0]

def staffNews : Hub :=
  let hub := ((World.start staffServer).play staffStart).state.engine.hub
  match hub.provider? "p" with
  | some p => (hub.produce p "t" [123, 34, 105, 100, 34, 58, 34, 97, 34, 125]).2
  | none => hub

def staffStop : List Move :=
  staffStart ++ [.input (.brokers staffNews), .step 1, .step 0, .step 1, .step 3, .step 4, .step 0,
    .step 3, .step 0, .step 3,
    .input (.say 0 (.text "\x7b\"id\":\"1\",\"type\":\"stop\"\x7d")), .step 1, .step 0,
    .step 0, .step 0]

def staffSent : List Move := List.replicate 9 (.step 0)

theorem staff_closing_lasts :
    (∃ before place later a, staffStop ++ [.step 0] ++ staffSent = before ++
      [.step place] ++ later ∧
      ((World.start staffServer).play before).actionAt machine place = some a ∧
      ((World.start staffServer).play before).state.Closes 0 0 "1" a) ∧
    ∃ f ∈ passings 0 (((World.start staffServer).play
        (staffStop ++ [.step 0] ++ staffSent)).steps [.step 0]),
      f.clientId = "1" ∧ f.isMessage = true ∧
      f ∈ ((World.start staffServer).play (staffStop ++ [.step 0])).state.engine.queueOf 0 := by
  obtain ⟨seat, sent, stops, seat', told, silent, none, data⟩ :
      ((((World.start staffServer).play (staffStop ++ [.step 0] ++ staffSent)).state.peers[0]?.map
        (·.connection?)) = some (some 0)) ∧
      (sendings 0 ((World.start staffServer).steps (staffStop ++ [.step 0] ++ staffSent))).any
        (fun | .complete "1" => true | _ => false) = true ∧
      (((World.start staffServer).play staffStop).actionAt machine 0).any
        (fun | .unsubscribed 0 "1" => true | _ => false) = true ∧
      ((((World.start staffServer).play staffStop).state.peers[0]?.map (·.connection?)) =
        some (some 0)) ∧
      (((World.start staffServer).play staffStop).state.tells 0 (.unsubscribed 0 "1")).any
        (fun | .complete "1" => true | _ => false) = true ∧
      (((World.start staffServer).play (staffStop ++ [.step 0])).steps
        (staffSent ++ [.step 0])).all (fun q => q.1.asksFor? 0 q.2 != some "1") = true ∧
      (Engine.entered 0 (Engine.happened (innerSteps (((World.start staffServer).play
        (staffStop ++ [.step 0])).steps (staffSent ++ [.step 0]))))).isEmpty = true ∧
      (passings 0 (((World.start staffServer).play (staffStop ++ [.step 0] ++ staffSent)).steps
        [.step 0])).any (fun f => f.clientId == "1" && f.isMessage) = true := by decide +kernel
  obtain ⟨written, late⟩ :=
    closing_lasts Engine.staffSetup Engine.staffHub staffServer rfl rfl 0 0 "1"
  have completes {ms : List WebSocket.ServerMessage}
      (some : ms.any (fun | .complete "1" => true | _ => false) = true) : .complete "1" ∈ ms := by
    obtain ⟨m, member, complete⟩ := List.any_eq_true.mp some
    split at complete
    · exact member
    · simp at complete
  constructor
  · obtain ⟨before, place, later, a, split, -, goes, closes⟩ :=
      written _ (Option.map_eq_some_iff.mp seat) (.inl (completes sent))
    exact ⟨before, place, later, a, split, goes, closes⟩
  · obtain ⟨a, goes, last⟩ : ∃ a, ((World.start staffServer).play staffStop).actionAt machine 0 =
        some a ∧ (match a with | .unsubscribed 0 "1" => true | _ => false) = true := by
      cases goes : ((World.start staffServer).play staffStop).actionAt machine 0 with
      | none => simp [goes] at stops
      | some a => exact ⟨a, rfl, by simpa [goes] using stops⟩
    split at last
    · obtain ⟨-, -, passed, -⟩ := late staffStop 0 (staffSent ++ [.step 0]) _
        (Option.map_eq_some_iff.mp seat') goes (.told (completes told))
        fun q member => by simpa using List.all_eq_true.mp silent q member
      obtain ⟨f, member, own⟩ := List.any_eq_true.mp data
      obtain ⟨clientId, message⟩ : f.clientId = "1" ∧ f.isMessage = true := by simpa using own
      rw [List.isEmpty_iff.mp none, List.append_nil, World.steps_append, passings_append,
        ← World.play_append] at passed
      exact ⟨f, member, clientId, message, passed.subset (List.mem_append_right _ member)⟩
    · simp at last

end Server

end SubscriptionGateway
