import SubscriptionGateway.Proofs.Engine.Agreement
import SubscriptionGateway.Proofs.Engine.Encounter
import SubscriptionGateway.Proofs.Engine.Frame

/-!
Events are delivered in order and without gaps. Every action carries the story of every
subscription on, so it holds at the end of every play, and what has been put into queues is read
off it.
-/
namespace SubscriptionGateway

open Broker

namespace Engine

variable {s : SubscriptionId} {e e' : Engine} {a : Action} {x x' : Subscriber}
  {pool pool' rest : List Action} {log log' : List Happening}

/-! ## Every step -/

/-- What is known of the delivery to a subscription, whether there is one or not. -/
structure Delivery (s : SubscriptionId) (e : Engine) (pool : List Action) (log : List Happening) :
    Prop where
  sound : e.books.Sound (duties pool)
  faithful : Faithful e pool
  absent : e.subscribers[s]? = none → Mute s pool ∧ found s log = [] ∧ messages s log = []
  present : ∀ x, e.subscribers[s]? = some x → Story s e pool log x

theorem fanOut_continues {call? : Option CallId} {b : BindingId} {event : BrokerEvent}
    (once : (e.targets b).Nodup) (target : s ∈ e.targets b) (present : e.subscribers[s]? = some x)
    (active : x.life.isActive = true) (story : Story s e (.fanOut call? b event :: rest) log x) :
    Continues s (e.perform (.fanOut call? b event)) rest
      (log ++ e.happenings (.fanOut call? b event)) := by
  have onward := perform_onward e (.fanOut call? b event)
  obtain ⟨x', taken, told, gave⟩ := scheduleAll_gave event once target present
  have gave : Gave s event taken (e.perform (.fanOut call? b event)).engine x x' := by
    simp only [perform, fanOut_targets]
    cases call? <;> exact ⟨gave.here, gave.same, gave.delivering, gave.termination, gave.phase,
      gave.took, gave.refused⟩
  refine ⟨x', gave.here, story.finds gave onward active ?_ ?_ rfl rfl⟩
  · rw [found_append, happenings, told]
  · rw [messages_append, happenings, messages_given, List.append_nil]

theorem other_continues (present : e.subscribers[s]? = some x) (stand : a.stand? s = none)
    (farewell : a.farewell? s = none) (untouched : ¬ a.touches e s)
    (story : Story s e (a :: rest) log x) :
    Continues s (e.perform a) rest (log ++ e.happenings a) := by
  have outside : a.enters? ≠ some s := by
    cases a <;> simp_all [Action.enters?, Action.touches, eq_comm]
  have mute := perform_mute e a stand farewell outside
  obtain ⟨nothing, silent⟩ := happenings_mute e a stand farewell
    fun call? b event is => by
      subst is
      exact untouched
  obtain ⟨x', present', same, steady⟩ : ∃ x', (e.perform a).engine.subscribers[s]? = some x' ∧
      x.Same x' ∧ x.SameButEnded x' := by
    cases resolves : a.resolves with
    | true =>
      refine ⟨x, ?_, ⟨rfl, rfl, rfl⟩, ⟨rfl, rfl, rfl, .inl rfl⟩⟩
      rw [(resolves_spares e a resolves).1, present]
    | false =>
      obtain ⟨x', present', same, steady⟩ :=
        (perform_spares e a untouched resolves).subscriber s x present
      exact ⟨x', present', same, steady rfl⟩
  refine ⟨x', present', story.spared same steady (perform_onward e a) ?_ ?_ ?_ ?_⟩
  · rw [stands_append, mute.1]
    simp [stands, stand]
  · rw [farewells_append, mute.2]
    simp [farewells, farewell]
  · rw [found_append, nothing, List.append_nil]
  · rw [messages_append, silent, List.append_nil]

theorem stand_continues {t : Stand} (ready : e.ready a = true)
    (delivery : Delivery s e (a :: rest) log) (present : e.subscribers[s]? = some x)
    (stand : a.stand? s = some t) : Continues s (e.perform a) rest (log ++ e.happenings a) := by
  have story := delivery.present x present
  cases a with
  | deliverNext a =>
    obtain rfl : a = s := by by_contra other; simp [Action.stand?, other] at stand
    simpa [happenings, perform] using deliverNext_continues present story
  | resolve a event =>
    obtain rfl : a = s := by by_contra other; simp [Action.stand?, other] at stand
    simpa [happenings, perform] using resolve_continues present story
  | deliverOutcome a r =>
    obtain rfl : a = s := by by_contra other; simp [Action.stand?, other] at stand
    simpa [happenings, perform] using deliverOutcome_continues present delivery.faithful ready story
  | offer c f r =>
    cases r with
    | event a =>
      obtain rfl : a = s := by by_contra other; simp [Action.stand?, other] at stand
      simpa [happenings, perform] using offer_continues present story
    | ending | call => simp [Action.stand?] at stand
  | enqueue c f due r =>
    cases r with
    | event a =>
      obtain rfl : a = s := by by_contra other; simp [Action.stand?, other] at stand
      exact enqueue_continues present story
    | ending | call => simp [Action.stand?] at stand
  | endDelivery a =>
    obtain rfl : a = s := by by_contra other; simp [Action.stand?, other] at stand
    simpa [happenings, perform] using endDelivery_continues present story
  | _ => simp [Action.stand?] at stand

theorem farewell_continues {m : ConnectionId × Frame} (present : e.subscribers[s]? = some x)
    (farewell : a.farewell? s = some m) (story : Story s e (a :: rest) log x) :
    Continues s (e.perform a) rest (log ++ e.happenings a) := by
  cases a with
  | offer c f r =>
    cases r with
    | ending a =>
      obtain ⟨rfl, message⟩ : a = s ∧ f.isMessage = true := by
        by_contra other
        simp [Action.farewell?, other] at farewell
      simpa [happenings, perform] using farewell_offer_continues message present story
    | event | call => simp [Action.farewell?] at farewell
  | enqueue c f due r =>
    cases r with
    | ending a =>
      obtain ⟨rfl, message⟩ : a = s ∧ f.isMessage = true := by
        by_contra other
        simp [Action.farewell?, other] at farewell
      exact farewell_enqueue_continues message present story
    | event | call => simp [Action.farewell?] at farewell
  | _ => simp [Action.farewell?] at farewell

theorem waits_continues {f : Effect} (present : e.subscribers[s]? = some x)
    (story : Story s e (a :: rest) log x)
    (stand : a.stand? s = none ∧ a.farewell? s = none)
    (subscribers : f.engine.subscribers = e.subscribers) (onward : Onward e f.engine)
    (mute : Mute s (f.next ++ f.started.flatten)) : Continues s f rest log := by
  refine ⟨x, (congrArg (·[s]?) subscribers).trans present, ?_⟩
  refine story.spared ⟨rfl, rfl, rfl⟩ ⟨rfl, rfl, rfl, .inl rfl⟩ onward ?_ ?_ rfl rfl
  · rw [stands_append, mute.1]
    simp [stands, stand.1]
  · rw [farewells_append, mute.2]
    simp [farewells, stand.2]

theorem enter_onward (e : Engine) (call : CallId) (b : BindingId) (s : SubscriptionId)
    (started : List (List Action)) : Onward e (e.enter call b s started).engine :=
  spares_onward (spares_enter (s := s + 1) e call b (Nat.ne_of_lt (Nat.lt_succ_self s)) started)

theorem join_continues {call : CallId} {b : BindingId}
    (sound : e.books.Sound (duties (.join call b s :: rest)))
    (present : e.subscribers[s]? = some x) (story : Story s e (.join call b s :: rest) log x) :
    Continues s (e.joinBinding call b s) rest log := by
  obtain ⟨x', present', pending⟩ := seeker_pending sound rfl
  obtain rfl : x = x' := by simpa [present] using present'
  have quiet : (Action.join call b s).stand? s = none ∧ (Action.join call b s).farewell? s = none :=
    ⟨rfl, rfl⟩
  have waits {f : Effect} := waits_continues (f := f) present story quiet
  simp only [joinBinding]
  split
  · exact waits rfl (onward_same rfl rfl rfl) ⟨rfl, rfl⟩
  rename_i y _
  split
  · have sought := spares_seek (s := 0) (e.unlist b) call s y.key
    exact waits (seek_subscribers ..)
      (spares_onward (spares_before sought rfl rfl rfl rfl)) ⟨rfl, rfl⟩
  · split
    · exact enter_continues present pending story (enter_onward ..) ⟨rfl, rfl⟩
    · exact waits rfl (onward_same rfl rfl rfl) ⟨rfl, rfl⟩
  · exact waits rfl (onward_same rfl rfl rfl) ⟨rfl, rfl⟩

theorem openSource_continues {call : CallId} {b : BindingId} {due : Nat}
    (sound : e.books.Sound (duties (.openSource call b s due :: rest)))
    (present : e.subscribers[s]? = some x)
    (story : Story s e (.openSource call b s due :: rest) log x) :
    Continues s (e.openBinding call b s) rest log := by
  obtain ⟨x', present', pending⟩ := seeker_pending sound rfl
  obtain rfl : x = x' := by simpa [present] using present'
  have quiet : (Action.openSource call b s due).stand? s = none ∧
      (Action.openSource call b s due).farewell? s = none := ⟨rfl, rfl⟩
  have waits {f : Effect} := waits_continues (f := f) present story quiet
  simp only [openBinding]
  split
  · exact waits rfl (onward_same rfl rfl rfl) ⟨rfl, rfl⟩
  split
  · exact waits rfl (onward_same rfl rfl rfl) ⟨rfl, rfl⟩
  split
  · exact waits rfl (onward_same rfl rfl rfl) ⟨rfl, rfl⟩
  split
  · exact enter_continues present pending (story.lasts (onward_same rfl rfl rfl))
      (enter_onward ..) ⟨rfl, rfl⟩
  · exact waits rfl (onward_same rfl rfl rfl) ⟨rfl, rfl⟩

theorem targets_nodup {d : Duties} (sound : e.books.Sound d) (b : BindingId) :
    (e.targets b).Nodup := by
  have once := sound.members_nodup b
  simp only [targets]
  split
  · rename_i y read
    split
    · simp only [books, read] at once
      exact once.filter _
    · exact List.nodup_nil
  · exact List.nodup_nil

theorem targets_active {b : BindingId} (target : s ∈ e.targets b) : e.isActive s = true := by
  simp only [targets] at target
  split at target
  · split at target
    · exact (List.mem_filter.mp target).2
    · simp at target
  · simp at target

theorem present_continues (ready : e.ready a = true) (delivery : Delivery s e (a :: rest) log)
    (present : e.subscribers[s]? = some x) :
    Continues s (e.perform a) rest (log ++ e.happenings a) := by
  have story := delivery.present x present
  have sound := delivery.sound
  cases stand : a.stand? s with
  | some t => exact stand_continues ready delivery present stand
  | none =>
    cases farewell : a.farewell? s with
    | some m => exact farewell_continues present farewell story
    | none =>
      -- Apart from its own delivery, only what touches a subscription carries its story on.
      by_cases touched : a.touches e s
      · cases a with
        | subscribe call c clientId r =>
          obtain ⟨bound, -⟩ := List.getElem?_eq_some_iff.mp present
          exact absurd touched (Nat.ne_of_lt bound)
        | join call b a =>
          obtain rfl : s = a := touched
          simpa [happenings, perform] using join_continues sound present story
        | openSource call b a due =>
          obtain rfl : s = a := touched
          simpa [happenings, perform] using openSource_continues sound present story
        | terminate a t =>
          obtain rfl : s = a := touched
          have known := delivery.faithful.honest _ (List.mem_cons_self ..)
          have active (counted : e.isRegistered s = true) : x.life.phase = .active := by
            have phase := (sound.active_iff s).mp ((isRegistered_iff e s).mp counted)
            simpa [books, present] using phase
          simpa [happenings, perform] using terminate_continues present known active story
        | fanOut call? b event =>
          have active := targets_active touched
          exact fanOut_continues (targets_nodup sound b) touched present
            (by simpa [isActive, present] using active) story
        | deliverNext a =>
          obtain rfl : s = a := touched
          simp [Action.stand?] at stand
        | endDelivery a =>
          obtain rfl : s = a := touched
          simp [Action.stand?] at stand
        | _ => exact False.elim touched
      · exact other_continues present stand farewell touched story

theorem absent_stays (delivery : Delivery s e (a :: rest) log)
    (absent : e.subscribers[s]? = none) :
    Mute s ((e.perform a).next ++ (e.perform a).started.flatten ++ rest) ∧
      found s (log ++ e.happenings a) = [] ∧ messages s (log ++ e.happenings a) = [] := by
  obtain ⟨mute, nothing, silent⟩ := delivery.absent absent
  have stand : a.stand? s = none := by
    cases stand : a.stand? s with
    | none => rfl
    | some t => simp [Mute, stands, stand] at mute
  have farewell : a.farewell? s = none := by
    cases farewell : a.farewell? s with
    | none => rfl
    | some m => simp [Mute, farewells, farewell] at mute
  have outside : a.enters? ≠ some s := fun enters => by
    have seeks : ∃ b, a.seeks? = some (b, s) := by
      cases a <;> simp_all [Action.enters?, Action.seeks?]
    obtain ⟨b, seeks⟩ := seeks
    obtain ⟨x, present, -⟩ := seeker_pending delivery.sound seeks
    simp [absent] at present
  have still : Mute s rest := by
    simpa [Mute, stands, farewells, stand, farewell] using mute
  obtain ⟨told, said⟩ := happenings_mute e a stand farewell fun call? b event is target => by
    have active := targets_active target
    simp [isActive, absent] at active
  refine ⟨mute_append (perform_mute e a stand farewell outside) still, ?_, ?_⟩
  · rw [found_append, nothing, told, List.nil_append]
  · rw [messages_append, silent, said, List.nil_append]

theorem absent_subscribes (sound : e.books.Sound (duties (a :: rest)))
    (absent : e.subscribers[s]? = none)
    (present : (e.perform a).engine.subscribers[s]? = some x) :
    ∃ call c clientId r, a = .subscribe call c clientId r ∧ s = e.subscribers.length := by
  have touched : a.touches e s := by
    by_contra untouched
    cases resolves : a.resolves with
    | true => simp [(resolves_spares e a resolves).1, absent] at present
    | false => simp [(perform_spares e a untouched resolves).absent absent] at present
  cases a with
  | subscribe call c clientId r => exact ⟨call, c, clientId, r, rfl, touched⟩
  | join call b a =>
    obtain rfl : s = a := touched
    obtain ⟨x, here, -⟩ := seeker_pending sound rfl
    simp [absent] at here
  | openSource call b a due =>
    obtain rfl : s = a := touched
    obtain ⟨x, here, -⟩ := seeker_pending sound rfl
    simp [absent] at here
  | terminate a t =>
    obtain rfl : s = a := touched
    simp [perform, terminate, absent] at present
  | fanOut call? b event =>
    have active := targets_active touched
    simp [isActive, absent] at active
  | deliverNext a =>
    obtain rfl : s = a := touched
    simp [perform, deliverNext, absent] at present
  | endDelivery a =>
    obtain rfl : s = a := touched
    simp [perform, endDelivery, absent] at present
  | _ => exact False.elim touched

theorem subscribe_record {call : CallId} {c : ConnectionId} {clientId : String} {r : Request}
    (present :
      (e.perform (.subscribe call c clientId r)).engine.subscribers[e.subscribers.length]? =
      some x) :
    e.isClosed c = false ∧
      ∃ compiled, x = { clientId := clientId, connection := c, compiled := compiled } ∧
        e.setup.catalog.compile r = .ok compiled := by
  simp only [perform] at present
  cases prepared : e.prepare c clientId r with
  | error f =>
    simp only [prepared] at present
    simp [fail, reply] at present
  | ok made =>
    obtain ⟨a, key, e'⟩ := made
    obtain ⟨compiled, rfl, rfl, isOpen, compiles, made⟩ := prepare_ok e prepared
    simp only [prepared] at present
    rw [seek_subscribers, made] at present
    obtain rfl : _ = x := by simpa using present
    exact ⟨isOpen, compiled, rfl, compiles⟩

theorem absent_prepared (delivery : Delivery s e (a :: rest) log)
    (absent : e.subscribers[s]? = none)
    (present : (e.perform a).engine.subscribers[s]? = some x) :
    x.connection < e.connections.length ∧ x.delivering = true ∧ x.termination? = none ∧
      x.inbox = [] := by
  obtain ⟨call, c, clientId, r, rfl, rfl⟩ := absent_subscribes delivery.sound absent present
  obtain ⟨isOpen, compiled, rfl, -⟩ := subscribe_record present
  refine ⟨?_, rfl, rfl, rfl⟩
  refine Nat.lt_of_not_le fun beyond => ?_
  simp [isClosed, List.getElem?_eq_none beyond] at isOpen

theorem perform_delivery (ready : e.ready a = true) (delivery : Delivery s e (a :: rest) log) :
    Delivery s (e.perform a).engine ((e.perform a).next ++ (e.perform a).started.flatten ++ rest)
      (log ++ e.happenings a) where
  sound := (perform_keeps ready delivery.sound).1
  faithful := perform_faithful delivery.faithful
  absent none := by
    cases before : e.subscribers[s]? with
    | none => exact absent_stays delivery before
    | some x =>
      obtain ⟨x', present, -⟩ := perform_same e a before
      simp [none] at present
  present x present := by
    cases before : e.subscribers[s]? with
    | none =>
      obtain ⟨mute, nothing, silent⟩ := absent_stays delivery before
      obtain ⟨connected, delivering, running, empty⟩ := absent_prepared delivery before present
      have made := (perform_setup e a).2
      exact story_begins (made ▸ connected) delivering running empty (.inl mute.1) mute.2 nothing
        silent
    | some x' =>
      obtain ⟨x'', present', story⟩ := present_continues ready delivery before
      obtain rfl : x = x'' := by simpa [present] using present'
      exact story

theorem input_delivery (i : Input) (delivery : Delivery s e pool log) :
    Delivery s (i.apply e) (pool ++ i.task e) log := by
  obtain ⟨subscribers, -, -⟩ := input_spares e i
  have mute : Mute s (i.task e) := by
    cases i with
    | call k => cases k <;> exact ⟨rfl, rfl⟩
    | _ => exact ⟨rfl, rfl⟩
  refine ⟨(input_keeps i delivery.sound).1, input_faithful i delivery.faithful, ?_, ?_⟩
  · rw [subscribers]
    intro none
    obtain ⟨before, told⟩ := delivery.absent none
    exact ⟨mute_append before mute, told⟩
  · rw [subscribers]
    intro x present
    refine (delivery.present x present).spared ⟨rfl, rfl, rfl⟩ ⟨rfl, rfl, rfl, .inl rfl⟩
      (input_onward e i) ?_ ?_ rfl rfl
    · rw [stands_append, mute.1, List.append_nil]
    · rw [farewells_append, mute.2, List.append_nil]

theorem Story.shuffle (perm : pool.Perm pool') (story : Story s e pool log x) :
    Story s e pool' log x := by
  have standing : (stands s pool).Perm (stands s pool') := perm.filterMap (Action.stand? s)
  have leaving : (farewells s pool).Perm (farewells s pool') := perm.filterMap (Action.farewell? s)
  obtain ⟨ahead, bye, told, all, few, byes⟩ := story.told
  exact {
    connected := story.connected
    single := standing.length_eq ▸ story.single
    delivering := fun some => story.delivering fun none => by
      rw [none] at standing
      exact some standing.nil_eq.symm
    termination := story.termination
    begins := fun pending => by
      obtain ⟨mute, rest⟩ := story.begins pending
      rw [mute.1] at standing
      rw [mute.2] at leaving
      exact ⟨⟨standing.nil_eq.symm, leaving.nil_eq.symm⟩, rest⟩
    told := by
      have whole := leaving.append_left bye
      refine ⟨ahead, bye, told, fun t member => ?_, whole.length_eq ▸ few,
        fun m member => byes m (whole.mem_iff.mpr member)⟩
      obtain ⟨here, last⟩ := all t (standing.mem_iff.mpr member)
      refine ⟨here, last.imp_right fun none => ?_⟩
      rw [none] at whole
      exact whole.nil_eq.symm }

theorem delivery_shuffle (perm : pool.Perm pool') (delivery : Delivery s e pool log) :
    Delivery s e pool' log where
  sound := sound_shuffle perm delivery.sound
  faithful := ⟨fun a member => delivery.faithful.honest a (perm.mem_iff.mpr member),
    delivery.faithful.resolved⟩
  absent none := by
    obtain ⟨mute, told⟩ := delivery.absent none
    have standing : (stands s pool).Perm (stands s pool') := perm.filterMap (Action.stand? s)
    have leaving : (farewells s pool).Perm (farewells s pool') :=
      perm.filterMap (Action.farewell? s)
    rw [mute.1] at standing
    rw [mute.2] at leaving
    exact ⟨⟨standing.nil_eq.symm, leaving.nil_eq.symm⟩, told⟩
  present x present := (delivery.present x present).shuffle perm

theorem start_delivery (setup : Setup) (hub : Hub) (s : SubscriptionId) :
    Delivery s (Engine.start setup hub) [] [] where
  sound := start_sound setup hub
  faithful := ⟨by simp, by simp [Engine.start]⟩
  absent _ := ⟨⟨rfl, rfl⟩, rfl, rfl⟩
  present x present := by simp [Engine.start] at present

theorem play_setup (w : World) (moves : List Move) :
    (w.play moves).state.setup = w.state.setup :=
  World.play_keeps (fun e _ => e.setup = w.state.setup) (fun _ before => before)
    (fun {e _} i before => (input_spares e i).2.2.trans before)
    (fun {e a _} _ before => (perform_setup e a).1.trans before) moves rfl

/-- In every play the answers that have entered the queue of a subscription's connection are those
to the first of the events for which dispatches have found it, in their order, each of them taken
by its inbox; and after them comes at most the error that tells that its source has failed. -/
theorem answers_in_order (setup : Setup) (hub : Hub) (moves : List Move) (s : SubscriptionId)
    (x : Subscriber)
    (present : ((World.start setup hub).play moves).state.subscribers[s]? = some x) :
    let log := (World.start setup hub).record happenings moves
    ∃ n bye, n ≤ (found s log).length ∧
      messages s log = ((found s log).take n).map (fun d => answerFrame setup x d.1) ++ bye ∧
      (∀ i event, (found s log)[i]? = some (event, false) → n ≤ i) ∧
      (bye = [] ∨ bye = [farewellFrame x] ∧ x.termination? = some (some sourceFailed)) := by
  intro log
  have delivery : Delivery s ((World.start setup hub).play moves).state
      ((World.start setup hub).play moves).pending ([] ++ log) :=
    World.play_records happenings (Delivery s)
      delivery_shuffle input_delivery perform_delivery moves
      (start_delivery setup hub s)
  have setup_kept : ((World.start setup hub).play moves).state.setup = setup :=
    play_setup (World.start setup hub) moves
  obtain ⟨ahead, bye, ⟨done, split, answered, taken⟩, -, few, byes⟩ :=
    (delivery.present x present).told
  rw [List.nil_append] at split answered
  rw [setup_kept] at answered
  refine ⟨done.length, bye, by simp [split], by simpa [split] using answered, ?_, ?_⟩
  · intro i event missed
    by_contra answered
    have early : i < done.length := Nat.lt_of_not_le answered
    rw [split, List.getElem?_append_left early] at missed
    have := taken _ (List.mem_of_getElem? missed)
    simp at this
  · cases bye with
    | nil => exact .inl rfl
    | cons m more =>
      obtain ⟨is, ended⟩ := byes m (by simp)
      have alone : more = [] := by
        simp only [List.cons_append, List.length_cons, List.length_append] at few
        exact List.eq_nil_of_length_eq_zero (by omega)
      exact .inr ⟨by rw [is, alone], ended⟩

def staffEvent : BrokerEvent :=
  ⟨⟨"p", ["t"]⟩, "t", [123, 34, 105, 100, 34, 58, 34, 97, 34, 125], some 0⟩

def staffOutage : Hub :=
  let hub := ((World.start staffSetup staffHub).play staffMoves).state.hub
  match hub.provider? "p" with
  | some p => (hub.deleteTopic p "t").2
  | none => hub

def staffAnswer : List Move :=
  [.input (.call (.dispatch staffEvent)), .step 2, .step 0, .step 1, .step 1, .step 2, .step 0,
    .step 1, .step 0, .step 1]

def staffFailure : List Move :=
  [.input (.brokers staffOutage), .step 0, .step 0, .step 0, .step 0, .step 0, .step 0, .step 0,
    .step 0, .step 0]

theorem staff_answers_in_order : ∃ x : Subscriber,
    ((World.start staffSetup staffHub).play
      (staffMoves ++ staffAnswer ++ staffFailure)).state.subscribers[0]? = some x ∧
    let log := (World.start staffSetup staffHub).record happenings
      (staffMoves ++ staffAnswer ++ staffFailure)
    ∃ n bye, n ≤ (found 0 log).length ∧
      messages 0 log = ((found 0 log).take n).map (fun d => answerFrame staffSetup x d.1) ++ bye ∧
      (∀ i event, (found 0 log)[i]? = some (event, false) → n ≤ i) ∧
      (bye = [] ∨ bye = [farewellFrame x] ∧ x.termination? = some (some sourceFailed)) := by
  have known : ((World.start staffSetup staffHub).play
      (staffMoves ++ staffAnswer ++ staffFailure)).state.subscribers[0]?.isSome = true := by
    decide +kernel
  obtain ⟨x, present⟩ := Option.isSome_iff_exists.mp known
  exact ⟨x, present, answers_in_order staffSetup staffHub _ 0 x present⟩

/-- The farewell is a message that answers no event. -/
theorem answers_not_alone : ¬ ∀ (setup : Setup) (hub : Hub) (moves : List Move)
    (s : SubscriptionId) (x : Subscriber),
    ((World.start setup hub).play moves).state.subscribers[s]? = some x →
    ∃ n, messages s ((World.start setup hub).record happenings moves) =
      ((found s ((World.start setup hub).record happenings moves)).take n).map
        fun d => answerFrame setup x d.1 := by
  intro alone
  have known : ((World.start staffSetup staffHub).play
      (staffMoves ++ staffFailure)).state.subscribers[0]?.isSome = true := by decide +kernel
  obtain ⟨x, present⟩ := Option.isSome_iff_exists.mp known
  obtain ⟨n, answers⟩ := alone staffSetup staffHub (staffMoves ++ staffFailure) 0 x present
  have nothing : found 0 ((World.start staffSetup staffHub).record happenings
      (staffMoves ++ staffFailure)) = [] := by decide +kernel
  have told : (messages 0 ((World.start staffSetup staffHub).record happenings
      (staffMoves ++ staffFailure))).isEmpty = false := by decide +kernel
  rw [nothing, List.take_nil, List.map_nil] at answers
  rw [answers] at told
  exact absurd told (by decide)

end Engine

end SubscriptionGateway
