import SubscriptionGateway.Proofs.Engine.Stages

/-!
How the delivery to a subscription stands after every play. Whatever is done by others leaves it
where it is, or brings the end of the subscription about; its own steps take it on.
-/
namespace SubscriptionGateway

open Broker

namespace Engine

variable {e e' : Engine} {a : Action} {s : SubscriptionId} {x x' : Subscriber} {c : ConnectionId}
  {isOpen isOpen' : Prop} {talk more : List Happening} {ends : List Ending} {k : Ending}
  {said : List (ConnectionId × Frame)} {chain todo rest : List Action} {l : List (List Action)}

/-! ## Others -/

def happened (log : Steps) : List Happening := log.flatMap fun p => p.1.happenings p.2

def ended (s : SubscriptionId) (log : Steps) : List Ending :=
  log.flatMap fun p => endings s p.1 p.2

structure Parting (s : SubscriptionId) (e : Engine) (ts : List (List Action)) (log : Steps) :
    Prop where
  absent : e.subscribers[s]? = none →
    chains s ts = [] ∧ Silent s (happened log) ∧ ended s log = []
  present : ∀ x, e.subscribers[s]? = some x →
    Part s x (e.isClosed x.connection = false) (happened log) (ended s log) (chains s ts)

theorem happened_append (log more : Steps) :
    happened (log ++ more) = happened log ++ happened more := List.flatMap_append

theorem happened_more (log : Steps) (e : Engine) (a : Action) :
    happened (log ++ [(e, a)]) = happened log ++ e.happenings a := by
  simp [happened]

theorem ended_more (log : Steps) (e : Engine) (a : Action) :
    ended s (log ++ [(e, a)]) = ended s log ++ endings s e a := by
  simp [ended]

theorem Stage.pending (stage : Stage s x isOpen said ends l) (pending : x.life.phase = .pending) :
    l = [] ∧ x.life.stopped = false ∧ x.termination? = none ∧ x.delivering = true ∧ said = [] ∧
      ends = [] := by
  have begun (begun : Begun x ends) : False := by
    have finished := (begun.finished (by simp [pending])).1
    simp [pending] at finished
  cases stage with
  | before idle fresh unended ready mute none =>
    exact ⟨rfl, fresh pending, unended, ready, mute, none⟩
  | works _ _ here | closes _ here | hands _ _ _ here | finished _ here => exact (begun here).elim

theorem Stage.active (stage : Stage s x isOpen said ends l) (active : x.life.phase = .active) :
    ends = [] ∧ x.termination? = none ∧ x.life.stopped = false := by
  cases stage with
  | before idle => exact absurd active idle
  | works _ _ begun | closes _ begun | hands _ _ _ begun | finished _ begun =>
      exact begun.active active

def Stands (s : SubscriptionId) (f : Effect) (todo : List Action) (others : List (List Action))
    (talk : List Happening) (ends : List Ending) : Prop :=
  ∃ x, f.engine.subscribers[s]? = some x ∧
    Part s x (f.engine.isClosed x.connection = false) talk ends
      (chains s ((f.next ++ todo) :: (f.started ++ others)))

variable {others : List (List Action)} {f : Effect} {b : BindingId} {d : Duties}

theorem stands_still (found : f.engine.subscribers[s]? = some x) (other : a.delivers? ≠ some s)
    (next : own s f.next = []) (started : chains s f.started = [])
    (opens : f.engine.isClosed x.connection = false → e.isClosed x.connection = false)
    (part : Part s x (e.isClosed x.connection = false) talk ends
      (chains s ((a :: todo) :: others))) :
    Stands s f todo others talk ends := by
  refine ⟨x, found, ?_⟩
  rw [chains_other other next started]
  exact part.alike (alike_refl x) (.inl rfl) opens

theorem chains_entered (other : a.delivers? ≠ some s) (next : own s f.next = [])
    (none : chains s ((a :: todo) :: others) = []) :
    chains s ((f.next ++ todo) :: (f.started ++ others)) = chains s f.started := by
  rw [chains_cons, own_cons_other other, List.append_eq_nil_iff] at none
  rw [chains_cons, chains_append, own_append, next, List.nil_append, none.1, none.2]
  simp

theorem enter_stands {call : CallId} {started : List (List Action)}
    (found : e'.subscribers[s]? = some x) (pending : x.life.phase = .pending)
    (other : a.delivers? ≠ some s) (none : chains s started = [])
    (part : Part s x isOpen talk ends (chains s ((a :: todo) :: others))) :
    Stands s (e'.enter call b s started) todo others talk ends := by
  obtain ⟨nowhere, running, unended, ready, mute, unfinished⟩ := part.stage.pending pending
  have entered (g : Effect) (next : g.next = []) :
      chains s ((g.next ++ todo) :: (g.started ++ others)) = chains s g.started :=
    chains_entered other (by rw [next]; rfl) nowhere
  rcases enter_cases call b started found with ⟨-, admitted⟩ | ⟨-, refused⟩
  · rw [admitted]
    let x' : Subscriber := { x with life := x.life.activate.2, binding? := some b }
    have active : x'.life = { x.life with phase := .active } := by
      simp [x', Lifecycle.activate, pending]
    have begun : Begun x' ends := by
      refine ⟨fun _ => ⟨unfinished, unended, by simp [active, running]⟩, fun idle => ?_⟩
      simp [active] at idle
    refine ⟨x', admission_record b found, ?_⟩
    rw [entered _ rfl]
    have works : chains s (started ++ [[.deliverNext s]]) = [[.deliverNext s]] := by
      rw [chains_append, none, chains_cons, own_single (by rfl)]
      rfl
    rw [works]
    refine part.staged (.works _ (by simp [Action.works]) begun mute) rfl fun starved => ?_
    have finished := part.starved starved
    simp [pending] at finished
  · obtain ⟨x', found', finished, connection, delivering, termination, -⟩ := refusal_record b found
    rw [refused]
    refine ⟨x', found', ?_⟩
    rw [entered _ rfl, none]
    refine part.staged (.before (by simp [finished]) (fun still => ?_) (termination.trans unended)
      (delivering.trans ready) mute unfinished) connection fun _ => finished
    simp [finished] at still

theorem join_stands {call : CallId} (sound : e.books.Sound (duties (.join call b s :: rest)))
    (found : e.subscribers[s]? = some x)
    (part : Part s x (e.isClosed x.connection = false) talk ends
      (chains s ((.join call b s :: todo) :: others))) :
    Stands s (e.perform (.join call b s)) todo others talk ends := by
  obtain ⟨y, here, -, -⟩ := seeker_binding sound rfl
  obtain ⟨x', found', pending⟩ := seeker_pending sound rfl
  obtain rfl : x = x' := by simpa [found] using found'
  have other : (Action.join call b s).delivers? ≠ some s := by simp [Action.delivers?]
  have opens := @perform_closed e (.join call b s) x.connection
  simp only [perform] at opens ⊢
  rcases joinBinding_cases call s here with ⟨-, eq⟩ | ⟨-, -, eq⟩ | ⟨-, -, eq⟩ | ⟨-, eq⟩
  · rw [eq] at opens ⊢
    have found' : ((e.unlist b).seek call s y.key).engine.subscribers[s]? = some x :=
      (congrArg (·[s]?) (seek_subscribers ..)).trans found
    exact stands_still found' other rfl rfl opens part
  · rw [eq]
    exact enter_stands found pending other rfl part
  · rw [eq] at opens ⊢
    exact stands_still (a := .join call b s) found other rfl rfl opens part
  · rw [eq] at opens ⊢
    exact stands_still (a := .join call b s) found other rfl rfl opens part

theorem openSource_stands {call : CallId} {due : Nat}
    (sound : e.books.Sound (duties (.openSource call b s due :: rest)))
    (found : e.subscribers[s]? = some x)
    (part : Part s x (e.isClosed x.connection = false) talk ends
      (chains s ((.openSource call b s due :: todo) :: others))) :
    Stands s (e.perform (.openSource call b s due)) todo others talk ends := by
  obtain ⟨y, here, -, -⟩ := seeker_binding sound rfl
  obtain ⟨x', found', pending⟩ := seeker_pending sound rfl
  obtain rfl : x = x' := by simpa [found] using found'
  have other : (Action.openSource call b s due).delivers? ≠ some s := by simp [Action.delivers?]
  have opens := @perform_closed e (.openSource call b s due) x.connection
  simp only [perform] at opens ⊢
  rcases openBinding_cases call s here with ⟨fault, hub, -, eq⟩ | ⟨k, hub, -, -, eq⟩ |
    ⟨k, hub, -, -, eq⟩
  · rw [eq] at opens ⊢
    exact stands_still (a := .openSource call b s due) found other rfl rfl opens part
  · rw [eq]
    exact enter_stands (x := x) found pending other rfl part
  · rw [eq] at opens ⊢
    exact stands_still (a := .openSource call b s due) found other rfl rfl opens part

theorem ended_stands (quiet : a.delivers? = none ∧ a.enters? = none)
    (active : x.life.phase = .active)
    (k : Ending) (found' : (e.perform a).engine.subscribers[s]? = some x')
    (phase : x'.life.phase = .cancelled) (stopped : x'.life.stopped = k.stops)
    (termination : x'.termination? = k.termination?) (connection : x'.connection = x.connection)
    (delivering : x'.delivering = x.delivering)
    (part : Part s x (e.isClosed x.connection = false) talk ends
      (chains s ((a :: todo) :: others))) :
    Stands s (e.perform a) todo others talk (ends ++ [k]) := by
  obtain ⟨none, stage⟩ := part.stage.ended active k phase stopped termination connection delivering
  obtain ⟨next, started⟩ := sequel_other e (a := a) (s := s) (by simp [quiet.1]) (by simp [quiet.2])
  refine ⟨x', found', ?_⟩
  have other : a.delivers? ≠ some s := by simp [quiet.1]
  rw [chains_other other next started, none]
  have opens (here : (e.perform a).engine.isClosed x'.connection = false) :
      e.isClosed x.connection = false := connection ▸ perform_closed e a here
  exact ⟨fun _ => phase, stage.alike (alike_refl x') opens, part.order, connection ▸ part.answers⟩

theorem endings_none (other : a.moves s = false ∨ e.isRegistered s = false) :
    endings s e a = [] := by
  cases a with
  | unsubscribe s' | terminate s' t =>
    refine if_neg fun both => ?_
    rcases other with apart | absent
    · simp [Action.moves, both.1] at apart
    · simp [both.2] at absent
  | _ => rfl

theorem endings_mine (mine : a.delivers? = some s) : endings s e a = [] := by
  cases a with
  | unsubscribe | terminate => simp [Action.delivers?] at mine
  | _ => rfl

theorem other_stands (sound : e.books.Sound (duties (a :: rest))) (first : Prepared e [] a)
    (found : e.subscribers[s]? = some x) (other : a.delivers? ≠ some s)
    (outside : a.enters? ≠ some s)
    (still : a.moves s = false)
    (part : Part s x (e.isClosed x.connection = false) talk ends
      (chains s ((a :: todo) :: others))) :
    Stands s (e.perform a) todo others talk ends := by
  obtain ⟨x', found', alike, fed⟩ := perform_alike sound first found still
  obtain ⟨next, started⟩ := sequel_other e other outside
  refine ⟨x', found', ?_⟩
  rw [chains_other other next started]
  exact part.alike alike fed fun here => alike.connection ▸ perform_closed e a here

/-- Every action takes the delivery of a subscription on or leaves it where it stands. -/
theorem present_stands (sound : e.books.Sound (duties (a :: rest))) (first : Prepared e [] a)
    (delivery : Delivery s e (a :: rest) talk) (found : e.subscribers[s]? = some x)
    (part : Part s x (e.isClosed x.connection = false) talk ends
      (chains s ((a :: todo) :: others))) :
    Stands s (e.perform a) todo others (talk ++ e.happenings a) (ends ++ endings s e a) := by
  have active (member : e.isRegistered s = true) : x.life.phase = .active := by
    have phase := (sound.active_iff s).mp ((isRegistered_iff e s).mp member)
    simpa [books, found] using phase
  by_cases mine : a.delivers? = some s
  · obtain ⟨chain, single⟩ : ∃ chain, chains s ((a :: todo) :: others) = [chain] := by
      have few := part.stage.few
      have some : chains s ((a :: todo) :: others) ≠ [] := by
        rw [chains_cons, own_cons mine]
        simp [link]
      exact List.length_eq_one_iff.mp (Nat.le_antisymm few (List.length_pos_iff.mpr some))
    obtain ⟨rfl, after⟩ := chains_mine (f := e.perform a) mine single (started_mine e mine)
    rw [single] at part
    obtain ⟨x', found', part'⟩ := mine_goes found (delivery.present x found) part
    rw [endings_mine mine, List.append_nil]
    exact ⟨x', found', after ▸ part'⟩
  have part := part.talked (silent_other e mine)
  by_cases still : a.moves s = false
  · rw [endings_none (.inl still), List.append_nil]
    refine other_stands sound first found mine (fun enters => ?_) still part
    cases a <;> simp_all [Action.enters?, Action.moves]
  · cases a with
    | join call k s' =>
      obtain rfl : s' = s := by simpa [Action.moves] using still
      rw [show endings s' e (.join call k s') = [] from rfl, List.append_nil]
      exact join_stands sound found part
    | openSource call k s' due =>
      obtain rfl : s' = s := by simpa [Action.moves] using still
      rw [show endings s' e (.openSource call k s' due) = [] from rfl, List.append_nil]
      exact openSource_stands sound found part
    | unsubscribe s' =>
      obtain rfl : s' = s := by simpa [Action.moves] using still
      cases registered : e.isRegistered s' with
      | true =>
        rw [show endings s' e (.unsubscribe s') = [.unsubscribed] by simp [endings, registered]]
        obtain ⟨-, unended, -⟩ := part.stage.active (active registered)
        exact ended_stands (a := .unsubscribe s') ⟨rfl, rfl⟩ (active registered) .unsubscribed
          (unsubscribe_record found registered) rfl rfl unended rfl rfl part
      | false =>
        rw [endings_none (.inr registered), List.append_nil]
        have nothing : e.perform (.unsubscribe s') = ⟨e, [], []⟩ := by
          simp [perform, unsubscribe, registered]
        rw [nothing]
        exact stands_still found mine rfl rfl id part
    | terminate s' t =>
      obtain rfl : s' = s := by simpa [Action.moves] using still
      cases registered : e.isRegistered s' with
      | true =>
        rw [show endings s' e (.terminate s' t) = [.told t] by simp [endings, registered]]
        obtain ⟨-, -, running⟩ := part.stage.active (active registered)
        exact ended_stands (a := .terminate s' t) ⟨rfl, rfl⟩ (active registered) (.told t)
          (terminate_record found registered) rfl running rfl rfl rfl part
      | false =>
        rw [endings_none (.inr registered), List.append_nil]
        have nothing : e.perform (.terminate s' t) = ⟨e, [], []⟩ := by
          simp [perform, terminate, registered]
        rw [nothing]
        exact stands_still found mine rfl rfl id part
    | endDelivery s' =>
      obtain rfl : s' = s := by simpa [Action.moves] using still
      simp [Action.delivers?] at mine
    | _ => simp [Action.moves] at still

/-! ## Every step -/

def Attended (s : SubscriptionId) : Fact := fun e ts log =>
  Regular e ts log ∧ Delivery s e ts.flatten (happened log)

theorem start_attended (setup : Setup) (hub : Hub) (s : SubscriptionId) :
    Always (World.start setup hub) (Attended s) := by
  refine (start_regular setup hub).both ⟨fun perm delivery =>
      delivery_shuffle perm.flatten delivery,
    fun moves => ?_⟩
  have delivery : Delivery s ((World.start setup hub).play moves).state
      ((World.start setup hub).play moves).pending
      ([] ++ (World.start setup hub).record happenings moves) :=
    World.play_records happenings (Delivery s) delivery_shuffle input_delivery perform_delivery
      moves
      (start_delivery setup hub s)
  rw [List.nil_append, World.record_steps] at delivery
  exact delivery

theorem task_mute_own (s : SubscriptionId) (e : Engine) (i : Input) : own s (i.task e) = [] :=
  own_mute fun a member => by cases task_begins member <;> simp [Action.delivers?]

theorem input_parting (i : Input) {ts : List (List Action)} {log : Steps}
    (delivery : Delivery s e ts.flatten (happened log)) (parting : Parting s e ts log) :
    Parting s (i.apply e) (i.task e :: ts) log := by
  obtain ⟨subscribers, -, -⟩ := input_spares e i
  have same : chains s (i.task e :: ts) = chains s ts := by
    rw [chains_cons, task_mute_own]
    rfl
  refine ⟨fun none => ?_, fun x found => ?_⟩
  · rw [same]
    exact parting.absent (subscribers ▸ none)
  · rw [same]
    have found : e.subscribers[s]? = some x := subscribers ▸ found
    have connected := (delivery.present x found).connected
    exact (parting.present x found).alike (alike_refl x) (.inl rfl)
      ((input_onward e i).closed _ connected)

theorem fresh_part {c : ConnectionId} {clientId : String} {compiled : CompiledSubscription}
    (isOpen : Prop) (silent : Silent s talk) :
    Part s { clientId := clientId, connection := c, compiled := compiled } isOpen talk [] [] where
  starved given := by simp at given
  stage := .before (by simp) (fun _ => rfl) rfl rfl silent.parted rfl
  order := by rw [silent.spoken, silent.answered, silent.parted, List.append_nil]
  answers m member := by simp [silent.answered] at member

theorem perform_parting {log : Steps}
    (sound : e.books.Sound (duties (a :: (todo ++ others.flatten))))
    (first : Prepared e [] a)
    (delivery : Delivery s e (a :: (todo ++ others.flatten)) (happened log))
    (parting : Parting s e ((a :: todo) :: others) log) :
    Parting s (e.perform a).engine
      (((e.perform a).next ++ todo) :: ((e.perform a).started ++ others))
      (log ++ [(e, a)]) := by
  cases before : e.subscribers[s]? with
  | some x =>
    obtain ⟨x', found', part⟩ :=
        present_stands sound first delivery before (parting.present x before)
    refine ⟨fun none => by simp [found'] at none, fun x'' found'' => ?_⟩
    obtain rfl : x' = x'' := by simpa [found'] using found''
    rw [happened_more, ended_more]
    exact part
  | none =>
    obtain ⟨nowhere, silent, unended⟩ := parting.absent before
    have other : a.delivers? ≠ some s := fun mine => by
      rw [chains_cons, own_cons mine] at nowhere
      simp [link] at nowhere
    have outside : a.enters? ≠ some s := fun enters => by
      obtain ⟨b, seeks⟩ : ∃ b, a.seeks? = some (b, s) := by
        cases a <;> simp_all [Action.enters?, Action.seeks?]
      obtain ⟨x, found, -⟩ := seeker_pending sound seeks
      simp [before] at found
    have unregistered : e.isRegistered s = false := Bool.eq_false_iff.mpr fun registered => by
      have active := (sound.active_iff s).mp ((isRegistered_iff e s).mp registered)
      simp [books, before] at active
    obtain ⟨next, started⟩ := sequel_other e other outside
    have still := silent_append silent (silent_other e other)
    rw [← happened_more] at still
    have none : ended s (log ++ [(e, a)]) = [] := by
      rw [ended_more, unended, endings_none (.inr unregistered), List.append_nil]
    have same : chains s (((e.perform a).next ++ todo) :: ((e.perform a).started ++ others)) =
        chains s ((a :: todo) :: others) := chains_other other next started
    refine ⟨fun _ => ⟨same.trans nowhere, still, none⟩, fun x found => ?_⟩
    obtain ⟨call, c, clientId, r, rfl, rfl⟩ := absent_subscribes sound before found
    obtain ⟨-, compiled, rfl, -⟩ := subscribe_record found
    rw [same.trans nowhere, none]
    exact fresh_part _ still

theorem parting_upheld (s : SubscriptionId) : Upheld (Attended s) fun e ts log =>
    Parting s e ts log where
  shuffle {e ts us log} perm parting := by
    refine ⟨fun none => ?_, fun x found => ?_⟩
    · obtain ⟨nowhere, rest⟩ := parting.absent none
      exact ⟨(chains_shuffle perm (by simp [nowhere])).trans nowhere, rest⟩
    · have part := parting.present x found
      rw [chains_shuffle perm part.stage.few]
      exact part
  idle parting := ⟨parting.absent, parting.present⟩
  outside i known parting := input_parting i known.2 parting
  inside {e a todo others log} _ known parting := by
    obtain ⟨⟨⟨sound, -⟩, orderly⟩, delivery⟩ := known
    exact perform_parting sound (orderly _ (List.mem_cons_self ..)).head delivery parting

theorem start_parting (setup : Setup) (hub : Hub) (s : SubscriptionId) :
    Always (World.start setup hub) fun e ts log => Attended s e ts log ∧ Parting s e ts log := by
  refine (start_attended setup hub s).and (parting_upheld s) ⟨fun _ => ⟨rfl, silent_nil, rfl⟩, ?_⟩
  intro x found
  simp [World.start, Engine.start] at found

end Engine

end SubscriptionGateway
