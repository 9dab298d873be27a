import SubscriptionGateway.Proofs.Engine.Consumers
import SubscriptionGateway.Proofs.Engine.Owners

/-!
Locks of bindings. A binding is locked only while somebody opens its consumer. Whoever does so comes
first in its task and waits for nothing but the clock, and when it goes on the lock is free again.
So whoever waits for a lock waits for the clock. A call that is given up frees its lock, and the
binding then waits for whoever joins it next.
-/
namespace SubscriptionGateway

open Broker

namespace Engine

variable {e e' e'' : Engine} {a : Action} {b k : BindingId} {s : SubscriptionId} {x : Subscriber}
  {call : CallId} {pool pool' rest : List Action} {ts us : List (List Action)}

/-! ## Who holds a lock -/

def Frees (e e' : Engine) : Prop := ∀ b, e'.isLocked b = true → e.isLocked b = true

theorem frees_same (bindings : e'.bindings = e.bindings) : Frees e e' := by
  intro b locked
  simpa only [isLocked, bindings] using locked

theorem frees_modify {f : Binding → Binding} (bindings : e'.bindings = e.bindings.modify k f)
    (frees : ∀ y, (f y).locked = true → y.locked = true) : Frees e e' := by
  intro b locked
  simp only [isLocked, bindings, List.getElem?_modify] at locked ⊢
  cases here : e.bindings[b]? with
  | none => simp [here] at locked
  | some y =>
    simp only [here, Option.map_eq_map, Option.map_some] at locked
    split at locked
    · exact frees y locked
    · exact locked

theorem unlocked_modify {f : Binding → Binding} (bindings : e'.bindings = e.bindings.modify k f)
    (free : ∀ y, (f y).locked = false) : e'.isLocked k = false := by
  simp only [isLocked, bindings, List.getElem?_modify, ↓reduceIte]
  cases e.bindings[k]? with
  | none => rfl
  | some y => exact free y

theorem without_locked (y : Binding) (s : SubscriptionId) (locked : (y.without s).locked = true) :
    y.locked = true := by
  simp only [Binding.without] at locked
  split at locked
  · simp [Binding.stop, Binding.shut] at locked
  · exact locked

theorem seek_frees (call : CallId) (s : SubscriptionId) (key : SourceKey) :
    Frees e (e.seek call s key).engine := by
  rcases seek_cases e call s key with ⟨k, -, eq⟩ | ⟨-, eq⟩
  · rw [eq]
    exact frees_same rfl
  · rw [eq]
    intro b locked
    simp only [isLocked, List.getElem?_append] at locked ⊢
    split at locked
    · rename_i y found
      split at found
      · simpa [found] using locked
      · obtain ⟨-, rfl⟩ : b - e.bindings.length = 0 ∧ ({ key := key } : Binding) = y := by
          simpa [List.getElem?_singleton] using found
        simp at locked
    · simp at locked

theorem enter_frees (call : CallId) (b : BindingId) (started : List (List Action))
    (found : e.subscribers[s]? = some x) : Frees e (e.enter call b s started).engine := by
  obtain ⟨f, bindings, rfl | rfl, -⟩ := enter_bindings call b started found
  · exact frees_modify bindings fun _ locked => locked
  · exact frees_modify bindings fun y => without_locked (y.gain s) s

theorem openSource_frees {due : Nat}
    (sound : e.books.Sound (duties (.openSource call k s due :: rest))) :
    Frees e (e.perform (.openSource call k s due)).engine ∧
      (e.perform (.openSource call k s due)).engine.isLocked k = false := by
  obtain ⟨y, here, -, -⟩ := seeker_binding sound rfl
  obtain ⟨x, found, -⟩ := seeker_pending sound rfl
  have unlocks {e' : Engine} {f : Binding → Binding}
    (bindings : e'.bindings = e.bindings.modify k f)
      (free : ∀ y, (f y).locked = false) : Frees e e' ∧ e'.isLocked k = false :=
    ⟨frees_modify bindings fun y locked => by
      simp [free y] at locked, unlocked_modify bindings free⟩
  have shut (e' : Engine) (same : e'.bindings = e.bindings) (fault : Fault) :
      (((e'.closeBinding k).unlist k).fail call fault).engine.bindings =
        e.bindings.modify k Binding.shut := same ▸ rfl
  simp only [perform]
  rcases openBinding_cases call s here with ⟨fault, hub, -, eq⟩ | ⟨c, hub, -, -, eq⟩ |
    ⟨c, hub, -, -, eq⟩
  · rw [eq]
    exact unlocks (shut _ rfl fault) fun _ => rfl
  · rw [eq]
    obtain ⟨f, bindings, gains, -⟩ := enter_bindings call k [[.consume k c .news]]
      (e := ({ e with hub := hub } : Engine).updateBinding k Binding.opened) found
    have once := bindings.trans (List.modify_modify_eq ..)
    refine unlocks once fun y => ?_
    rcases gains with rfl | rfl
    · rfl
    · exact Bool.eq_false_iff.mpr fun locked => by
        simpa [Binding.gain, Binding.opened] using without_locked _ s locked
  · rw [eq]
    exact unlocks (shut _ rfl .shuttingDown) fun _ => rfl

/-- Every lock is held by somebody who opens the consumer of the binding. -/
def Held (e : Engine) (pool : List Action) : Prop :=
  ∀ b, e.isLocked b = true → b ∈ (duties pool).opening

theorem Held.frees {next : List Action} (held : Held e (a :: rest)) (frees : Frees e e')
    (other : a.opens? = none) : Held e' (next ++ rest) := by
  intro b locked
  have opening := held b (frees b locked)
  simp only [duties, List.filterMap_cons, other, List.filterMap_append] at opening ⊢
  exact List.mem_append_right _ opening

theorem perform_held (sound : e.books.Sound (duties (a :: rest))) (held : Held e (a :: rest)) :
    Held (e.perform a).engine ((e.perform a).sequel ++ rest) := by
  cases a with
  | subscribe call c clientId r =>
    refine held.frees ?_ rfl
    simp only [perform]
    cases prepared : e.prepare c clientId r with
    | error fault => exact frees_same rfl
    | ok found =>
      obtain ⟨s, key, e'⟩ := found
      obtain ⟨compiled, -, -, -, -, rfl⟩ := prepare_ok e prepared
      exact seek_frees call s key
  | join call k s =>
    obtain ⟨y, here, -, -⟩ := seeker_binding sound rfl
    obtain ⟨x, found, -⟩ := seeker_pending sound rfl
    simp only [perform]
    rcases joinBinding_cases call s here with ⟨-, eq⟩ | ⟨-, -, eq⟩ | ⟨-, -, eq⟩ | ⟨-, eq⟩
    · rw [eq]
      exact held.frees (seek_frees (e := e.unlist k) call s y.key) rfl
    · rw [eq]
      exact held.frees (enter_frees call k [] found) rfl
    · rw [eq]
      exact held.frees (frees_same rfl) rfl
    · rw [eq]
      intro b locked
      by_cases same : b = k
      · simp [duties, Effect.sequel, Action.opens?, same]
      · have before : e.isLocked b = true := by
          simpa [isLocked, updateBinding, Ne.symm same] using locked
        exact List.mem_cons_of_mem _ (held b before)
  | openSource call k s due =>
    obtain ⟨frees, free⟩ := openSource_frees sound
    intro b locked
    have opening := held b (frees b locked)
    have other : b ≠ k := fun same => by simp [same, free] at locked
    have left : b ∈ (duties rest).opening := by
      simpa [duties, Action.opens?, other] using opening
    simp only [duties, List.filterMap_append]
    exact List.mem_append_right _ left
  | leave k s =>
      exact held.frees (frees_modify (leave_bindings e k s) fun y => without_locked y s) rfl
  | failBinding k =>
    exact held.frees
      (frees_modify (empty_bindings e k) (by simp [Binding.cleared, Binding.shut])) rfl
  | sweep k =>
    exact held.frees
      (frees_modify (sweep_bindings e k) (by simp [Binding.cleared, Binding.shut])) rfl
  | _ => exact held.frees (frees_same (perform_bindings e _ rfl)) rfl

theorem held_shuffle {p q : List Action} (perm : p.Perm q) (held : Held e p) : Held e q :=
  fun b locked => (perm.filterMap _).mem_iff.mp (held b locked)

theorem start_held (setup : Setup) (hub : Hub) :
    Always (World.start setup hub) fun e ts _ => Held e ts.flatten := by
  have upheld : Upheld Accounted fun e ts _ => Held e ts.flatten := by
    refine upheld_pending (P := fun e pool _ => Held e pool) held_shuffle ?_ ?_
    · intro e ts log i _ held b locked
      have opening := held b (frees_same (input_apart e i).bindings b locked)
      simp only [duties, List.filterMap_append]
      exact List.mem_append_right _ opening
    · intro e a rest ts log _ pending sound held
      exact perform_held (sound.sound pending) held
  exact ((start_accounted setup hub).and upheld fun b locked => by
    simp [World.start, Engine.start, isLocked] at locked).imp
      (fun perm => held_shuffle perm.flatten) (·.2)

/-! ## Where it stands -/

def Leading (ts : List (List Action)) : Prop := ∀ task ∈ ts, ∀ b ∈ task.tail, b.asks = false

theorem perform_leading {todo : List Action} {others : List (List Action)}
    (sound : e.books.Sound (duties (a :: rest))) (leading : Leading ((a :: todo) :: others)) :
    Leading (((e.perform a).next ++ todo) :: ((e.perform a).started ++ others)) := by
  have after (b : Action) (member : b ∈ todo) : b.asks = false :=
    leading _ (List.mem_cons_self ..) b member
  have brought : (∀ b ∈ (e.perform a).next.tail, b.asks = false) ∧
      ∀ task ∈ (e.perform a).started, ∀ b ∈ task, b.asks = false := by
    cases asks : a.asks with
    | false =>
      have calm (b : Action) (member : b ∈ (e.perform a).sequel) : b.asks = false :=
        brings_calm asks (perform_brings e a b member)
      exact ⟨fun b member => calm b (List.mem_append_left _ (List.mem_of_mem_tail member)),
        fun task started b member => calm b
          (List.mem_append_right _ (List.mem_flatten.mpr ⟨task, started, member⟩))⟩
    | true =>
      obtain ⟨call, whose⟩ : ∃ call, a.ticket? = some call := by
        cases a <;> simp_all [Action.asks, Action.ticket?]
      cases asks_pursues sound asks whose with
      | onward b next started => simp [next, started]
      | answered r next _ calm => exact ⟨by simp [next], calm⟩
  intro task member b inside
  rcases List.mem_cons.mp member with rfl | member
  · cases next : (e.perform a).next with
    | nil =>
      rw [next, List.nil_append] at inside
      exact after b (List.mem_of_mem_tail inside)
    | cons b' more =>
      rw [next] at inside brought
      exact (List.mem_append.mp inside).elim (brought.1 b) (after b)
  rcases List.mem_append.mp member with new | old
  · exact brought.2 task new b (List.mem_of_mem_tail inside)
  · exact leading task (List.mem_cons_of_mem _ old) b inside

theorem call_leads (call : Call) (n : CallId) : ∀ b ∈ (call.task n).tail, b.asks = false := by
  cases call <;> simp [Call.task, World.subscribe, World.unsubscribe, World.release, World.dispatch,
    World.deliver, World.shutdown, World.shutdownAll, Action.asks]

theorem start_leading (setup : Setup) (hub : Hub) :
    Always (World.start setup hub) fun _ ts _ => Leading ts := by
  have upheld : Upheld Accounted fun _ ts _ => Leading ts := by
    refine ⟨fun perm leading task member => leading task (perm.mem_iff.mpr member),
      fun leading task member => leading task (List.mem_cons_of_mem _ member),
      fun {e ts log} i _ leading task member => ?_, fun _ sound leading =>
        perform_leading (sound.sound (List.cons_append ..)) leading⟩
    rcases List.mem_cons.mp member with rfl | old
    · cases i with
      | call call => exact call_leads call e.calls
      | _ => simp [Input.task]
    · exact leading task old
  exact ((start_accounted setup hub).and upheld fun task member => by
    simp [World.start] at member).imp
      (fun perm leading task member => leading task (perm.mem_iff.mpr member)) (·.2)

/-! ## How far it is to the answer -/

/-- How many steps a call that subscribes may still take. Whoever has found a binding out of use
finds another one, which is in use. -/
def Action.stepsLeft (e : Engine) : Action → Nat
  | .subscribe .. => 3
  | .join _ b _ => if e.books.stage b = some .closed then 3 else 2
  | .openSource .. => 1
  | _ => 0

theorem enter_last (call : CallId) (b : BindingId) (s : SubscriptionId)
    (started : List (List Action)) : (e.enter call b s started).next = [] := by
  simp only [enter]
  split <;> rfl

theorem seek_open (call : CallId) (s : SubscriptionId) (key : SourceKey)
    (listed : ∀ key b, (key, b) ∈ e.books.listed → e.books.stage b ≠ some .closed) :
    ∃ b, (e.seek call s key).next = [.join call b s] ∧ (e.seek call s key).started = [] ∧
      (e.seek call s key).engine.books.stage b ≠ some .closed := by
  cases found : e.bindingFor? key with
  | some b =>
    obtain ⟨same, member⟩ := bindingFor_listed e found
    refine ⟨b, by simp [seek, same], by simp [seek], ?_⟩
    simpa [seek, same] using listed key b member
  | none =>
    obtain ⟨new, books, -, -⟩ := bindingFor_fresh e found
    refine ⟨e.bindings.length, by simp [seek, new], by simp [seek], ?_⟩
    simp [seek, books, Books.addDesk]

/-- Every step of a call that subscribes is its last one or brings it nearer to its answer. -/
theorem asks_nearer (sound : e.books.Sound (duties (a :: rest))) (asks : a.asks = true) :
    (e.perform a).next = [] ∨ ∃ b, (e.perform a).next = [b] ∧ (e.perform a).started = [] ∧
      a.opens? = none ∧ b.stepsLeft (e.perform a).engine < a.stepsLeft e := by
  have listed (key : SourceKey) (b : BindingId) (member : (key, b) ∈ e.books.listed) :
      e.books.stage b ≠ some .closed := ((sound.listed_iff key b).mp member).2
  cases a with
  | subscribe call c clientId r =>
    simp only [perform]
    cases prepared : e.prepare c clientId r with
    | error fault => exact .inl rfl
    | ok found =>
      obtain ⟨s, key, e'⟩ := found
      obtain ⟨compiled, -, -, -, -, rfl⟩ := prepare_ok e prepared
      have more (ss : List Subscriber) (key : SourceKey) (b : BindingId)
          (member : (key, b) ∈ ({ e with subscribers := ss } : Engine).books.listed) :
          ({ e with subscribers := ss } : Engine).books.stage b ≠ some .closed :=
            listed key b member
      obtain ⟨b, next, started, inUse⟩ := seek_open call s key (more _)
      exact .inr ⟨_, next, started, rfl, by simp [Action.stepsLeft, inUse]⟩
  | join call k s =>
    obtain ⟨y, here, -, stage⟩ := seeker_binding sound rfl
    obtain ⟨x, found, -⟩ := seeker_pending sound rfl
    simp only [perform]
    rcases joinBinding_cases call s here with ⟨closed, eq⟩ | ⟨-, -, eq⟩ | ⟨-, -, eq⟩ | ⟨opening, eq⟩
    · obtain ⟨b, next, started, inUse⟩ := seek_open (e := e.unlist k) call s y.key
        fun key b member => listed key b (List.mem_of_mem_filter member)
      rw [eq]
      exact .inr ⟨_, next, started, rfl, by simp [Action.stepsLeft, inUse, stage, closed]⟩
    · exact .inl (eq ▸ enter_last call k s [])
    · exact .inl (eq ▸ rfl)
    · rw [eq]
      exact .inr ⟨_, rfl, rfl, rfl, by simp [Action.stepsLeft, stage, opening]⟩
  | openSource call k s due =>
    obtain ⟨y, here, -, -⟩ := seeker_binding sound rfl
    left
    simp only [perform]
    rcases openBinding_cases call s here with ⟨fault, hub, -, eq⟩ | ⟨c, hub, -, -, eq⟩ |
      ⟨c, hub, -, -, eq⟩
    · exact eq ▸ rfl
    · exact eq ▸ enter_last call k s _
    · exact eq ▸ rfl
  | _ => simp [Action.asks] at asks

/-! ## A call that is given up -/

variable {y : Binding}

theorem giveUp_sound (sound : e.books.Sound (duties (a :: rest))) (suspends : a.suspends = true) :
    (e.giveUp a).books.Sound (duties rest) := by
  cases a with
  | join call b s => exact (Books.Sound.quit (d := duties rest) sound).1
  | openSource call b s due =>
    let seeking : Duties := { duties rest with seeking := (b, s) :: (duties rest).seeking }
    obtain ⟨y, here, -, -⟩ := seeker_binding sound rfl
    obtain ⟨free, unheld, -⟩ := Books.Sound.drop (d := seeking) sound
    have quit : e.books.Sound (duties rest) := (Books.Sound.quit (d := duties rest) free).1
    rw [giveUp, books_lockBinding _ here]
    exact quit.unlock unheld
  | _ => cases suspends

theorem giveUp_grounded (grounded : Grounded e (a :: rest)) (suspends : a.suspends = true)
    (c : ConnectionId) : Grounded ((e.giveUp a).stopReading c) rest := by
  obtain ⟨bindings, given⟩ := giveUp_rest e a
  have books : ((e.giveUp a).stopReading c).books = (e.giveUp a).books :=
    books_updateConnection _ fun _ => ⟨rfl, rfl⟩
  have owned (c' : ConnectionId) : ((e.giveUp a).stopReading c).owned c' = e.owned c' := by
    rw [given]
    simp only [stopReading, updateConnection, Engine.owned, List.getElem?_modify]
    by_cases same : c = c'
    · subst same
      cases e.connections[c]? <;> simp
    · cases e.connections[c']? <;> simp [same]
  refine ⟨books ▸ giveUp_sound grounded.sound suspends, ?_, fun c' p member => ?_⟩
  · have honored := honored_rest grounded.honored
    rw [given]
    exact ⟨honored.plain, honored.known, honored.once⟩
  · rw [owned] at member
    rw [given]
    exact grounded.labelled c' p member

/-! ## A binding that nobody opens -/

namespace Action

def visits (b : BindingId) : Action → Bool
  | .join _ k _ | .sweep k => k == b
  | _ => false

def attends (b : BindingId) : Action → Bool
  | .openSource _ k _ _ | .consume k _ _ | .failBinding k => k == b
  | _ => false

theorem brings_attends {a a' : Action} (brings : a.Brings a') (attends : a'.attends b = true) :
    a.attends b = true ∨ a.visits b = true := by
  cases a <;> cases a' <;> simp_all [Action.Brings, Action.attends, Action.visits]

end Action

/-- It waits to be opened, and nobody is about to open it or looks after it. -/
structure Forsaken (b : BindingId) (y : Binding) (e : Engine) (pool : List Action) : Prop where
  here : e.bindings[b]? = some y
  opening : y.phase = .opening
  empty : y.members = []
  unattended : ∀ a ∈ pool, a.attends b = false

theorem Forsaken.shuffle (forsaken : Forsaken b y e pool) (perm : pool.Perm pool') :
    Forsaken b y e pool' :=
  { forsaken with
    unattended := fun a member => forsaken.unattended a (perm.mem_iff.mpr member) }

theorem without_opening (opening : y.phase = .opening) (empty : y.members = [])
    (s : SubscriptionId) : y.without s = y := by
  have dropped : y.drop s = y := by
    rw [Binding.drop, empty, List.filter_nil, ← empty]
  have busy : ¬ Engine.Binding.isIdle (y.drop s) = true := by
    simp [dropped, Binding.isIdle_iff, opening]
  rw [Binding.without, if_neg busy, dropped]

theorem perform_forsaken (sound : e.books.Sound (duties (a :: rest))) (passes : a.visits b = false)
    (forsaken : Forsaken b y e (a :: rest)) :
    Forsaken b y (e.perform a).engine ((e.perform a).sequel ++ rest) := by
  have apart : a.attends b = false := forsaken.unattended a List.mem_cons_self
  obtain ⟨y', there, change⟩ := (perform_refitted sound).old b y forsaken.here
  have same : y' = y := by
    rcases change with same | refit
    · exact same
    · cases refit with
      | leave => exact without_opening forsaken.opening forsaken.empty _
      | _ => simp [Action.attends, Action.visits] at apart passes
  refine ⟨same ▸ there, forsaken.opening, forsaken.empty, fun a' member => ?_⟩
  rcases List.mem_append.mp member with new | old
  · refine Bool.eq_false_iff.mpr fun attends => ?_
    rcases Action.brings_attends (perform_brings e a a' new) attends with before | visits
    · exact absurd (before.symm.trans apart) Bool.noConfusion
    · exact absurd (visits.symm.trans passes) Bool.noConfusion
  · exact forsaken.unattended a' (List.mem_cons_of_mem a old)

/-- As long as nobody joins the binding and no shutdown sweeps it. -/
theorem forsaken_upheld (b : BindingId) (y : Binding) : Upheld Accounted fun e ts log =>
    (∀ p ∈ log, p.2.visits b = false) → Forsaken b y e ts.flatten := by
  refine upheld_pending (P := fun e pool log =>
    (∀ p ∈ log, p.2.visits b = false) → Forsaken b y e pool) ?_ ?_ ?_
  · intro e p q log perm before calm
    exact (before calm).shuffle perm
  · intro e ts log i _ before calm
    have forsaken := before calm
    refine { forsaken with
      here := (input_apart e i).bindings ▸ forsaken.here
      unattended := fun a member => ?_ }
    rcases List.mem_append.mp member with new | old
    · cases task_begins new <;> rfl
    · exact forsaken.unattended a old
  · intro e a rest ts log _ pending accounted before calm
    have passes : a.visits b = false := calm (e, a) (List.mem_append_right _ List.mem_cons_self)
    have forsaken := before fun p member => calm p (List.mem_append_left _ member)
    exact perform_forsaken (accounted.sound pending) passes forsaken

/-- Whoever gives up a binding that is being opened leaves it so, and free. -/
theorem giveUp_opening (sound : e.books.Sound (duties (a :: rest))) (opens : a.opens? = some b)
    (c : ConnectionId) : ∃ y, ((e.giveUp a).stopReading c).bindings[b]? = some y ∧
      y.phase = .opening ∧ y.locked = false := by
  cases a with
  | openSource call b' s due =>
    obtain rfl : b' = b := by simpa [Action.opens?] using opens
    obtain ⟨y, here, -, -⟩ := seeker_binding sound rfl
    have opening : y.phase = .opening := opener_phase sound rfl here
    exact ⟨{ y with locked := false }, by
      simp [giveUp, stopReading, updateBinding, updateConnection, here], opening, rfl⟩
  | _ => simp [Action.opens?] at opens

theorem giveUp_phase (e : Engine) (a : Action) (c : ConnectionId)
    (here : ((e.giveUp a).stopReading c).bindings[b]? = some y) :
    ∃ y', e.bindings[b]? = some y' ∧ y'.phase = y.phase := by
  cases a with
  | openSource call k s due =>
    simp only [giveUp, stopReading, updateBinding, updateConnection, List.getElem?_modify] at here
    obtain ⟨y', found, rfl⟩ := Option.map_eq_some_iff.mp here
    refine ⟨y', found, ?_⟩
    split <;> rfl
  | _ => exact ⟨y, here, rfl⟩

theorem giveUp_forsaken (grounded : Grounded e (a :: rest)) (suspends : a.suspends = true)
    (manned : Manned e (a :: rest) b) (c : ConnectionId)
    (here : ((e.giveUp a).stopReading c).bindings[b]? = some y) (opening : y.phase = .opening)
    (unlocked : y.locked = false) : Forsaken b y ((e.giveUp a).stopReading c) rest := by
  have sound := (giveUp_grounded grounded suspends c).sound
  obtain ⟨y', before, phase⟩ := giveUp_phase e a c here
  have unguarded := (manned.staffed y' before).unguarded (phase.trans opening)
  refine ⟨here, opening, opening_empty sound here opening, fun a' member => ?_⟩
  refine Bool.eq_false_iff.mpr fun attends => ?_
  have silent := List.filterMap_eq_nil_iff.mp unguarded a' (List.mem_cons_of_mem a member)
  cases a' with
  | openSource call' k s' due' =>
    obtain rfl : k = b := by simpa [Action.attends] using attends
    have locked := (sound.opening k (List.mem_filterMap.mpr ⟨_, member, rfl⟩)).1
    simp [books, isLocked, here, unlocked] at locked
  | _ => simp_all [Action.attends, Action.guard?]

theorem Forsaken.listed (forsaken : Forsaken b y e pool) (sound : e.books.Sound (duties pool)) :
    (y.key, b) ∈ e.listed := by
  refine (sound.listed_iff y.key b).mpr ⟨?_, ?_⟩
  · simp [books, forsaken.here]
  · simp [books, forsaken.here, forsaken.opening]

end Engine

end SubscriptionGateway
