import SubscriptionGateway.Proofs.Engine.Queues
import SubscriptionGateway.Proofs.Engine.Routing

/-!
What the others of a binding are to a subscription. All members share one consumer and one phase,
and what ends, fails or falls behind among the others takes neither away as long as it is a member.
Who is registered and who owns whom is read off the records where the books are sound, so it is
enough to follow the one record and the bindings.
-/
namespace SubscriptionGateway

open Broker

namespace Engine

variable {e e' e'' : Engine} {a : Action} {b s : SubscriptionId} {k : BindingId} {c : ConnectionId}
  {y y' y'' : Binding} {talk more : List Happening} {rest : List Action}

/-! ## Steps of others -/

/-- What is not done to a subscription itself, to its connection or to all at once. -/
inductive Elsewhere (e : Engine) (b : SubscriptionId) : Action → Prop
  /-- A call for another subscription, which may come to nothing at any point. -/
  | subscribe (call : CallId) (c : ConnectionId) (clientId : String) (r : Request)
      (present : b < e.subscribers.length) : Elsewhere e b (.subscribe call c clientId r)
  | join (call : CallId) (k : BindingId) (s : SubscriptionId) (other : s ≠ b) :
      Elsewhere e b (.join call k s)
  | openSource (call : CallId) (k : BindingId) (s : SubscriptionId) (due : Nat) (other : s ≠ b) :
      Elsewhere e b (.openSource call k s due)
  | unsubscribe (s : SubscriptionId) (other : s ≠ b) : Elsewhere e b (.unsubscribe s)
  | terminate (s : SubscriptionId) (t : Termination) (other : s ≠ b) :
      Elsewhere e b (.terminate s t)
  | leave (k : BindingId) (s : SubscriptionId) (other : s ≠ b) : Elsewhere e b (.leave k s)
  | releaseInbox (s : SubscriptionId) (other : s ≠ b) : Elsewhere e b (.releaseInbox s)
  | release (c : ConnectionId) (apart : ∀ o ∈ e.owned c, o.1 ≠ b) : Elsewhere e b (.release c)
  | connectionReleased : Elsewhere e b .connectionReleased
  | delivery (a : Action) (s : SubscriptionId) (delivers : a.delivers? = some s) (other : s ≠ b) :
      Elsewhere e b a
  | runResolver (r : ResolutionId) : Elsewhere e b (.runResolver r)
  | endResolver (r : ResolutionId) (w : Work) (due : Nat) : Elsewhere e b (.endResolver r w due)
  /-- A frame of nobody's subscription. -/
  | offer (c : ConnectionId) (f : Frame) (call : CallId) : Elsewhere e b (.offer c f (.call call))
  | enqueue (c : ConnectionId) (f : Frame) (due : Nat) (call : CallId) :
      Elsewhere e b (.enqueue c f due (.call call))
  /-- An event for others, of whom some may be too slow for it. -/
  | fanOut (call? : Option CallId) (k : BindingId) (event : BrokerEvent)
      (outside : b ∉ e.targets k) : Elsewhere e b (.fanOut call? k event)
  | answer (call : CallId) (r : Reply) : Elsewhere e b (.answer call r)

theorem elsewhere_unhandled (elsewhere : Elsewhere e b a) : ¬ a.handles e b := by
  cases elsewhere with
  | subscribe call c clientId r present => exact Nat.ne_of_lt present
  | delivery a s delivers other =>
    cases a with
    | deliverNext | endDelivery =>
      obtain rfl := Option.some.inj delivers
      exact Ne.symm other
    | subscribe | join | openSource | unsubscribe | terminate | leave | releaseInbox | fanOut
      | sweep => cases delivers
    | _ => exact id
  | fanOut call? k event outside => exact outside
  | join | openSource | unsubscribe | terminate | leave | releaseInbox =>
    rename_i other
    exact Ne.symm other
  | _ => exact id

theorem elsewhere_undelivered (elsewhere : Elsewhere e b a) : a.delivers? ≠ some b := by
  cases elsewhere with
  | delivery a s delivers other => simp [delivers, other]
  | _ => nofun

theorem delivers_brings {z : Action} (delivers : a.delivers? = some s) (brings : a.Brings z) :
    z.delivers? = some s ∨ ∃ r, z = .runResolver r := by
  cases a with
  | deliverNext a =>
    rcases brings with rfl | ⟨_, _, rfl⟩ | ⟨_, rfl⟩ | rfl <;> exact .inl delivers
  | resolve a event =>
    obtain ⟨r, rfl | rfl⟩ := brings
    · exact .inl delivers
    · exact .inr ⟨r, rfl⟩
  | deliverOutcome a r => rcases brings with ⟨_, _, rfl⟩ | rfl <;> exact .inl delivers
  | offer c f r =>
    rcases brings with ⟨_, rfl⟩ | ⟨_, rfl, rfl⟩
    · cases r <;> exact .inl delivers
    · exact .inl delivers
  | enqueue c f due r =>
    obtain ⟨_, rfl, rfl | rfl⟩ := brings <;> exact .inl delivers
  | endDelivery => exact False.elim brings
  | _ => cases delivers

theorem elsewhere_next (elsewhere : Elsewhere e b a) :
    ∀ z ∈ (e.perform a).next, Elsewhere e' b z := by
  intro z member
  have brings : a.Brings z := perform_brings e a z (List.mem_append_left _ member)
  cases elsewhere with
  | subscribe call c clientId r present =>
    simp only [perform] at member
    cases prepared : e.prepare c clientId r with
    | error fault => simp [prepared, fail] at member
    | ok found =>
      obtain ⟨s, key, made⟩ := found
      obtain ⟨_, rfl, -⟩ := prepare_ok e prepared
      simp only [prepared, seek, List.mem_singleton] at member
      exact member ▸ .join _ _ _ (Nat.ne_of_gt present)
  | join call k s other =>
    rcases brings with ⟨k', rfl⟩ | ⟨due, rfl⟩ | rfl
    · exact .join _ _ _ other
    · exact .openSource _ _ _ _ other
    · exact .delivery _ s rfl other
  | openSource call k s due other =>
    simp only [perform, openBinding, enter] at member
    split at member
    · simp at member
    split at member
    · simp [fail] at member
    split at member
    · simp [fail] at member
    split at member
    · split at member <;> simp at member
    · simp [fail] at member
  | unsubscribe s other =>
    obtain ⟨k, rfl⟩ := brings
    exact .leave _ _ other
  | terminate s t other =>
    obtain ⟨k, rfl⟩ := brings
    exact .leave _ _ other
  | release c apart =>
    simp only [perform, release] at member
    split at member
    · have owned : (({ e with managed := e.managed.filter (· != c) } : Engine).closeConnection
          c).2.owned c = e.owned c :=
        (apart_close ({ e with managed := e.managed.filter (· != c) } : Engine) c).owned c
      rcases List.mem_append.mp member with ends | last
      · obtain ⟨o, owns, rfl⟩ := List.mem_map.mp ends
        exact .unsubscribe _ (apart o (owned ▸ owns))
      · obtain rfl := List.mem_singleton.mp last
        exact .connectionReleased
    · simp at member
  | delivery a s delivers other =>
    rcases delivers_brings delivers brings with same | ⟨r, rfl⟩
    · exact .delivery z s same other
    · exact .runResolver r
  | runResolver r =>
    obtain ⟨w, due, rfl⟩ := brings
    exact .endResolver r w due
  | offer c f call =>
    rcases brings with ⟨due, rfl⟩ | ⟨s, receipt, -⟩
    · exact .enqueue c f due call
    · simp at receipt
  | enqueue c f due call =>
    obtain ⟨s, receipt, -⟩ := brings
    simp at receipt
  | leave | releaseInbox | connectionReleased | endResolver | fanOut | answer =>
    exact False.elim brings

/-! ## What happens to its binding -/

/-- What is done to a binding makes nobody a member and no member an outsider, and for a member only
the other members differ. -/
structure Retains (b : SubscriptionId) (y y' : Binding) : Prop where
  member : b ∈ y'.members ↔ b ∈ y.members
  same : b ∈ y.members → y' = { y with members := y'.members }

theorem retains_refl (b : SubscriptionId) (y : Binding) : Retains b y y := ⟨Iff.rfl, fun _ => rfl⟩

theorem retains_trans (first : Retains b y y') (second : Retains b y' y'') : Retains b y y'' where
  member := second.member.trans first.member
  same inside := by rw [second.same (first.member.mpr inside), first.same inside]

theorem retains_empty (empty : y.members = []) (still : y'.members = []) : Retains b y y' where
  member := by rw [empty, still]
  same inside := by simp [empty] at inside

theorem retains_gain (other : s ≠ b) (y : Binding) : Retains b y (y.gain s) where
  member := by simp [Binding.gain, Ne.symm other]
  same _ := rfl

theorem retains_without (other : s ≠ b) (y : Binding) : Retains b y (y.without s) := by
  have dropped : Retains b y (y.drop s) := ⟨by simp [Binding.drop, Ne.symm other], fun _ => rfl⟩
  rw [Binding.without]
  split
  · rename_i idle
    have empty : (y.drop s).members = [] := ((Binding.isIdle_iff _).mp idle).1
    exact retains_trans dropped (retains_empty empty empty)
  · exact dropped

structure Housed (b : SubscriptionId) (e e' : Engine) : Prop where
  old : ∀ (k : BindingId) y, e.bindings[k]? = some y →
    ∃ y', e'.bindings[k]? = some y' ∧ Retains b y y'
  new : ∀ (k : BindingId) y', e.bindings[k]? = none → e'.bindings[k]? = some y' → b ∉ y'.members

theorem refit_retains (sound : e.books.Sound (duties (a :: rest))) (elsewhere : Elsewhere e b a)
    (here : e.bindings[k]? = some y) (refit : Refit a k y y') : Retains b y y' := by
  -- Nobody is a member before the consumer is there, so nobody loses by its failure.
  have unopened {f : Binding → Binding} (opening : y.phase = .opening)
      (same : (f y).members = y.members) : Retains b y (f y) :=
    have nobody := opening_empty sound here opening
    retains_empty nobody (same.trans nobody)
  have unhandled := elsewhere_unhandled elsewhere
  cases refit with
  | lock opening => exact unopened (f := Binding.lock) opening rfl
  | enter => exact retains_gain (Ne.symm unhandled) y
  | refuse =>
    exact retains_trans (retains_gain (Ne.symm unhandled) y) (retains_without (Ne.symm unhandled) _)
  | shut opening => exact unopened (f := Binding.shut) opening rfl
  | found opening =>
    exact retains_trans (unopened (f := Binding.opened) opening rfl)
      (retains_gain (Ne.symm unhandled) _)
  | abandon opening =>
    exact retains_trans (unopened (f := Binding.opened) opening rfl)
      (retains_trans (retains_gain (Ne.symm unhandled) _) (retains_without (Ne.symm unhandled) _))
  | leave => exact retains_without (Ne.symm unhandled) y
  | fail | sweep =>
    cases elsewhere with
    | delivery _ _ delivers => cases delivers

theorem perform_housed (sound : e.books.Sound (duties (a :: rest))) (elsewhere : Elsewhere e b a) :
    Housed b e (e.perform a).engine where
  old k y here := by
    obtain ⟨y', there, rfl | refit⟩ := (perform_refitted sound).old k y here
    · exact ⟨y', there, retains_refl b y'⟩
    · exact ⟨y', there, refit_retains sound elsewhere here refit⟩
  new k y' absent here := by
    obtain ⟨key, rfl⟩ := (perform_refitted sound).new k y' absent here
    exact List.not_mem_nil

/-! ## All there is of it -/

/-- Nothing that a subscription has is different after a step in which frames have been queued. -/
structure Untouched (b : SubscriptionId) (e : Engine) (talk : List Happening) (e' : Engine) :
    Prop where
  /-- Lifecycle, inbox, termination and all else that is its own. -/
  record : e'.subscribers[b]? = e.subscribers[b]?
  registered : e'.isRegistered b = e.isRegistered b
  owned : ∀ c id, (b, id) ∈ e'.owned c ↔ (b, id) ∈ e.owned c
  member : ∀ k, e'.isMember k b = e.isMember k b
  /-- Its binding has kept its phase and its consumer, and only the other members may differ. -/
  binding : ∀ (k : BindingId) y, e.bindings[k]? = some y → b ∈ y.members →
    ∃ members, b ∈ members ∧ e'.bindings[k]? = some { y with members := members }
  listed : ∀ key k, e.isMember k b = true → ((key, k) ∈ e'.listed ↔ (key, k) ∈ e.listed)
  /-- What waited in a queue waits there, before anything that has been queued since. -/
  queue : ∀ c, e'.queueOf c = e.queueOf c ++ entered c talk
  silent : spoken b talk = []

theorem untouched_apart (apart : Apart e e') (record : e'.subscribers[b]? = e.subscribers[b]?)
    (queue : ∀ c, e'.queueOf c = e.queueOf c ++ entered c talk) (silent : spoken b talk = []) :
    Untouched b e talk e' where
  record := record
  registered := by simp only [isRegistered, apart.registered]
  owned c id := by rw [apart.owned]
  member k := by simp only [isMember, apart.bindings]
  binding k y here inside := ⟨y.members, inside, by rw [apart.bindings, here]⟩
  listed key k _ := by rw [apart.listed]
  queue := queue
  silent := silent

theorem untouched_trans (first : Untouched b e talk e') (second : Untouched b e' more e'') :
    Untouched b e (talk ++ more) e'' where
  record := second.record.trans first.record
  registered := second.registered.trans first.registered
  owned c id := (second.owned c id).trans (first.owned c id)
  member k := (second.member k).trans (first.member k)
  binding k y here inside := by
    obtain ⟨_, inside', here'⟩ := first.binding k y here inside
    have there := second.binding k _ here' inside'
    exact there
  listed key k inside :=
    (second.listed key k ((first.member k).trans inside)).trans (first.listed key k inside)
  queue c := by rw [second.queue, first.queue, entered_append, List.append_assoc]
  silent := by rw [spoken_append, first.silent, second.silent, List.append_nil]

section Records

variable {d d' : Duties}

theorem registered_of_record (sound : e.books.Sound d) (sound' : e'.books.Sound d')
    (record : e'.subscribers[b]? = e.subscribers[b]?) : e'.isRegistered b = e.isRegistered b := by
  have phase : e'.books.phase b = e.books.phase b := by simp only [books, record]
  rw [Bool.eq_iff_iff, isRegistered_iff, isRegistered_iff, sound'.active_iff, sound.active_iff,
    phase]

theorem owned_of_record (sound : e.books.Sound d) (sound' : e'.books.Sound d')
    (labelled : Labelled e) (labelled' : Labelled e')
    (record : e'.subscribers[b]? = e.subscribers[b]?) (c : ConnectionId) (id : String) :
    (b, id) ∈ e'.owned c ↔ (b, id) ∈ e.owned c := by
  rw [owned_iff sound' labelled', owned_iff sound labelled]
  have registered := registered_of_record sound sound' record
  constructor
  · rintro ⟨counts, x, found, own⟩
    exact ⟨registered ▸ counts, x, record ▸ found, own⟩
  · rintro ⟨counts, x, found, own⟩
    exact ⟨registered.symm ▸ counts, x, record.symm ▸ found, own⟩

theorem housed_member (housed : Housed b e e') (k : BindingId) :
    e'.isMember k b = e.isMember k b := by
  rw [Bool.eq_iff_iff]
  cases read : e.bindings[k]? with
  | some y =>
    obtain ⟨y', here, retains⟩ := housed.old k y read
    simpa only [isMember, read, here, List.contains_iff_mem] using retains.member
  | none =>
    cases read' : e'.bindings[k]? with
    | none => simp only [isMember, read, read']
    | some y' => simpa [isMember, read, read'] using housed.new k y' read read'

theorem listed_of_binding (sound : e.books.Sound d) (sound' : e'.books.Sound d')
    {members : List SubscriptionId} (here : e.bindings[k]? = some y)
    (there : e'.bindings[k]? = some { y with members := members }) (key : SourceKey) :
    (key, k) ∈ e'.listed ↔ (key, k) ∈ e.listed := by
  have source : e'.books.source k = e.books.source k := by simp [books, here, there]
  have stage : e'.books.stage k = e.books.stage k := by simp [books, here, there]
  rw [show (key, k) ∈ e'.listed ↔ _ from sound'.listed_iff key k,
    show (key, k) ∈ e.listed ↔ _ from sound.listed_iff key k, source, stage]

theorem untouched_housed (sound : e.books.Sound d) (sound' : e'.books.Sound d')
    (labelled : Labelled e) (labelled' : Labelled e')
    (record : e'.subscribers[b]? = e.subscribers[b]?) (housed : Housed b e e')
    (queue : ∀ c, e'.queueOf c = e.queueOf c ++ entered c talk) (silent : spoken b talk = []) :
    Untouched b e talk e' := by
  have binding (k : BindingId) (y : Binding) (here : e.bindings[k]? = some y)
      (inside : b ∈ y.members) :
      ∃ members, b ∈ members ∧ e'.bindings[k]? = some { y with members := members } := by
    obtain ⟨y', there, retains⟩ := housed.old k y here
    exact ⟨y'.members, retains.member.mpr inside, retains.same inside ▸ there⟩
  refine ⟨record, registered_of_record sound sound' record,
    owned_of_record sound sound' labelled labelled' record, housed_member housed, binding, ?_,
    queue, silent⟩
  intro key k inside
  cases here : e.bindings[k]? with
  | none => simp [isMember, here] at inside
  | some y =>
    obtain ⟨members, -, there⟩ := binding k y here (by simpa [isMember, here] using inside)
    exact listed_of_binding sound sound' here there key

end Records

/-! ## One step -/

/-- A step of others. -/
theorem perform_untouched (ready : e.ready a = true) (sound : e.books.Sound (duties (a :: rest)))
    (labelled : Labelled e) (elsewhere : Elsewhere e b a) :
    Untouched b e (e.happenings a) (e.perform a).engine :=
  untouched_housed sound (perform_keeps ready sound).1 labelled (perform_labelled sound labelled)
    (perform_frame a (elsewhere_unhandled elsewhere)) (perform_housed sound elsewhere)
    (perform_queueOf e a) (silent_other e (elsewhere_undelivered elsewhere)).spoken

def givenOnly (e : Engine) (k : BindingId) (event : BrokerEvent) (b : SubscriptionId) : Engine :=
  if b ∈ e.targets k then (e.schedule event b).2 else e

/-- The others may be too slow for an event, and it comes to the same. -/
theorem fanOut_untouched {d : Duties} (sound : e.books.Sound d) (call? : Option CallId)
    (k : BindingId) (event : BrokerEvent) (b : SubscriptionId) :
    Untouched b (e.givenOnly k event b) (e.happenings (.fanOut call? k event))
      (e.perform (.fanOut call? k event)).engine := by
  have all := (scheduleAll_given event (targets_nodup sound k) e).subscribers b
  have same : (e.perform (.fanOut call? k event)).engine.subscribers[b]? =
      (scheduleAll event (e.targets k) e).2.subscribers[b]? := by
    simp only [perform, fanOut_targets]
    cases call? <;> rfl
  have only : Apart e (e.givenOnly k event b) := by
    simp only [givenOnly]
    split
    · exact apart_schedule event b e
    · exact apart_refl e
  have waits : QueuesSame e (e.givenOnly k event b) := by
    simp only [givenOnly]
    split
    · exact (persists_schedule event b e).waits
    · exact waits_refl e
  have given : Apart e (e.perform (.fanOut call? k event)).engine := perform_apart e _ rfl
  refine untouched_apart ⟨given.bindings.trans only.bindings.symm,
    given.listed.trans only.listed.symm, given.registered.trans only.registered.symm,
    given.subscriptions.trans only.subscriptions.symm,
    fun c => (given.owned c).trans (only.owned c).symm⟩ ?_ (fun c => ?_)
    (silent_other e (by simp [Action.delivers?])).spoken
  · rw [same, all]
    by_cases target : b ∈ e.targets k
    · have one := (schedule_given event b e).subscribers b
      simpa [givenOnly, target] using one.symm
    · simp [givenOnly, target]
  · rw [waits c]
    exact perform_queueOf e _ c

/-! ## Every play -/

theorem untouched_refl (b : SubscriptionId) (e : Engine) : Untouched b e [] e :=
  untouched_apart (apart_refl e) rfl (fun _ => (List.append_nil _).symm) rfl

theorem input_untouched (e : Engine) (i : Input) (unread : i.reads = false) :
    Untouched b e [] (i.apply e) :=
  untouched_apart (input_apart e i) (by rw [(input_spares e i).1])
    (fun c => (input_waits e i unread c).trans (List.append_nil _).symm) rfl

theorem move_untouched {w : World} {v : Move} (sound : w.state.books.Sound (duties w.pending))
    (labelled : Labelled w.state) (unread : ∀ i, v = .input i → i.reads = false)
    (others : ∀ p ∈ w.noted (fun e a => [(e, a)]) v, Elsewhere p.1 b p.2) :
    Untouched b w.state (w.noted happenings v) (w.move v).state := by
  rcases World.move_turns w v with ⟨i, rfl, eq⟩ | ⟨place, a, todo, others', rfl, found, turn⟩ |
    ⟨place, rfl, nothing, eq⟩
  · rw [eq, World.input_state]
    exact input_untouched w.state i (unread i rfl)
  · have elsewhere : Elsewhere w.state b a :=
      others (w.state, a) (by simp [World.noted, Running.noted, found])
    have talk : w.noted happenings (.step place) = w.state.happenings a := by
      simp only [World.noted, Running.noted, found]
    rw [talk, turn.state]
    exact perform_untouched turn.ready (sound_shuffle turn.before.flatten sound) labelled elsewhere
  · have talk : w.noted happenings (.step place) = [] := by
      simp only [World.noted, Running.noted, nothing]
    rw [talk, eq]
    exact untouched_refl b w.state

theorem stretch_untouched {setup : Setup} {hub : Hub} (later : List Move) (moves : List Move)
    (unread : ∀ i, .input i ∈ later → i.reads = false)
    (others : ∀ p ∈ ((World.start setup hub).play moves).steps later, Elsewhere p.1 b p.2) :
    Untouched b ((World.start setup hub).play moves).state
      (((World.start setup hub).play moves).record happenings later)
      (((World.start setup hub).play moves).play later).state := by
  induction later generalizing moves with
  | nil => exact untouched_refl b _
  | cons v later ih =>
    obtain ⟨accounted, labelled⟩ := (start_labelled setup hub).throughout moves
    have onward : (World.start setup hub).play (moves ++ [v]) =
        ((World.start setup hub).play moves).move v := World.play_append ..
    have first := move_untouched accounted labelled
      (fun i same => unread i (same ▸ List.mem_cons_self))
      (fun p member => others p (List.mem_append_left _ member))
    have rest := ih (moves ++ [v]) (fun i member => unread i (List.mem_cons_of_mem _ member))
      (onward ▸ fun p member => others p (List.mem_append_right _ member))
    rw [onward] at rest
    exact untouched_trans first rest

/-- Whatever ends, fails or falls behind among the others of a subscription leaves all that it has
as it is, and its binding open, listed and consuming; this goes for every step, with which a task
goes on to such steps only, and for any number of them in whichever order. Where an event finds
others too slow for it, it comes to what it would come to for this one alone. -/
theorem siblings_isolated (setup : Setup) (hub : Hub) (moves : List Move) (b : SubscriptionId) :
    let w := (World.start setup hub).play moves
    (∀ a ∈ w.pending, w.state.ready a = true → Elsewhere w.state b a →
      Untouched b w.state (w.state.happenings a) (w.state.perform a).engine ∧
      ∀ z ∈ (w.state.perform a).next, Elsewhere (w.state.perform a).engine b z) ∧
    (∀ call? k event, Untouched b (w.state.givenOnly k event b)
      (w.state.happenings (.fanOut call? k event))
      (w.state.perform (.fanOut call? k event)).engine) ∧
    ∀ later, (∀ i, .input i ∈ later → i.reads = false) →
      (∀ p ∈ w.steps later, Elsewhere p.1 b p.2) →
      Untouched b w.state (w.record happenings later) (w.play later).state := by
  intro w
  obtain ⟨accounted, labelled⟩ := (start_labelled setup hub).throughout moves
  refine ⟨fun a pending ready elsewhere => ?_, fun call? k event => ?_, fun later => ?_⟩
  · obtain ⟨before, rest, split⟩ := List.append_of_mem pending
    have perm : w.pending.Perm (a :: (before ++ rest)) := split ▸ List.perm_middle
    exact ⟨perform_untouched ready (sound_shuffle perm accounted) labelled elsewhere,
      elsewhere_next elsewhere⟩
  · exact fanOut_untouched accounted call? k event b
  · exact stretch_untouched later moves

def crowdSetup : Setup := { staffSetup with inboxCapacity := 1 }

def crowdMoves : List Move :=
  [.input (.connect .webSocket), .input (.connect .webSocket),
    .input (.call (.subscribe 0 "1" { query := "subscription { employee { id } }" })),
    .step 0, .step 0, .step 0,
    .input (.call (.subscribe 1 "1" { query := "subscription { employee { id } }" })),
    .step 2, .step 0]

def crowdParting : List Move := crowdMoves ++ [.input (.call (.unsubscribe 1))]

def crowdBehind : List Move :=
  crowdMoves ++ [.input (.call (.dispatch staffEvent)), .step 3, .step 0, .step 1,
    .input (.call (.dispatch staffEvent)), .step 3]

theorem crowd_isolated :
    ((World.start crowdSetup staffHub).play crowdParting).state.isMember 0 0 = true ∧
    Untouched 0 ((World.start crowdSetup staffHub).play crowdParting).state []
      (((World.start crowdSetup staffHub).play crowdParting).state.perform
        (.unsubscribe 1)).engine ∧
    Untouched 0 ((World.start crowdSetup staffHub).play crowdParting).state
      (((World.start crowdSetup staffHub).play crowdParting).record happenings [.step 3, .step 0])
      (((World.start crowdSetup staffHub).play crowdParting).play [.step 3, .step 0]).state ∧
    (((World.start crowdSetup staffHub).play crowdParting).play [.step 3, .step 0]).state.isMember
      0 1 = false ∧
    Untouched 0
      (((World.start crowdSetup staffHub).play crowdBehind).state.givenOnly 0 staffEvent 0)
      (((World.start crowdSetup staffHub).play crowdBehind).state.happenings
        (.fanOut none 0 staffEvent))
      (((World.start crowdSetup staffHub).play crowdBehind).state.perform
        (.fanOut none 0 staffEvent)).engine ∧
    (((World.start crowdSetup staffHub).play crowdBehind).state.perform
        (.fanOut none 0 staffEvent)).engine.isClosed 1 = true := by
  obtain ⟨one, -, stretch⟩ := siblings_isolated crowdSetup staffHub crowdParting 0
  obtain ⟨-, given, -⟩ := siblings_isolated crowdSetup staffHub crowdBehind 0
  refine ⟨by decide +kernel, ?_, ?_, by decide +kernel, given none 0 staffEvent, by decide +kernel⟩
  · have asked : ((World.start crowdSetup staffHub).play crowdParting).pending.any
        (fun a => a.unsubscribes? == some 1) = true := by decide +kernel
    obtain ⟨a, pending, ends⟩ := List.any_eq_true.mp asked
    cases a with
    | unsubscribe s =>
      obtain rfl : s = 1 := by simpa [Action.unsubscribes?] using ends
      exact (one _ pending rfl (.unsubscribe 1 (by decide))).1
    | _ => exact absurd ends Bool.false_ne_true
  · have known : (((World.start crowdSetup staffHub).play crowdParting).steps
        [.step 3, .step 0]).all
        (fun p => p.2.unsubscribes? == some 1 || p.2.leaves? == some (0, 1)) = true := by
      decide +kernel
    refine stretch _ (fun i member => by simp at member) fun p member => ?_
    have ends := List.all_eq_true.mp known p member
    obtain ⟨e, a⟩ := p
    cases a with
    | unsubscribe s =>
      obtain rfl : s = 1 := by simpa [Action.unsubscribes?, Action.leaves?] using ends
      exact .unsubscribe 1 (by decide)
    | leave k s =>
      obtain ⟨rfl, rfl⟩ : k = 0 ∧ s = 1 := by
        simpa [Action.unsubscribes?, Action.leaves?] using ends
      exact .leave 0 1 (by decide)
    | _ => exact absurd ends Bool.false_ne_true

end Engine

end SubscriptionGateway
