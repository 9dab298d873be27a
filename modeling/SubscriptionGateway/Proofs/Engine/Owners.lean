import SubscriptionGateway.Proofs.Engine.Alone

/-!
For which client's id a subscription is registered. A connection owns its registered subscriptions
under the ids that its client has given them. Only a call that subscribes adds one, it asks for the
same id to its end, and when it is told of a fault it has added none.
-/
namespace SubscriptionGateway

open Broker

namespace Engine

variable {e e' e'' : Engine} {a : Action} {b : BindingId} {s : SubscriptionId} {x : Subscriber}
  {c : ConnectionId} {id : String} {call : CallId} {pool rest : List Action}

/-- A subscription is registered for an id that the client of a connection has given. -/
structure Holds (e : Engine) (c : ConnectionId) (id : String) (s : SubscriptionId) : Prop where
  registered : e.isRegistered s = true
  record : ∃ x, e.subscribers[s]? = some x ∧ x.connection = c ∧ x.clientId = id

def Action.aim? (e : Engine) : Action → Option (ConnectionId × String)
  | .subscribe _ c id _ => some (c, id)
  | .join _ _ s => e.subscribers[s]?.map fun x => (x.connection, x.clientId)
  | .openSource _ _ s _ => e.subscribers[s]?.map fun x => (x.connection, x.clientId)
  | _ => none

theorem aim_asks {p : ConnectionId × String} (aim : a.aim? e = some p) : a.asks = true := by
  cases a <;> simp_all [Action.aim?, Action.asks]

theorem aim_lasts {a' : Action} (sound : e.books.Sound (duties pool)) (member : a' ∈ pool)
    (same : ∀ (s : SubscriptionId) (x : Subscriber), e.subscribers[s]? = some x →
      ∃ x' : Subscriber, e'.subscribers[s]? = some x' ∧ x.Same x') :
    a'.aim? e' = a'.aim? e := by
  have seeker {k : BindingId} {s : SubscriptionId} (seeks : a'.seeks? = some (k, s)) :
      e'.subscribers[s]?.map (fun x => (x.connection, x.clientId)) =
        e.subscribers[s]?.map fun x => (x.connection, x.clientId) := by
    have sought : (k, s) ∈ (duties pool).seeking :=
      List.mem_filterMap.mpr ⟨a', member, seeks⟩
    obtain ⟨x, found, -⟩ := subscriber_of_phase e (sound.seeking k s sought).1
    obtain ⟨x', found', alike⟩ := same s x found
    simp [found, found', alike.connection, alike.clientId]
  cases a' with
  | join _ k s => exact seeker (k := k) rfl
  | openSource _ k s _ => exact seeker (k := k) rfl
  | _ => rfl

/-! ## Who is added -/

/-- Who is registered and owned after an action has been before, or the action has asked for it. -/
structure Roster (a : Action) (e e' : Engine) : Prop where
  registered : ∀ s ∈ e'.registered, s ∈ e.registered ∨ ∃ b, a.seeks? = some (b, s)
  owned : ∀ c p, p ∈ e'.owned c → p ∈ e.owned c ∨
    ∃ x, e.subscribers[p.1]? = some x ∧ x.clientId = p.2

theorem roster_same (registered : e'.registered = e.registered)
    (owned : ∀ c, e'.owned c = e.owned c) : Roster a e e' where
  registered _ member := .inl (registered ▸ member)
  owned c _ member := .inl (owned c ▸ member)

theorem roster_apart (apart : Apart e e') : Roster a e e' :=
  roster_same apart.registered apart.owned

theorem owned_same (same : e'.connections = e.connections) (c : ConnectionId) :
    e'.owned c = e.owned c := by simp only [owned, same]

theorem seek_roster (call : CallId) (s : SubscriptionId) (key : SourceKey) :
    Roster a e (e.seek call s key).engine := by
  rcases seek_cases e call s key with ⟨k, -, eq⟩ | ⟨-, eq⟩
  · rw [eq]
    exact roster_same rfl fun _ => rfl
  · rw [eq]
    exact roster_same rfl fun _ => rfl

theorem enter_roster {started : List (List Action)} (seeks : a.seeks? = some (b, s))
    (found : e.subscribers[s]? = some x) (outsider : s ∉ e.registered) :
    Roster a e (e.enter call b s started).engine := by
  rcases enter_cases call b started found with ⟨-, admitted⟩ | ⟨-, refused⟩
  · rw [admitted]
    refine ⟨fun s' member => ?_, fun c p member => ?_⟩
    · have member : s' ∈ e.registered ++ [s] := admission_registered e b s x ▸ member
      rcases List.mem_append.mp member with old | new
      · exact .inl old
      · exact .inr ⟨b, by rw [List.mem_singleton.mp new, seeks]⟩
    · have member : p ∈ (e.admission b s x).owned c := member
      have here : (e.admission b s x).connections[c]? = e.connections[c]?.map fun z =>
          if x.connection = c then { z with owned := z.owned ++ [(s, x.clientId)] } else z := by
        simp only [admission, updateConnection, enroll_connections, List.getElem?_modify]
        split <;> simp
      simp only [owned, here] at member ⊢
      cases read : e.connections[c]? with
      | none => simp [read] at member
      | some z =>
        simp only [read, Option.map_some] at member
        split at member
        · rcases List.mem_append.mp member with old | new
          · exact .inl old
          · obtain rfl := List.mem_singleton.mp new
            exact .inr ⟨x, found, rfl⟩
        · exact .inl member
  · rw [refused]
    exact roster_same (refusal_registered e b x outsider) (refusal_owned e b s x)

theorem depart_roster (e : Engine) (s : SubscriptionId) (c : ConnectionId)
    (f : Lifecycle → Bool × Lifecycle) :
    Roster a e (((e.deregister s).endLife s f).detach c s) := by
  refine ⟨fun s' member => ?_, fun c' p member => ?_⟩
  · have left : (((e.deregister s).endLife s f).detach c s).registered =
        e.registered.filter (· != s) := endLife_registered (e.deregister s) s f
    rw [left] at member
    exact .inl (List.mem_of_mem_filter member)
  · have lists : ((e.deregister s).endLife s f).connections = e.connections :=
      (endLife_lists (e.deregister s) s f).2
    have here : (((e.deregister s).endLife s f).detach c s).connections[c']? =
        e.connections[c']?.map fun z =>
          if c = c' then { z with owned := z.owned.filter (·.1 != s) } else z := by
      simp only [detach, updateConnection, lists, List.getElem?_modify]
      split <;> simp
    simp only [owned, here] at member ⊢
    left
    cases read : e.connections[c']? with
    | none => simp [read] at member
    | some z =>
      simp only [read, Option.map_some] at member
      split at member
      · exact List.mem_of_mem_filter member
      · exact member

theorem empty_connections (e : Engine) (b : BindingId) :
    (e.empty b).2.connections = e.connections ∧ (e.empty b).2.registered = e.registered := by
  simp only [empty]
  split <;> exact ⟨rfl, rfl⟩

theorem perform_roster (sound : e.books.Sound (duties (a :: rest))) :
    Roster a e (e.perform a).engine := by
  cases a with
  | subscribe call c clientId r =>
    simp only [perform]
    cases prepared : e.prepare c clientId r with
    | error fault => exact roster_same rfl fun _ => rfl
    | ok found =>
      obtain ⟨s, key, e'⟩ := found
      obtain ⟨compiled, -, -, -, -, rfl⟩ := prepare_ok e prepared
      simp only
      rcases seek_cases _ call s key with ⟨k, -, eq⟩ | ⟨-, eq⟩
      · rw [eq]
        exact roster_same rfl fun _ => rfl
      · rw [eq]
        exact roster_same rfl fun _ => rfl
  | join call k s =>
    obtain ⟨y, here, -, -⟩ := seeker_binding sound rfl
    obtain ⟨x, found, pending⟩ := seeker_pending sound rfl
    have outsider := unregistered_of_pending sound found pending
    simp only [perform]
    rcases joinBinding_cases call s here with ⟨-, eq⟩ | ⟨-, -, eq⟩ | ⟨-, -, eq⟩ | ⟨-, eq⟩
    · rw [eq]
      obtain ⟨registered, owned⟩ :=
        seek_roster (a := .join call k s) (e := e.unlist k) call s y.key
      exact ⟨registered, owned⟩
    · rw [eq]
      exact enter_roster rfl found outsider
    · rw [eq]
      exact roster_same rfl fun _ => rfl
    · rw [eq]
      exact roster_same rfl fun _ => rfl
  | openSource call k s due =>
    obtain ⟨y, here, -, -⟩ := seeker_binding sound rfl
    obtain ⟨x, found, pending⟩ := seeker_pending sound rfl
    have outsider := unregistered_of_pending sound found pending
    simp only [perform]
    rcases openBinding_cases call s here with ⟨fault, hub, -, eq⟩ | ⟨c, hub, -, -, eq⟩ |
      ⟨c, hub, -, -, eq⟩
    · rw [eq]
      exact roster_same rfl fun _ => rfl
    · rw [eq]
      have entered : Roster (.openSource call k s due)
          (({ e with hub := hub } : Engine).updateBinding k Binding.opened)
          ((({ e with hub := hub } : Engine).updateBinding k Binding.opened).enter call k s
            [[.consume k c .news]]).engine := enter_roster rfl found outsider
      exact ⟨entered.registered, entered.owned⟩
    · rw [eq]
      exact roster_same rfl fun _ => rfl
  | unsubscribe s =>
    simp only [perform, unsubscribe]
    split
    · exact depart_roster e s _ Lifecycle.cancel
    · exact roster_same rfl fun _ => rfl
  | terminate s t =>
    simp only [perform, terminate]
    split
    · rename_i x _ _
      obtain ⟨registered, owned⟩ :=
        depart_roster (a := .terminate s t) e s x.connection Lifecycle.retire
      exact ⟨registered, owned⟩
    · exact roster_same rfl fun _ => rfl
  | leave k s =>
    exact roster_same (leave_registered e k s).1 (owned_same (leave_connections e k s))
  | failBinding k =>
    obtain ⟨connections, registered⟩ := empty_connections e k
    exact roster_same registered (owned_same connections)
  | sweep k =>
    obtain ⟨connections, registered⟩ := empty_connections e k
    have starved := apart_stopFeeding (e.empty k).1 (e.empty k).2
    exact roster_same (starved.registered.trans registered) fun c =>
      (starved.owned c).trans (owned_same connections c)
  | _ => exact roster_apart (perform_apart e _ rfl)

/-! ## Who is owned -/

def Labelled (e : Engine) : Prop :=
  ∀ c p, p ∈ e.owned c → ∃ x, e.subscribers[p.1]? = some x ∧ x.clientId = p.2

theorem perform_labelled (sound : e.books.Sound (duties (a :: rest))) (labelled : Labelled e) :
    Labelled (e.perform a).engine := by
  intro c p member
  obtain ⟨x, found, label⟩ := ((perform_roster sound).owned c p member).elim (labelled c p) id
  obtain ⟨x', found', same⟩ := perform_same e a found
  exact ⟨x', found', same.clientId.trans label⟩

theorem labelled_upheld : Upheld Accounted fun e _ _ => Labelled e := by
  refine upheld_pending (P := fun e _ _ => Labelled e) ?_ ?_ ?_
  · intro e p q log _ labelled
    exact labelled
  · intro e ts log i _ labelled c p member
    rw [(input_apart e i).owned c] at member
    rw [(input_spares e i).1]
    exact labelled c p member
  · intro e a rest ts log _ pending sound labelled
    exact perform_labelled (sound.sound pending) labelled

theorem start_labelled (setup : Setup) (hub : Hub) :
    Always (World.start setup hub) fun e ts log => Accounted e ts log ∧ Labelled e :=
  (start_accounted setup hub).and labelled_upheld fun c p member => by
    simp [World.start, Engine.start, owned] at member

theorem owned_iff {d : Duties} (sound : e.books.Sound d) (labelled : Labelled e) :
    (s, id) ∈ e.owned c ↔ Holds e c id s := by
  have owner (s : SubscriptionId) : s ∈ (e.owned c).map (·.1) ↔
      e.books.phase s = some .active ∧ e.books.connection s = some c := sound.owned_iff c s
  constructor
  · intro member
    obtain ⟨active, here⟩ := (owner s).mp (List.mem_map_of_mem member)
    obtain ⟨x, found, label⟩ := labelled c _ member
    have connection : x.connection = c := by simpa [books, found] using here
    exact ⟨(isRegistered_iff e s).mpr ((sound.active_iff s).mpr active), x, found,
      connection, label⟩
  · rintro ⟨registered, x, found, rfl, rfl⟩
    have active := (sound.active_iff s).mp ((isRegistered_iff e s).mp registered)
    obtain ⟨p, member, same⟩ := List.mem_map.mp ((owner s).mpr ⟨active, by simp [books, found]⟩)
    obtain ⟨y, found', label⟩ := labelled _ p member
    obtain rfl : x = y := by
      rw [same, found] at found'
      exact Option.some.inj found'
    rw [← same, label]
    exact member

/-! ## A call that subscribes -/

/-- A call goes on alone, asking for the same, or has its answer. -/
inductive Pursues (e : Engine) (a : Action) (call : CallId) (f : Effect) : Prop where
  | onward (b : Action) (next : f.next = [b]) (started : f.started = []) (asks : b.asks = true)
      (whose : b.ticket? = some call) (aim : b.aim? f.engine = a.aim? e)
  | answered (r : Reply) (next : f.next = []) (told : (call, r) ∈ f.engine.replies)
      (calm : ∀ task ∈ f.started, ∀ b ∈ task, b.asks = false)

theorem seek_pursues {e₀ : Engine} (call : CallId) (key : SourceKey)
    (aim : e.subscribers[s]?.map (fun x => (x.connection, x.clientId)) = a.aim? e₀) :
    Pursues e₀ a call (e.seek call s key) := by
  rcases seek_cases e call s key with ⟨k, -, eq⟩ | ⟨-, eq⟩
  · rw [eq]
    exact .onward (.join call k s) rfl rfl rfl rfl aim
  · rw [eq]
    exact .onward (.join call e.bindings.length s) rfl rfl rfl rfl aim

theorem enter_pursues {e₀ : Engine} {started : List (List Action)}
    (found : e.subscribers[s]? = some x) (calm : ∀ task ∈ started, ∀ b ∈ task, b.asks = false) :
    Pursues e₀ a call (e.enter call b s started) := by
  rcases enter_cases call b started found with ⟨-, admitted⟩ | ⟨-, refused⟩
  · rw [admitted]
    refine .answered (.subscribed s) rfl (by simp [reply]) fun task member => ?_
    rcases List.mem_append.mp member with old | new
    · exact calm task old
    · obtain rfl := List.mem_singleton.mp new
      simp [Action.asks]
  · rw [refused]
    exact .answered (.failed Trouble.closedWhileSubscribing) rfl (by simp [reply]) calm

theorem asks_pursues (sound : e.books.Sound (duties (a :: rest))) (asks : a.asks = true)
    (whose : a.ticket? = some call) : Pursues e a call (e.perform a) := by
  have failed (e' : Engine) (fault : Fault) : Pursues e a call (e'.fail call fault) :=
    .answered (.failed fault) rfl (by simp [fail, reply]) (by simp [fail])
  cases a with
  | subscribe call' c clientId r =>
    obtain rfl : call' = call := by simpa [Action.ticket?] using whose
    simp only [perform]
    cases prepared : e.prepare c clientId r with
    | error fault => exact failed e fault
    | ok found =>
      obtain ⟨s, key, e'⟩ := found
      obtain ⟨compiled, rfl, -, -, -, rfl⟩ := prepare_ok e prepared
      exact seek_pursues call' key (by simp [Action.aim?])
  | join call' k s =>
    obtain rfl : call' = call := by simpa [Action.ticket?] using whose
    obtain ⟨y, here, -, -⟩ := seeker_binding sound rfl
    obtain ⟨x, found, -⟩ := seeker_pending sound rfl
    simp only [perform]
    rcases joinBinding_cases call' s here with ⟨-, eq⟩ | ⟨-, -, eq⟩ | ⟨-, -, eq⟩ | ⟨-, eq⟩
    · rw [eq]
      exact seek_pursues (e := e.unlist k) call' y.key rfl
    · rw [eq]
      exact enter_pursues found (by simp)
    · rw [eq]
      exact failed e .shuttingDown
    · rw [eq]
      exact .onward (.openSource call' k s _) rfl rfl rfl rfl rfl
  | openSource call' k s due =>
    obtain rfl : call' = call := by simpa [Action.ticket?] using whose
    obtain ⟨y, here, -, -⟩ := seeker_binding sound rfl
    obtain ⟨x, found, -⟩ := seeker_pending sound rfl
    simp only [perform]
    rcases openBinding_cases call' s here with ⟨fault, hub, -, eq⟩ | ⟨c, hub, -, -, eq⟩ |
      ⟨c, hub, -, -, eq⟩
    · rw [eq]
      exact failed _ fault
    · rw [eq]
      exact enter_pursues (x := x) found (by simp [Action.asks])
    · rw [eq]
      exact failed _ .shuttingDown
  | _ => simp [Action.asks] at asks

theorem brings_calm {b : Action} (calm : a.asks = false) (brings : a.Brings b) :
    b.asks = false := by
  -- Most actions ask for nothing, whatever brings them.
  cases b <;> first | rfl | cases a <;> simp_all [Action.Brings, Action.asks]

/-- Who is registered for an id after an action has been before, or the action has asked for it. -/
theorem perform_holds (sound : e.books.Sound (duties (a :: rest)))
    (holds : Holds (e.perform a).engine c id s) :
    Holds e c id s ∨ a.aim? e = some (c, id) ∧ ∃ b, a.seeks? = some (b, s) := by
  obtain ⟨registered, x', found', rfl, rfl⟩ := holds
  have record {x : Subscriber} (found : e.subscribers[s]? = some x) :
      x.connection = x'.connection ∧ x.clientId = x'.clientId := by
    obtain ⟨y, there, same⟩ := perform_same e a found
    obtain rfl : y = x' := by simpa [found'] using there.symm
    exact ⟨same.connection.symm, same.clientId.symm⟩
  rcases (perform_roster sound).registered s ((isRegistered_iff _ s).mp registered) with
    old | ⟨b, seeks⟩
  · left
    obtain ⟨x, found, -⟩ := subscriber_of_phase e ((sound.active_iff s).mp old)
    exact ⟨(isRegistered_iff e s).mpr old, x, found, record found⟩
  · right
    obtain ⟨x, found, -⟩ := seeker_pending sound seeks
    obtain ⟨connection, clientId⟩ := record found
    refine ⟨?_, b, seeks⟩
    cases a with
    | join _ k s' | openSource _ k s' _ =>
      obtain ⟨-, rfl⟩ : k = b ∧ s' = s := by simpa [Action.seeks?] using seeks
      simp [Action.aim?, found, connection, clientId]
    | _ => simp [Action.seeks?] at seeks

theorem ungranted_unregistered (ready : e.ready a = true)
    (sound : e.books.Sound (duties (a :: rest))) (whose : a.ticket? = some call)
    (seeks : a.seeks? = some (b, s)) (ungranted : ¬ Granted call (e.perform a).engine) :
    (e.perform a).engine.isRegistered s = false := by
  obtain ⟨x, found, pending⟩ := seeker_pending sound seeks
  have after := (perform_keeps ready sound).1
  have idle (phase : (e.perform a).engine.books.phase s ≠ some .active) :
      (e.perform a).engine.isRegistered s = false :=
    Bool.eq_false_iff.mpr fun registered =>
      phase ((after.active_iff s).mp ((isRegistered_iff _ s).mp registered))
  cases seeking_outcome sound whose seeks found with
  | onward _ _ _ _ _ _ record =>
    refine idle fun active => ?_
    simp [books, record, found, pending] at active
  | declined declined =>
    obtain ⟨x', found', cancelled, -⟩ := declined.record
    refine idle fun active => ?_
    simp [books, found', cancelled] at active
  | granted subscribed => exact absurd ⟨s, subscribed⟩ ungranted

theorem unsubscribe_unregistered {d : Duties} (sound : e.books.Sound d) (s : SubscriptionId) :
    (e.perform (.unsubscribe s)).engine.isRegistered s = false := by
  cases registered : e.isRegistered s with
  | false => simp [perform, unsubscribe, registered]
  | true =>
    obtain ⟨x, found, -⟩ := subscriber_of_phase e
      ((sound.active_iff s).mp ((isRegistered_iff e s).mp registered))
    have left : (((e.deregister s).endLife s Lifecycle.cancel).detach x.connection s).registered =
        e.registered.filter (· != s) := endLife_registered (e.deregister s) s Lifecycle.cancel
    simp only [perform, unsubscribe, registered, found]
    simp [isRegistered, left]

/-! ## What is known of an engine -/

structure Grounded (e : Engine) (pool : List Action) : Prop where
  sound : e.books.Sound (duties pool)
  honored : Honored e pool
  labelled : Labelled e

theorem grounded_shuffle {p q : List Action} (perm : p.Perm q) (grounded : Grounded e p) :
    Grounded e q where
  sound := sound_shuffle perm grounded.sound
  honored := honored_shuffle perm grounded.honored
  labelled := grounded.labelled

theorem grounded_always {w : World} (grounded : Grounded w.state w.pending) :
    Always w fun e ts _ => Grounded e ts.flatten := by
  have accounted := accounted_always grounded.sound
  refine ((accounted.and honored_upheld grounded.honored).both
    (accounted.and labelled_upheld grounded.labelled)).imp
      (fun perm grounded => grounded_shuffle perm.flatten grounded) ?_
  rintro e ts log ⟨⟨sound, honored⟩, -, labelled⟩
  exact ⟨sound, honored, labelled⟩

theorem start_grounded (setup : Setup) (hub : Hub) :
    Always (World.start setup hub) fun e ts _ => Grounded e ts.flatten := by
  obtain ⟨⟨sound, honored⟩, -⟩ := (start_regular setup hub).throughout []
  obtain ⟨-, labelled⟩ := (start_labelled setup hub).throughout []
  exact grounded_always ⟨sound, honored, labelled⟩

theorem Grounded.onward (grounded : Grounded e (a :: rest)) (ready : e.ready a = true) :
    Grounded (e.perform a).engine ((e.perform a).sequel ++ rest) where
  sound := (perform_keeps ready grounded.sound).1
  honored := perform_honored grounded.sound grounded.honored
  labelled := perform_labelled grounded.sound grounded.labelled

def Lasting : Fact := fun e _ log => ∀ p ∈ log, ∀ s, p.1.isRegistered s = true →
  ∃ x x', p.1.subscribers[s]? = some x ∧ e.subscribers[s]? = some x' ∧ x.Same x'

theorem start_lasting (setup : Setup) (hub : Hub) : Always (World.start setup hub) Lasting := by
  have upheld : Upheld Accounted Lasting := by
    refine ⟨fun _ lasting => lasting, fun lasting => lasting, fun {e ts log} i _ lasting => ?_,
      fun {e a todo others log} _ sound lasting p member s registered => ?_⟩
    · simpa only [Lasting, (input_spares e i).1] using lasting
    · rcases List.mem_append.mp member with old | new
      · obtain ⟨x, x', found, found', same⟩ := lasting p old s registered
        obtain ⟨x'', found'', same'⟩ := perform_same e a found'
        exact ⟨x, x'', found, found'', same'.clientId.trans same.clientId,
          same'.connection.trans same.connection, same'.compiled.trans same.compiled⟩
      · obtain rfl := List.mem_singleton.mp new
        obtain ⟨x, found, -⟩ := subscriber_of_phase e
          ((sound.active_iff s).mp ((isRegistered_iff e s).mp registered))
        obtain ⟨x', found', same⟩ := perform_same e a found
        exact ⟨x, x', found, found', same⟩
  exact ((start_accounted setup hub).and upheld fun p member => by simp at member).imp
    (fun _ lasting => lasting) (·.2)

/-! ## An id that nothing is registered for -/

def Unheld (e : Engine) (c : ConnectionId) (id : String) : Prop := ∀ s, ¬ Holds e c id s

/-- At a connection nothing is registered that was not, whoever asks for a subscription asks for the
same one, and what calls have been told they have been told. -/
structure Spared (c : ConnectionId) (pool : List Action) (e e' : Engine) : Prop where
  holds : ∀ id s, Holds e' c id s → Holds e c id s
  aims : ∀ a ∈ pool, a.aim? e' = a.aim? e
  told : ∀ p ∈ e.replies, p ∈ e'.replies
  made : e.connections.length ≤ e'.connections.length

theorem spared_refl (e : Engine) : Spared c pool e e :=
  ⟨fun _ _ holds => holds, fun _ _ => rfl, fun _ told => told, Nat.le_refl _⟩

theorem spared_trans (first : Spared c pool e e') (second : Spared c pool e' e'') :
    Spared c pool e e'' where
  holds id s holds := first.holds id s (second.holds id s holds)
  aims a member := (second.aims a member).trans (first.aims a member)
  told p member := second.told p (first.told p member)
  made := Nat.le_trans first.made second.made

theorem Spared.unheld (spared : Spared c pool e e') (unheld : Unheld e c id) : Unheld e' c id :=
  fun s holds => unheld s (spared.holds id s holds)

theorem input_spared (e : Engine) (i : Input) : Spared c pool e (i.apply e) where
  holds id s := by
    rintro ⟨registered, record⟩
    rw [(input_spares e i).1] at record
    refine ⟨?_, record⟩
    rwa [isRegistered, (input_apart e i).registered] at registered
  aims a member := by cases a <;> simp [Action.aim?, (input_spares e i).1]
  told p member := input_replies e i ▸ member
  made := (input_onward e i).made

theorem perform_aims (grounded : Grounded e (a :: rest)) :
    ∀ b ∈ rest, b.aim? (e.perform a).engine = b.aim? e := fun _ member =>
  aim_lasts grounded.sound (List.mem_cons_of_mem _ member) fun _ _ => perform_same e a

theorem sequel_aims (grounded : Grounded e (a :: rest)) {b : Action} {p : ConnectionId × String}
    (member : b ∈ (e.perform a).sequel) (aim : b.aim? (e.perform a).engine = some p) :
    a.aim? e = some p := by
  cases asks : a.asks with
  | false =>
    have calm := brings_calm asks (perform_brings e a b member)
    exact absurd (aim_asks aim) (by simp [calm])
  | true =>
    obtain ⟨call, whose⟩ : ∃ call, a.ticket? = some call := by
      cases a <;> simp_all [Action.asks, Action.ticket?]
    cases asks_pursues grounded.sound asks whose with
    | onward b' next started _ _ same =>
      obtain rfl : b = b' := by simpa [Effect.sequel, next, started] using member
      rw [← same, aim]
    | answered r next _ calm =>
      obtain ⟨task, started, member⟩ : ∃ task ∈ (e.perform a).started, b ∈ task := by
        simpa [Effect.sequel, next] using member
      exact absurd (aim_asks aim) (by simp [calm task started b member])

theorem perform_spared (grounded : Grounded e (a :: rest))
    (elsewhere : ∀ id, a.aim? e ≠ some (c, id)) : Spared c rest e (e.perform a).engine where
  holds _ _ holds :=
    (perform_holds grounded.sound holds).resolve_right fun new => elsewhere _ new.1
  aims := perform_aims grounded
  told _ := told_lasts (perform_serves grounded.sound fun call r same =>
    grounded.honored.plain call r (same ▸ List.mem_cons_self ..)).answered
  made := Nat.le_of_eq (perform_setup e a).2.symm

/-- Whoever asks for a subscription under an id that nothing is registered for registers nothing for
it as long as its call has not got anything. -/
theorem asks_unheld (ready : e.ready a = true) (sound : e.books.Sound (duties (a :: rest)))
    (whose : a.ticket? = some call) (unheld : Unheld e c id)
    (ungranted : ¬ Granted call (e.perform a).engine) : Unheld (e.perform a).engine c id := by
  intro s holds
  rcases perform_holds sound holds with old | ⟨-, b, seeks⟩
  · exact unheld s old
  · exact absurd holds.registered
      (by simp [ungranted_unregistered ready sound whose seeks ungranted])

theorem unsubscribe_unheld (sound : e.books.Sound (duties (.unsubscribe s :: rest)))
    (sole : ∀ s', Holds e c id s' → s' = s) :
    Unheld (e.perform (.unsubscribe s)).engine c id := by
  intro s' holds
  rcases perform_holds sound holds with old | ⟨aim, -⟩
  · obtain rfl := sole s' old
    exact absurd holds.registered (by simp [unsubscribe_unregistered sound])
  · simp [Action.aim?] at aim

theorem fresh_unheld (grounded : Grounded e pool) (fresh : e.connections.length ≤ c) :
    Unheld e c id := by
  intro s holds
  have member := (owned_iff grounded.sound grounded.labelled).mpr holds
  simp [owned, List.getElem?_eq_none fresh] at member

end Engine

end SubscriptionGateway
