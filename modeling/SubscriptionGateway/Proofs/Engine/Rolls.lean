import SubscriptionGateway.Proofs.Engine.Owners

/-!
The rolls: who is registered and what connections own. A call that subscribes leaves them as they
are until it enters one subscription, and whoever unsubscribes strikes out one. Nothing else is
touched in either case, not even in the record of another subscription.
-/
namespace SubscriptionGateway

namespace Engine

variable {e e' : Engine} {a : Action} {b : BindingId} {s : SubscriptionId} {x : Subscriber}
  {c : ConnectionId} {id : String} {call : CallId} {rest : List Action}

/-- Who is registered and owned is as it was, and so are their records. -/
structure SameRolls (e e' : Engine) : Prop where
  registered : e'.registered = e.registered
  owned : ∀ c, e'.owned c = e.owned c
  records : ∀ s ∈ e.registered, e'.subscribers[s]? = e.subscribers[s]?

/-- A subscription is new on the rolls, and active; the others there are as they were. -/
structure Admits (c : ConnectionId) (id : String) (s : SubscriptionId) (e e' : Engine) : Prop where
  fresh : s ∉ e.registered
  registered : e'.registered = e.registered ++ [s]
  owned : e'.owned c = e.owned c ++ [(s, id)]
  elsewhere : ∀ c', c' ≠ c → e'.owned c' = e.owned c'
  active : ∃ x, e'.subscribers[s]? = some x ∧ x.connection = c ∧ x.clientId = id ∧
    x.life.phase = .active
  records : ∀ s ∈ e.registered, e'.subscribers[s]? = e.subscribers[s]?

/-- A subscription is on the rolls no more, and is cancelled if it was; the others there are as they
were. -/
structure Strikes (s : SubscriptionId) (e e' : Engine) : Prop where
  registered : e'.registered = e.registered.filter (· != s)
  owned : ∀ c, e'.owned c = (e.owned c).filter (·.1 != s)
  cancelled : s ∈ e.registered → ∃ x, e'.subscribers[s]? = some x ∧ x.life.phase = .cancelled
  records : ∀ s' ∈ e.registered, s' ≠ s → e'.subscribers[s']? = e.subscribers[s']?

/-! ## Subscribing -/

theorem asks_records (sound : e.books.Sound (duties (a :: rest))) (asks : a.asks = true) :
    ∀ s ∈ e.registered, (e.perform a).engine.subscribers[s]? = e.subscribers[s]? := by
  intro s registered
  obtain ⟨x, found, active⟩ := subscriber_of_phase e ((sound.active_iff s).mp registered)
  have sought {b : BindingId} (seeks : a.seeks? = some (b, s)) : False := by
    obtain ⟨y, found', pending⟩ := seeker_pending sound seeks
    exact unregistered_of_pending sound found' pending registered
  refine perform_frame a fun handled => ?_
  cases a with
  | subscribe =>
    obtain rfl : s = e.subscribers.length := handled
    simp at found
  | join call k s' | openSource call k s' due =>
    obtain rfl : s = s' := handled
    exact sought rfl
  | _ => simp [Action.asks] at asks

/-- What comes of a call that subscribes when it goes on: it goes on with the same, or it is told of
a fault, or of the subscription that has been admitted. -/
inductive Asks (call : CallId) (c : ConnectionId) (id : String) (e : Engine)
    (f : Effect) : Prop where
  | onward (b : Action) (next : f.next = [b]) (started : f.started = []) (asks : b.asks = true)
      (whose : b.ticket? = some call) (aim : b.aim? f.engine = some (c, id))
      (same : SameRolls e f.engine)
  | refused (fault : Fault) (next : f.next = []) (told : (call, .failed fault) ∈ f.engine.replies)
      (same : SameRolls e f.engine)
  | admitted (s : SubscriptionId) (next : f.next = [])
      (told : (call, .subscribed s) ∈ f.engine.replies)
      (admits : Admits c id s e f.engine)

theorem fail_asks {e₀ : Engine} (call : CallId) (fault : Fault) (same : SameRolls e₀ e) :
    Asks call c id e₀ (e.fail call fault) :=
  .refused fault rfl (List.mem_append_right _ (List.mem_singleton.mpr rfl))
    ⟨same.registered, same.owned, same.records⟩

theorem seek_asks {e₀ : Engine} (call : CallId) (key : SourceKey)
    (aim : e.subscribers[s]?.map (fun x => (x.connection, x.clientId)) = some (c, id))
    (same : SameRolls e₀ e) : Asks call c id e₀ (e.seek call s key) := by
  rcases seek_cases e call s key with ⟨k, -, eq⟩ | ⟨-, eq⟩
  · rw [eq]
    exact .onward (.join call k s) rfl rfl rfl rfl aim same
  · rw [eq]
    exact .onward (.join call e.bindings.length s) rfl rfl rfl rfl aim
      ⟨same.registered, same.owned, same.records⟩

theorem admission_owned (e : Engine) (b : BindingId) (s : SubscriptionId) (x : Subscriber)
    (isOpen : e.isClosed x.connection = false) :
    (e.admission b s x).owned x.connection = e.owned x.connection ++ [(s, x.clientId)] ∧
      ∀ c, c ≠ x.connection → (e.admission b s x).owned c = e.owned c := by
  have there (c : ConnectionId) :
    (e.admission b s x).connections[c]? = e.connections[c]?.map fun z =>
      if x.connection = c then { z with owned := z.owned ++ [(s, x.clientId)] } else z := by
    simp only [admission, updateConnection, enroll_connections, List.getElem?_modify]
    split <;> simp
  constructor
  · simp only [owned, there]
    cases read : e.connections[x.connection]? with
    | none => simp [isClosed, read] at isOpen
    | some z => simp
  · intro c other
    simp only [owned, there]
    cases e.connections[c]? with
    | none => rfl
    | some z => simp [Ne.symm other]

theorem enter_asks {e₀ : Engine} {started : List (List Action)} (found : e.subscribers[s]? = some x)
    (pending : x.life.phase = .pending) (outsider : s ∉ e.registered)
    (registered : e.registered = e₀.registered) (owned : ∀ c, e.owned c = e₀.owned c)
    (records : ∀ s' ∈ e₀.registered,
      (e.enter call b s started).engine.subscribers[s']? = e₀.subscribers[s']?) :
    Asks call x.connection x.clientId e₀ (e.enter call b s started) := by
  rcases enter_cases call b started found with ⟨isOpen, admitted⟩ | ⟨-, refused⟩
  · obtain ⟨here, elsewhere⟩ := admission_owned e b s x isOpen
    rw [admitted] at records ⊢
    refine .admitted s rfl (List.mem_append_right _ (List.mem_singleton.mpr rfl)) ?_
    refine ⟨registered ▸ outsider, ?_, ?_, fun c other => ?_, ?_, records⟩
    · exact registered ▸ admission_registered e b s x
    · exact owned x.connection ▸ here
    · exact owned c ▸ elsewhere c other
    · exact ⟨_, admission_record b found, rfl, rfl, by simp [Lifecycle.activate, pending]⟩
  · rw [refused] at records ⊢
    refine .refused _ rfl (List.mem_append_right _ (List.mem_singleton.mpr rfl)) ⟨?_, ?_, records⟩
    · exact (refusal_registered e b x outsider).trans registered
    · exact fun c => (refusal_owned e b s x c).trans (owned c)

/-- Every action of a call that subscribes comes to one of these. -/
theorem asks_outcome (sound : e.books.Sound (duties (a :: rest))) (whose : a.ticket? = some call)
    (aim : a.aim? e = some (c, id)) : Asks call c id e (e.perform a) := by
  have records := asks_records sound (aim_asks aim)
  cases a with
  | subscribe call' c' clientId r =>
    obtain rfl : call' = call := by simpa [Action.ticket?] using whose
    obtain ⟨rfl, rfl⟩ : c' = c ∧ clientId = id := by simpa [Action.aim?] using aim
    simp only [perform] at records ⊢
    cases prepared : e.prepare c' clientId r with
    | error fault => exact fail_asks call' fault ⟨rfl, fun _ => rfl, fun _ _ => rfl⟩
    | ok found =>
      obtain ⟨s, key, e'⟩ := found
      obtain ⟨compiled, rfl, -, -, -, rfl⟩ := prepare_ok e prepared
      simp only [prepared, seek_subscribers] at records ⊢
      exact seek_asks call' key (by simp) ⟨rfl, fun _ => rfl, records⟩
  | join call' k s =>
    obtain rfl : call' = call := by simpa [Action.ticket?] using whose
    obtain ⟨y, here, -, -⟩ := seeker_binding sound rfl
    obtain ⟨x, found, pending⟩ := seeker_pending sound rfl
    have outsider := unregistered_of_pending sound found pending
    obtain ⟨rfl, rfl⟩ : x.connection = c ∧ x.clientId = id := by
      simpa [Action.aim?, found] using aim
    simp only [perform] at records ⊢
    rcases joinBinding_cases call' s here with ⟨-, eq⟩ | ⟨-, -, eq⟩ | ⟨-, -, eq⟩ | ⟨-, eq⟩
    · rw [eq]
      exact seek_asks (e := e.unlist k) call' y.key aim ⟨rfl, fun _ => rfl, fun _ _ => rfl⟩
    · rw [eq] at records ⊢
      exact enter_asks found pending outsider rfl (fun _ => rfl) records
    · rw [eq]
      exact fail_asks call' _ ⟨rfl, fun _ => rfl, fun _ _ => rfl⟩
    · rw [eq]
      exact .onward (.openSource call' k s _) rfl rfl rfl rfl aim
        ⟨rfl, fun _ => rfl, fun _ _ => rfl⟩
  | openSource call' k s due =>
    obtain rfl : call' = call := by simpa [Action.ticket?] using whose
    obtain ⟨y, here, -, -⟩ := seeker_binding sound rfl
    obtain ⟨x, found, pending⟩ := seeker_pending sound rfl
    have outsider := unregistered_of_pending sound found pending
    obtain ⟨rfl, rfl⟩ : x.connection = c ∧ x.clientId = id := by
      simpa [Action.aim?, found] using aim
    simp only [perform] at records ⊢
    rcases openBinding_cases call' s here with ⟨fault, hub, -, eq⟩ | ⟨c, hub, -, -, eq⟩ |
      ⟨c, hub, -, -, eq⟩
    · rw [eq]
      exact fail_asks call' fault ⟨rfl, fun _ => rfl, fun _ _ => rfl⟩
    · rw [eq] at records ⊢
      exact enter_asks (e := ({ e with hub := hub } : Engine).updateBinding k Binding.opened) found
        pending outsider rfl (fun _ => rfl) records
    · rw [eq]
      exact fail_asks call' _ ⟨rfl, fun _ => rfl, fun _ _ => rfl⟩
  | _ => simp [Action.aim?] at aim

/-! ## Unsubscribing -/

theorem unregistered_unowned {d : Duties} (sound : e.books.Sound d) (outsider : s ∉ e.registered)
    (c : ConnectionId) : (e.owned c).filter (·.1 != s) = e.owned c := by
  refine List.filter_eq_self.mpr fun p member => ?_
  have owned : p.1 ∈ e.books.owned c := List.mem_map_of_mem member
  have registered := (sound.active_iff p.1).mpr ((sound.owned_iff c p.1).mp owned).1
  simpa using fun same : p.1 = s => outsider (same ▸ registered)

theorem unsubscribe_strikes (sound : e.books.Sound (duties (.unsubscribe s :: rest))) :
    Strikes s e (e.perform (.unsubscribe s)).engine := by
  cases registered : e.isRegistered s with
  | false =>
    have outsider : s ∉ e.registered := fun member => by
      simp [(isRegistered_iff e s).mpr member] at registered
    have still : (e.perform (.unsubscribe s)).engine = e := by
      simp [perform, unsubscribe, registered]
    rw [still]
    refine ⟨?_, fun c => (unregistered_unowned sound outsider c).symm, fun member => ?_,
      fun _ _ _ => rfl⟩
    · exact (List.filter_eq_self.mpr fun s' member => by
        simpa using fun same : s' = s => outsider (same ▸ member)).symm
    · exact absurd member outsider
  | true =>
    have member := (isRegistered_iff e s).mp registered
    obtain ⟨x, found, -⟩ := subscriber_of_phase e ((sound.active_iff s).mp member)
    have ended : (e.perform (.unsubscribe s)).engine =
        ((e.deregister s).endLife s Lifecycle.cancel).detach x.connection s := by
      simp only [perform, unsubscribe, registered, found]
    refine ⟨?_, fun c => ?_, fun _ => ?_, fun s' _ other => ?_⟩
    · rw [ended]
      exact endLife_registered (e.deregister s) s Lifecycle.cancel
    · have lists := (endLife_lists (e.deregister s) s Lifecycle.cancel).2
      have there :
        (((e.deregister s).endLife s Lifecycle.cancel).detach x.connection s).connections[c]? =
          e.connections[c]?.map fun z =>
            if x.connection = c then { z with owned := z.owned.filter (·.1 != s) } else z := by
        simp only [detach, updateConnection, lists, List.getElem?_modify]
        split <;> simp [deregister]
      have own : x.connection ≠ c → (e.owned c).filter (·.1 != s) = e.owned c := fun other =>
        List.filter_eq_self.mpr fun p owns => by
          have here := ((sound.owned_iff c p.1).mp (List.mem_map_of_mem owns)).2
          simpa using fun same : p.1 = s => other (by simpa [books, same, found] using here)
      rw [ended]
      simp only [owned, there] at own ⊢
      cases read : e.connections[c]? with
      | none => rfl
      | some z =>
        by_cases mine : x.connection = c
        · simp [mine]
        · simpa [mine, read] using (own mine).symm
    · exact ⟨_, unsubscribe_record found registered, rfl⟩
    · exact perform_frame (.unsubscribe s) other

theorem leave_sameRolls (b : BindingId) (outsider : s ∉ e.registered) :
    SameRolls e (e.perform (.leave b s)).engine where
  registered := (leave_registered e b s).1
  owned := owned_same (leave_connections e b s)
  records _ member := leave_other fun same => outsider (same ▸ member)

theorem answer_sameRolls (e : Engine) (call : CallId) (r : Reply) :
    SameRolls e (e.perform (.answer call r)).engine := ⟨rfl, fun _ => rfl, fun _ _ => rfl⟩

end Engine

end SubscriptionGateway
