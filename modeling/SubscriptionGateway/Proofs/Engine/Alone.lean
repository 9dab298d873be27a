import SubscriptionGateway.Proofs.Engine.Attempts

/-!
A call for a subscription while nobody else administers. It enters an open binding, or makes one and
opens it; a call that is denied has left the registered subscriptions, the bindings with their
members and what the connections own exactly as it has found them.
-/
namespace SubscriptionGateway

open Broker

namespace Engine

variable {e e' before : Engine} {a : Action} {b : BindingId} {s : SubscriptionId} {x : Subscriber}
  {y : Binding} {k : CallId} {pool pool' rest : List Action}

/-! ## A registration that is undone -/

theorem leave_listed (here : e.bindings[b]? = some y) (s : SubscriptionId) :
    (e.leave b s).listed =
      if Binding.isIdle (y.drop s) then e.listed.filter (·.2 != b) else e.listed := by
  have dropped : (e.dropMember b s).bindings[b]? = some (y.drop s) := by
    simp [dropMember_bindings, here]
  have listed : (e.dropMember b s).listed = e.listed := by
    simp only [dropMember]
    split <;> rfl
  simp only [leave, closeIfIdle, dropped]
  split
  · exact congrArg (List.filter (·.2 != b)) listed
  · exact listed

theorem leave_connections (e : Engine) (b : BindingId) (s : SubscriptionId) :
    (e.leave b s).connections = e.connections := by
  have dropped : (e.dropMember b s).connections = e.connections := by
    simp only [dropMember]
    split <;> rfl
  simp only [leave, closeIfIdle]
  split
  · split <;> exact dropped
  · exact dropped

theorem endLife_lists (e : Engine) (s : SubscriptionId) (f : Lifecycle → Bool × Lifecycle) :
    (e.endLife s f).listed = e.listed ∧ (e.endLife s f).connections = e.connections := by
  simp only [endLife]
  split
  · exact ⟨rfl, rfl⟩
  · split <;> exact ⟨rfl, rfl⟩

theorem refusal_listed (here : e.bindings[b]? = some y) (s : SubscriptionId) (x : Subscriber) :
    (e.refusal b s x).listed =
      if Binding.isIdle ((y.gain s).drop s) then e.listed.filter (·.2 != b) else e.listed := by
  have gained : (e.enroll b s x).bindings[b]? = some (y.gain s) := by simp [enroll_bindings, here]
  have listed : (e.enroll b s x).listed = e.listed := by
    simp only [enroll]
    split <;> rfl
  have left := leave_listed gained s
  rw [listed] at left
  exact (endLife_lists _ s Lifecycle.cancel).1.trans left

theorem refusal_owned (e : Engine) (b : BindingId) (s : SubscriptionId) (x : Subscriber)
    (c : ConnectionId) : (e.refusal b s x).owned c = e.owned c := by
  have left : ((e.enroll b s x).leave b s).connections = e.connections :=
    (leave_connections _ b s).trans (enroll_connections e b s x)
  have same : (e.refusal b s x).connections = e.connections :=
    (endLife_lists _ s Lifecycle.cancel).2.trans left
  simp only [owned, same]

theorem gain_drop (outsider : s ∉ y.members) : (y.gain s).drop s = y := by
  have kept : (y.members ++ [s]).filter (· != s) = y.members := Books.filter_newcomer outsider
  simp only [Binding.drop, Binding.gain, kept]

theorem refusal_apart {d : Duties} (sound : e.books.Sound d) (found : e.subscribers[s]? = some x)
    (pending : x.life.phase = .pending) (here : e.bindings[b]? = some y)
    (peopled : y.members ≠ []) :
    Apart e (e.refusal b s x) := by
  have phase : e.books.phase s = some .pending := by simp [books, found, pending]
  have outsider : s ∉ y.members := fun member => by
    obtain ⟨-, -, active | ⟨past, -⟩⟩ := sound.member b s (by simpa [books, here] using member)
    · simp [phase] at active
    · simp [phase] at past
  have busy : ¬ Binding.isIdle ((y.gain s).drop s) = true := fun idle => by
    rw [gain_drop outsider] at idle
    exact peopled ((Binding.isIdle_iff y).mp idle).1
  refine ⟨?_, ?_, refusal_registered e b x (unregistered_of_pending sound found pending),
    refusal_count e b found pending, refusal_owned e b s x⟩
  · rw [refusal_bindings]
    refine (modify_read (g := id) fun z there => ?_).trans (List.modify_id ..)
    obtain rfl : y = z := by simpa [here] using there
    rw [Binding.without, if_neg busy, gain_drop outsider]
    rfl
  · rw [refusal_listed here, if_neg busy]

/-! ## As it was -/

structure Intact (before e : Engine) : Prop where
  registered : e.registered = before.registered
  bindings : ∀ b, b < before.bindings.length → e.bindings[b]? = before.bindings[b]?
  more : before.bindings.length ≤ e.bindings.length
  owned : ∀ c, e.owned c = before.owned c

theorem intact_refl (e : Engine) : Intact e e :=
  ⟨rfl, fun _ _ => rfl, Nat.le_refl _, fun _ => rfl⟩

theorem intact_apart (intact : Intact before e) (apart : Apart e e') : Intact before e' where
  registered := apart.registered.trans intact.registered
  bindings b bound := apart.bindings ▸ intact.bindings b bound
  more := apart.bindings ▸ intact.more
  owned c := (apart.owned c).trans (intact.owned c)

theorem intact_modified {f : Binding → Binding} (intact : Intact before e)
    (fresh : before.bindings.length ≤ b) (registered : e'.registered = e.registered)
    (modified : e'.bindings = e.bindings.modify b f) (owned : ∀ c, e'.owned c = e.owned c) :
    Intact before e' where
  registered := registered.trans intact.registered
  bindings b' bound := by
    have differ : b ≠ b' := Nat.ne_of_gt (Nat.lt_of_lt_of_le bound fresh)
    rw [modified, List.getElem?_modify_ne _ _ differ, intact.bindings b' bound]
  more := by
    rw [modified, List.length_modify]
    exact intact.more
  owned c := (owned c).trans (intact.owned c)

theorem intact_more (intact : Intact before e) (registered : e'.registered = e.registered)
    (more : e'.bindings = e.bindings ++ [y]) (owned : ∀ c, e'.owned c = e.owned c) :
    Intact before e' where
  registered := registered.trans intact.registered
  bindings b' bound := by
    rw [more, List.getElem?_append_left (Nat.lt_of_lt_of_le bound intact.more),
      intact.bindings b' bound]
  more := by
    rw [more, List.length_append]
    exact Nat.le_succ_of_le intact.more
  owned c := (owned c).trans (intact.owned c)

/-- How far a call has come that nobody interferes with. -/
inductive Solo (k : CallId) (before e : Engine) (pool : List Action) : Prop where
  | unchanged (listed : e.listed = before.listed)
      (enters : ∀ a ∈ pool, a.ticket? = some k → ∀ b s, a.seeks? = some (b, s) →
        b < before.bindings.length ∧ ∃ y, before.bindings[b]? = some y ∧ y.phase = .opened ∧
          y.members ≠ [])
  /-- The call has made a binding, which it goes on to open. -/
  | founding (b : BindingId) (key : SourceKey) (y : Binding)
      (listed : e.listed = before.listed ++ [(key, b)]) (fresh : before.bindings.length ≤ b)
      (here : e.bindings[b]? = some y) (opening : y.phase = .opening)
      (only : ∀ a ∈ pool, a.ticket? = some k → ∃ s, a.seeks? = some (b, s))
      (ongoing : ∃ a ∈ pool, a.ticket? = some k)

/-- The bindings in use are open and have members, and the list of them is that of the books. -/
structure BindingsOpen (e : Engine) : Prop where
  inUse : ∀ l ∈ e.listed, ∃ y, e.bindings[l.2]? = some y ∧ y.phase = .opened ∧ y.members ≠ []

theorem bindingsOpen_bound (settled : BindingsOpen before) (l : SourceKey × BindingId)
    (listed : l ∈ before.listed) :
    l.2 < before.bindings.length := by
  obtain ⟨y, here, -⟩ := settled.inUse l listed
  exact (List.getElem?_eq_some_iff.mp here).1

theorem unlist_fresh (settled : BindingsOpen before) (fresh : before.bindings.length ≤ b)
    (key : SourceKey) :
    (before.listed ++ [(key, b)]).filter (·.2 != b) = before.listed := by
  have kept : before.listed.filter (·.2 != b) = before.listed := by
    refine List.filter_eq_self.mpr fun l listed => ?_
    have bound := bindingsOpen_bound settled l listed
    simpa using Nat.ne_of_lt (Nat.lt_of_lt_of_le bound fresh)
  simp [kept]

/-! ## One step -/

theorem solo_over (listed : e.listed = before.listed) (none : ∀ a ∈ pool, a.ticket? ≠ some k) :
    Solo k before e pool :=
  .unchanged listed fun a member whose => absurd whose (none a member)

theorem solo_apart (apart : Apart e e') (same : ∀ a, a.ticket? = some k → (a ∈ pool' ↔ a ∈ pool))
    (solo : Solo k before e pool) : Solo k before e' pool' := by
  cases solo with
  | unchanged listed enters =>
    exact .unchanged (apart.listed.trans listed) fun a member whose =>
      enters a ((same a whose).mp member) whose
  | founding b key y listed fresh here opening only ongoing =>
    obtain ⟨a, member, whose⟩ := ongoing
    exact .founding b key y (apart.listed.trans listed) fresh (apart.bindings ▸ here) opening
      (fun a member whose => only a ((same a whose).mp member) whose)
      ⟨a, (same a whose).mpr member, whose⟩

theorem solo_subscribe {peer : ConnectionId} {clientId : String} {r : Request}
    (settled : BindingsOpen before) (alone : ∀ y ∈ rest, y.ticket? ≠ some k)
    (intact : Intact before e)
    (solo : Solo k before e (.subscribe k peer clientId r :: rest)) :
    let f := e.perform (.subscribe k peer clientId r)
    Intact before f.engine ∧ Solo k before f.engine (f.sequel ++ rest) := by
  cases solo with
  | founding b key y listed fresh here opening only ongoing =>
    obtain ⟨s, seeks⟩ := only _ (List.mem_cons_self ..) rfl
    simp [Action.seeks?] at seeks
  | unchanged listed enters =>
    simp only [perform]
    cases prepared : e.prepare peer clientId r with
    | error fault =>
      exact ⟨intact_apart intact ⟨rfl, rfl, rfl, rfl, fun _ => rfl⟩, solo_over listed alone⟩
    | ok found =>
      obtain ⟨s, key, e'⟩ := found
      obtain ⟨compiled, -, -, -, -, made⟩ := prepare_ok e prepared
      have apart : Apart e e' := by
        rw [made]
        exact ⟨rfl, rfl, rfl, rfl, fun _ => rfl⟩
      have intact' := intact_apart intact apart
      rcases seek_cases e' k s key with ⟨b, found, eq⟩ | ⟨absent, eq⟩
      · simp only [eq]
        refine ⟨intact', .unchanged (apart.listed.trans listed)
            fun y member whose b' s' seeks => ?_⟩
        rcases List.mem_cons.mp member with rfl | old
        · obtain ⟨rfl, -⟩ : b = b' ∧ s = s' := by simpa [Action.seeks?] using seeks
          have member : (key, b) ∈ before.listed := by
            rw [← listed, ← apart.listed]
            exact (bindingFor_listed e' found).2
          exact ⟨bindingsOpen_bound settled _ member, settled.inUse _ member⟩
        · exact absurd whose (alone y old)
      · simp only [eq]
        refine ⟨intact_more intact' rfl rfl fun _ => rfl, .founding e'.bindings.length
            key { key := key }
          ?_ intact'.more (by simp) rfl (fun y member whose => ?_) ⟨_, List.mem_cons_self .., rfl⟩⟩
        · simp [apart.listed, listed]
        · rcases List.mem_cons.mp member with rfl | old
          · exact ⟨s, rfl⟩
          · exact absurd whose (alone y old)

/-- The call comes to a binding that was in use before, or to the one that it has made. -/
theorem solo_join (sound : e.books.Sound (duties (.join k b s :: rest)))
    (alone : ∀ y ∈ rest, y.ticket? ≠ some k) (intact : Intact before e)
    (solo : Solo k before e (.join k b s :: rest)) :
    let f := e.perform (.join k b s)
    Granted k f.engine ∨ Intact before f.engine ∧ Solo k before f.engine (f.sequel ++ rest) := by
  obtain ⟨x, found, phase⟩ := seeker_pending sound rfl
  simp only [perform]
  cases solo with
  | unchanged listed enters =>
    obtain ⟨bound, y, there, opened, peopled⟩ := enters _ (List.mem_cons_self ..) rfl b s rfl
    have here : e.bindings[b]? = some y := (intact.bindings b bound).trans there
    rcases joinBinding_cases k s here with ⟨closed, -⟩ | ⟨-, -, eq⟩ | ⟨-, -, eq⟩ | ⟨opening, -⟩
    · simp [opened] at closed
    · rw [eq]
      rcases enter_cases k b [] found with ⟨-, admitted⟩ | ⟨-, refused⟩
      · rw [admitted]
        exact .inl ⟨s, List.mem_append_right _ (List.mem_singleton.mpr rfl)⟩
      · right
        rw [refused]
        have apart := refusal_apart sound found phase here peopled
        exact ⟨intact_apart intact ⟨apart.bindings, apart.listed, apart.registered,
          apart.subscriptions, apart.owned⟩, solo_over (apart.listed.trans listed) alone⟩
    · rw [eq]
      exact .inr ⟨intact_apart intact ⟨rfl, rfl, rfl, rfl, fun _ => rfl⟩, solo_over listed alone⟩
    · simp [opened] at opening
  | founding b' key y listed fresh here opening only ongoing =>
    obtain ⟨s', seeks⟩ := only _ (List.mem_cons_self ..) rfl
    obtain ⟨rfl, -⟩ : b = b' ∧ s = s' := by simpa [Action.seeks?] using seeks
    rcases joinBinding_cases k s here with ⟨closed, -⟩ | ⟨opened, -, -⟩ | ⟨opened, -, -⟩ | ⟨-, eq⟩
    · simp [opening] at closed
    · simp [opening] at opened
    · simp [opening] at opened
    · right
      rw [eq]
      refine ⟨intact_modified intact fresh rfl rfl fun _ => rfl, .founding b key y.lock
          listed fresh ?_
        opening (fun z member whose => ?_) ⟨_, List.mem_cons_self .., rfl⟩⟩
      · simp [updateBinding, here]
      · rcases List.mem_cons.mp member with rfl | old
        · exact ⟨s, rfl⟩
        · exact absurd whose (alone z old)

theorem solo_openSource {due : Nat} (settled : BindingsOpen before)
    (sound : e.books.Sound (duties (.openSource k b s due :: rest)))
    (alone : ∀ y ∈ rest, y.ticket? ≠ some k) (intact : Intact before e)
    (solo : Solo k before e (.openSource k b s due :: rest)) :
    let f := e.perform (.openSource k b s due)
    Granted k f.engine ∨ Intact before f.engine ∧ Solo k before f.engine (f.sequel ++ rest) := by
  obtain ⟨x, found, phase⟩ := seeker_pending sound rfl
  simp only [perform]
  cases solo with
  | unchanged listed enters =>
    obtain ⟨bound, y, there, opened, -⟩ := enters _ (List.mem_cons_self ..) rfl b s rfl
    have here : e.bindings[b]? = some y := (intact.bindings b bound).trans there
    have opening : y.phase = .opening := opener_phase sound rfl here
    simp [opened] at opening
  | founding b' key y listed fresh here opening only ongoing =>
    obtain ⟨s', seeks⟩ := only _ (List.mem_cons_self ..) rfl
    obtain ⟨rfl, -⟩ : b = b' ∧ s = s' := by simpa [Action.seeks?] using seeks
    have shut {e' : Engine} (registered : e'.registered = e.registered)
        (modified : e'.bindings = e.bindings.modify b Binding.shut)
        (owned : ∀ c, e'.owned c = e.owned c) (unlisted : e'.listed = e.listed.filter (·.2 != b)) :
        Intact before e' ∧ Solo k before e' rest := by
      refine ⟨intact_modified intact fresh registered modified owned, solo_over ?_ alone⟩
      rw [unlisted, listed, unlist_fresh settled fresh]
    rcases openBinding_cases k s here with ⟨fault, hub, -, eq⟩ |
      ⟨c, hub, -, -, eq⟩ | ⟨c, hub, -, -, eq⟩
    · rw [eq]
      exact .inr (shut rfl rfl (fun _ => rfl) rfl)
    · rw [eq]
      let source : Engine := ({ e with hub := hub } : Engine).updateBinding b Binding.opened
      rcases enter_cases (e := source) (x := x) k b [[.consume b c .news]] found with
        ⟨-, admitted⟩ | ⟨-, refused⟩
      · rw [admitted]
        exact .inl ⟨s, List.mem_append_right _ (List.mem_singleton.mpr rfl)⟩
      · right
        rw [refused]
        have there : source.bindings[b]? = some y.opened := by simp [source, updateBinding, here]
        have idle := opened_idle (s := s) (opening_empty sound here opening)
        have outsider : s ∉ e.registered :=
          unregistered_of_pending sound found phase
        have listed' : (source.refusal b s x).listed = before.listed := by
          rw [refusal_listed there, if_pos idle]
          exact (congrArg (List.filter (·.2 != b)) listed).trans (unlist_fresh settled fresh key)
        have modified : (source.refusal b s x).bindings =
            e.bindings.modify b ((fun y => (y.gain s).without s) ∘ Binding.opened) :=
          (refusal_bindings source b s x).trans (List.modify_modify_eq ..)
        refine ⟨intact_modified intact fresh (refusal_registered source b x outsider) modified
          (refusal_owned source b s x), solo_over listed' fun y member => ?_⟩
        rcases List.mem_append.mp member with new | old
        · obtain rfl : y = .consume b c .news := by simpa [Effect.sequel] using new
          simp [Action.ticket?]
        · exact alone y old
    · rw [eq]
      exact .inr (shut rfl rfl (fun _ => rfl) rfl)

/-! ## Every step -/

def Undisturbed (k : CallId) (log : Steps) : Prop :=
  ∀ p ∈ log, p.2.ticket? = some k ∨ p.2.administers = false

theorem solo_upheld (k : CallId) (settled : BindingsOpen before) :
    Upheld (fun e ts log => Regular e ts log ∧ Asking k e ts.flatten) fun e ts log =>
      Undisturbed k log → Granted k e ∨ Intact before e ∧ Solo k before e ts.flatten := by
  refine upheld_pending (P := fun e pool log => Undisturbed k log →
    Granted k e ∨ Intact before e ∧ Solo k before e pool) ?_ ?_ ?_
  · intro e p q log perm solo undisturbed
    refine (solo undisturbed).imp_right fun ⟨intact, solo⟩ => ⟨intact, ?_⟩
    exact solo_apart (apart_refl e) (fun a _ => perm.mem_iff.symm) solo
  · intro e ts log i known solo undisturbed
    have apart := input_apart e i
    refine (solo undisturbed).imp (fun granted => ?_) fun ⟨intact, solo⟩ =>
      ⟨intact_apart intact apart, solo_apart apart (fun a whose => ?_) solo⟩
    · rw [Granted, input_replies]
      exact granted
    · rw [List.mem_append, or_iff_right fun new => task_whose known.2.made new whose]
  · rintro e a rest ts log - pending ⟨⟨⟨accounted, honored⟩, -⟩, asking⟩ solo undisturbed
    have sound := accounted.sound pending
    rw [pending] at asking honored
    have serves := perform_serves sound fun call r same =>
      honored.plain call r (same ▸ List.mem_cons_self ..)
    have earlier : Undisturbed k log := fun p member =>
        undisturbed p (List.mem_append_left _ member)
    rcases solo earlier with ⟨s, told⟩ | ⟨intact, solo⟩
    · exact .inl ⟨s, told_lasts serves.answered told⟩
    by_cases whose : a.ticket? = some k
    · have alone (y : Action) (member : y ∈ rest) : y.ticket? ≠ some k := fun again => by
        have once := (List.nodup_append.mp honored.once).2.1
        rw [tickets_cons, whose] at once
        exact (List.nodup_cons.mp once).1 (mem_tickets member again)
      have asks := asking.asks a (List.mem_cons_self ..) whose
      cases a with
      | subscribe call peer clientId r =>
        obtain rfl : call = k := by simpa [Action.ticket?] using whose
        exact .inr (solo_subscribe settled alone intact solo)
      | join call b s =>
        obtain rfl : call = k := by simpa [Action.ticket?] using whose
        exact solo_join sound alone intact solo
      | openSource call b s due =>
        obtain rfl : call = k := by simpa [Action.ticket?] using whose
        exact solo_openSource settled sound alone intact solo
      | _ => simp [Action.asks] at asks
    · have idle : a.administers = false :=
        (undisturbed (e, a) (List.mem_append_right _ (List.mem_singleton.mpr rfl))).resolve_left
          whose
      have apart := perform_apart e a idle
      refine .inr ⟨intact_apart intact apart, solo_apart apart (fun y ours => ?_) solo⟩
      have old : y ∉ (e.perform a).sequel := fun new =>
          whose (sequel_whose serves.answered new ours)
      have differ : y ≠ a := fun same => whose (same ▸ ours)
      change y ∈ (e.perform a).sequel ++ rest ↔ _
      simp [old, differ]

end Engine

end SubscriptionGateway
