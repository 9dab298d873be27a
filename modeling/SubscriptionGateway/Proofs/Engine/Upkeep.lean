import SubscriptionGateway.Proofs.Engine.Sound

/-!
The registered subscriptions, the members of the listed bindings and what the connections own say
the same whenever nothing is being done for a caller. The actions pending have the duties that
keep the books sound, an action is an exchange of duties, and a play is a run of exchanges.
-/
namespace SubscriptionGateway

open Broker Function

namespace Engine

/-! ## Duties of actions -/

namespace Action

def seeks? : Action → Option (BindingId × SubscriptionId)
  | .join _ b s => some (b, s)
  | .openSource _ b s _ => some (b, s)
  | _ => none

def opens? : Action → Option BindingId
  | .openSource _ b _ _ => some b
  | _ => none

def leaves? : Action → Option (BindingId × SubscriptionId)
  | .leave b s => some (b, s)
  | _ => none

def terminates? : Action → Option SubscriptionId
  | .terminate s _ => some s
  | _ => none

def unsubscribes? : Action → Option SubscriptionId
  | .unsubscribe s => some s
  | _ => none

def writes : Action → Bool
  | .subscribe .. | .join .. | .openSource .. | .unsubscribe _ | .terminate .. | .leave .. => true
  | .failBinding _ | .release _ | .sweep _ => true
  | _ => false

end Action

def duties (pool : List Action) : Duties where
  seeking := pool.filterMap Action.seeks?
  opening := pool.filterMap Action.opens?
  leaving := pool.filterMap Action.leaves?
  terminating := pool.filterMap Action.terminates?
  unsubscribing := pool.filterMap Action.unsubscribes?

theorem sound_shuffle {k : Books} {p q : List Action} (perm : p.Perm q)
    (sound : k.Sound (duties p)) : k.Sound (duties q) where
  registered_nodup := sound.registered_nodup
  active_iff := sound.active_iff
  owned_nodup := sound.owned_nodup
  owned_iff := sound.owned_iff
  listed_nodup := sound.listed_nodup
  listed_iff := sound.listed_iff
  members_nodup := sound.members_nodup
  members_opened := sound.members_opened
  member b s member := by
    have same := (perm.filterMap Action.leaves?).mem_iff (a := (b, s))
    exact (propext same) ▸ sound.member b s member
  joined s active := by
    have same := (perm.filterMap Action.terminates?).mem_iff (a := s)
    exact (propext same) ▸ sound.joined s active
  seeking_nodup := ((perm.filterMap Action.seeks?).map _).nodup_iff.mp sound.seeking_nodup
  seeking b s member := sound.seeking b s ((perm.filterMap Action.seeks?).mem_iff.mpr member)
  opening_nodup := (perm.filterMap Action.opens?).nodup_iff.mp sound.opening_nodup
  opening b member := sound.opening b ((perm.filterMap Action.opens?).mem_iff.mpr member)
  leaving b s member := sound.leaving b s ((perm.filterMap Action.leaves?).mem_iff.mpr member)
  released c gone := by
    refine ⟨(sound.released c gone).1, fun s owned => ?_⟩
    exact (perm.filterMap Action.unsubscribes?).mem_iff.mp ((sound.released c gone).2 s owned)
  known := sound.known

/-! ## What comes after what -/

def standing : Option Phase → Nat
  | none => 0
  | some .pending => 1
  | some .active => 2
  | some .cancelled => 3

structure Follows (k k' : Books) : Prop where
  phase : ∀ s, standing (k.phase s) ≤ standing (k'.phase s)
  connection : ∀ s c, k.connection s = some c → k'.connection s = some c
  made : k.made ≤ k'.made
  managed : ∀ c ∈ k'.managed, c ∈ k.managed ∨ k.made ≤ c

theorem follows_refl (k : Books) : Follows k k where
  phase _ := Nat.le_refl _
  connection _ _ owner := owner
  made := Nat.le_refl _
  managed _ member := .inl member

theorem follows_trans {k k' k'' : Books} (first : Follows k k') (second : Follows k' k'') :
    Follows k k'' where
  phase s := Nat.le_trans (first.phase s) (second.phase s)
  connection s c owner := second.connection s c (first.connection s c owner)
  made := Nat.le_trans first.made second.made
  managed c member := by
    have := first.made
    have := second.managed c member
    have := first.managed c
    grind

theorem follows_same {k k' : Books} (phase : k'.phase = k.phase)
    (rest : k'.connection = k.connection ∧ k'.managed = k.managed ∧ k'.made = k.made) :
    Follows k k' where
  phase s := Nat.le_of_eq (by rw [phase])
  connection s c owner := by rw [rest.1, owner]
  made := Nat.le_of_eq rest.2.2.symm
  managed c member := .inl (rest.2.1 ▸ member)

theorem follows_moved {k k' : Books} {s : SubscriptionId} {p : Option Phase}
    (before : standing (k.phase s) ≤ standing p) (after : k'.phase = update k.phase s p)
    (rest : k'.connection = k.connection ∧ k'.managed = k.managed ∧ k'.made = k.made) :
    Follows k k' where
  phase a := by
    rw [after, update_apply]
    split
    · rename_i same
      exact same ▸ before
    · exact Nat.le_refl _
  connection a c owner := by rw [rest.1, owner]
  made := Nat.le_of_eq rest.2.2.symm
  managed c member := .inl (rest.2.1 ▸ member)

/-- The books go on as they should and the pending actions have the duties. -/
def Keeps (k k' : Books) (pool : List Action) : Prop :=
  k'.Sound (duties pool) ∧ Follows k k'

/-! ## Subscribing -/

theorem seek_keeps {e : Engine} (call : CallId) {s : SubscriptionId} (key : SourceKey)
    {rest : List Action} (sound : e.books.Sound (duties rest))
    (pending : e.books.phase s = some .pending) (source : e.books.key s = some key)
    (once : s ∉ (duties rest).seeking.map Prod.snd) :
    Keeps e.books (e.seek call s key).engine.books
      ((e.seek call s key).next ++ (e.seek call s key).started.flatten ++ rest) := by
  cases found : e.bindingFor? key with
  | some b =>
    obtain ⟨same, listed⟩ := bindingFor_listed e found
    have here := ((sound.listed_iff key b).mp listed).1
    simp only [seek, same]
    exact ⟨sound.seek pending once (here.trans source.symm), follows_refl _⟩
  | none =>
    obtain ⟨new, books, fresh, absent⟩ := bindingFor_fresh e found
    have made := sound.addDesk fresh absent
    simp only [seek, new, books]
    refine ⟨made.seek pending once ?_, follows_same rfl ⟨rfl, rfl, rfl⟩⟩
    simpa [Books.addDesk] using source.symm

theorem subscribe_keeps {e : Engine} {call : CallId} {c : ConnectionId} {clientId : String}
    {r : Request} {rest : List Action}
    (sound : e.books.Sound (duties (.subscribe call c clientId r :: rest))) :
    let f := e.perform (.subscribe call c clientId r)
    Keeps e.books f.engine.books (f.next ++ f.started.flatten ++ rest) := by
  have unchanged : Keeps e.books e.books rest := ⟨sound, follows_refl _⟩
  simp only [perform]
  cases prepared : e.prepare c clientId r with
  | error f => exact unchanged
  | ok found =>
    obtain ⟨s, key, e'⟩ := found
    obtain ⟨compiled, rfl, rfl, -, -, made⟩ := prepare_ok e prepared
    have fresh : e.books.phase e.subscribers.length = none := by simp [books]
    have books := books_addSubscriber e
      { clientId := clientId, connection := c, compiled := compiled } rfl
    rw [← made] at books
    have entered := sound.addEntry (c := c) compiled.sourceKey fresh
    have once : e.subscribers.length ∉ (duties rest).seeking.map Prod.snd := fun seeking => by
      obtain ⟨⟨b, s⟩, member, rfl⟩ := List.mem_map.mp seeking
      simp [(sound.seeking b _ member).1] at fresh
    obtain ⟨done, follows⟩ := seek_keeps call compiled.sourceKey
      (books ▸ entered) (by simp [books, Books.addEntry]) (by simp [books, Books.addEntry]) once
    refine ⟨done, follows_trans ?_ follows⟩
    rw [books]
    refine ⟨fun a => ?_, fun a owner known => ?_, Nat.le_refl _, fun a member => .inl member⟩
    · simp only [Books.addEntry, update_apply]
      split
      · rename_i same
        simp [same, fresh, standing]
      · exact Nat.le_refl _
    · simp only [Books.addEntry, update_apply]
      split
      · rename_i same
        simp [same, Engine.books] at known
      · exact known

theorem enter_keeps {e : Engine} (call : CallId) {b : BindingId} {s : SubscriptionId}
    {d : Duties} (sound : e.books.Sound { d with seeking := (b, s) :: d.seeking })
    (stage : e.books.stage b = some .opened) (started : List (List Action)) :
    (e.enter call b s started).engine.books.Sound d ∧
      Follows e.books (e.enter call b s started).engine.books ∧
      (e.enter call b s started).next = [] ∧
      ((e.enter call b s started).started = started ∨
        (e.enter call b s started).started = started ++ [[.deliverNext s]]) := by
  obtain ⟨-, -, pending, -⟩ := sound.quit
  obtain ⟨x, found, phase⟩ := subscriber_of_phase e pending
  obtain ⟨y, here⟩ : ∃ y, e.bindings[b]? = some y := by
    cases read : e.bindings[b]? with
    | some y => exact ⟨y, rfl⟩
    | none => simp [books, read] at stage
  have owner : e.books.connection s = some x.connection := by simp [books, found]
  cases closed : e.books.closed x.connection with
  | false =>
    obtain ⟨ok, books⟩ := register_open e found here phase closed
    have after := sound.enroll stage owner closed
    rw [← books] at after
    have follows : Follows e.books (e.register b s).2.books := by
      rw [books]
      exact follows_moved (p := some .active) (by simp [pending, standing]) rfl ⟨rfl, rfl, rfl⟩
    simp only [enter]
    generalize e.register b s = r at *
    obtain ⟨answer, e'⟩ := r
    simp only at ok
    subst ok
    exact ⟨after, follows, rfl, .inr rfl⟩
  | true =>
    obtain ⟨failed, books⟩ := register_closed e found here phase closed
    have after := sound.enroll_undone
    rw [← books] at after
    have follows : Follows e.books (e.register b s).2.books := by
      rw [books]
      refine follows_moved (s := s) (p := some .cancelled) (by simp [pending, standing]) ?_ ?_
      · simp [Books.strike, Books.leave_phase, Books.enroll]
      · exact Books.leave_rest (e.books.enroll b s) b s
    simp only [enter]
    generalize e.register b s = r at *
    obtain ⟨answer, e'⟩ := r
    simp only at failed
    subst failed
    exact ⟨after, follows, rfl, .inl rfl⟩

section Seekers

variable {e : Engine} {a : Action} {rest : List Action} {b : BindingId} {s : SubscriptionId}

theorem seeker_pending (sound : e.books.Sound (duties (a :: rest)))
    (seeks : a.seeks? = some (b, s)) :
    ∃ x, e.subscribers[s]? = some x ∧ x.life.phase = .pending := by
  have member : (b, s) ∈ (duties (a :: rest)).seeking := by simp [duties, seeks]
  exact subscriber_of_phase e (sound.seeking b s member).1

theorem seeker_binding (sound : e.books.Sound (duties (a :: rest)))
    (seeks : a.seeks? = some (b, s)) :
    ∃ y, e.bindings[b]? = some y ∧ e.books.key s = some y.key ∧
      e.books.stage b = some y.phase := by
  have member : (b, s) ∈ (duties (a :: rest)).seeking := by simp [duties, seeks]
  obtain ⟨pending, source⟩ := sound.seeking b s member
  have known := sound.known s (by simp [pending])
  cases read : e.bindings[b]? with
  | none =>
    have absent : e.books.source b = none := by simp [books, read]
    exact absurd absent (source ▸ known)
  | some y => exact ⟨y, rfl, by simpa [books, read] using source.symm, by simp [books, read]⟩

theorem opener_phase {y : Binding} (sound : e.books.Sound (duties (a :: rest)))
    (opens : a.opens? = some b) (here : e.bindings[b]? = some y) : y.phase = .opening := by
  have member : b ∈ (duties (a :: rest)).opening := by simp [duties, opens]
  simpa [books, here] using (sound.opening b member).2

end Seekers

theorem join_keeps {e : Engine} {call : CallId} {b : BindingId} {s : SubscriptionId}
    {rest : List Action} (free : e.isLocked b = false)
    (sound : e.books.Sound (duties (.join call b s :: rest))) :
    let f := e.perform (.join call b s)
    Keeps e.books f.engine.books (f.next ++ f.started.flatten ++ rest) := by
  obtain ⟨y, here, source, stage⟩ := seeker_binding sound rfl
  obtain ⟨rested, once, pending, -⟩ := Books.Sound.quit (d := duties rest) sound
  simp only [perform, joinBinding, here]
  cases phase : y.phase with
  | closed =>
    have same : (e.unlist b).books = e.books :=
      (books_unlist e b).trans (rested.unlist_closed (.inr (phase ▸ stage)))
    rw [← same] at rested pending source ⊢
    exact seek_keeps call _ rested pending source once
  | opened =>
    simp only
    split
    · obtain ⟨after, follows, next, started⟩ :=
        enter_keeps call (d := duties rest) sound (phase ▸ stage) []
      refine ⟨?_, follows⟩
      rcases started with started | started
      · rw [next, started]
        exact after
      · rw [next, started]
        exact after
    · exact ⟨rested, follows_refl _⟩
  | opening =>
    simp only
    rw [books_lockBinding e here true]
    exact ⟨sound.lock free (phase ▸ stage), follows_same rfl ⟨rfl, rfl, rfl⟩⟩

theorem openSource_keeps {e : Engine} {call : CallId} {b : BindingId} {s : SubscriptionId}
    {due : Nat} {rest : List Action}
    (sound : e.books.Sound (duties (.openSource call b s due :: rest))) :
    let f := e.perform (.openSource call b s due)
    Keeps e.books f.engine.books (f.next ++ f.started.flatten ++ rest) := by
  let held : Duties := { duties rest with opening := b :: (duties rest).opening }
  obtain ⟨y, here, source, stage⟩ := seeker_binding sound rfl
  obtain ⟨rested, once, pending, -⟩ := Books.Sound.quit (d := held) sound
  have shut (hub : Hub) : ((({ e with hub := hub } : Engine).closeBinding b).unlist b).books =
      e.books.shut b := books_shut ({ e with hub := hub } : Engine) here
  simp only [perform, openBinding, here]
  have refused (hub : Hub) : Keeps e.books
      ((({ e with hub := hub } : Engine).closeBinding b).unlist b).books rest := by
    rw [shut]
    exact ⟨rested.giveUp, follows_same rfl ⟨rfl, rfl, rfl⟩⟩
  split
  · exact refused e.hub
  split
  · rename_i hub _
    exact refused hub
  rename_i c hub _
  split
  · let e' : Engine := { e with hub := hub }
    have books := books_setStage e' here .opened
    have opened := Books.Sound.opened (b := b)
      (d := { duties rest with seeking := (b, s) :: (duties rest).seeking }) sound
    have follows : Follows e.books
        (e'.updateBinding b fun y => { y with phase := .opened, locked := false }).books := by
      rw [books]
      exact follows_same rfl ⟨rfl, rfl, rfl⟩
    obtain ⟨after, more, next, started⟩ := enter_keeps call (d := duties rest)
      (by rw [books]; exact opened) (by simp [books]) [[.consume b c .news]]
    refine ⟨?_, follows_trans follows more⟩
    rcases started with started | started
    · rw [next, started]
      exact after
    · rw [next, started]
      exact after
  · exact refused hub

/-! ## Ending subscriptions -/

theorem isRegistered_iff (e : Engine) (s : SubscriptionId) :
    e.isRegistered s = true ↔ s ∈ e.books.registered := List.contains_iff_mem

theorem depart_keeps {e : Engine} {s : SubscriptionId} {d : Duties} {x : Subscriber}
    {f : Lifecycle → Bool × Lifecycle}
    (sound : e.books.Sound
      { d with terminating := s :: d.terminating, unsubscribing := s :: d.unsubscribing })
    (found : e.subscribers[s]? = some x) (registered : e.isRegistered s = true)
    (ends : ∀ l, (f l).2.phase = .cancelled) :
    ∃ b, x.binding? = some b ∧
      (((e.deregister s).endLife s f).detach x.connection s).books.Sound
        { d with leaving := (b, s) :: d.leaving } ∧
      Follows e.books (((e.deregister s).endLife s f).detach x.connection s).books := by
  have active := (sound.active_iff s).mp ((isRegistered_iff e s).mp registered)
  obtain ⟨b, place, -, -⟩ := sound.joined s active
  rw [books_detach, books_strike e found ends]
  refine ⟨b, by simpa [books, found] using place, ?_, ?_⟩
  · exact sound.depart active (by simp [books, found]) place
  · exact follows_moved (s := s) (p := some .cancelled) (by simp [active, standing]) rfl
      ⟨rfl, rfl, rfl⟩

theorem unregistered_excused {e : Engine} {s : SubscriptionId} {d : Duties}
    (sound : e.books.Sound
      { d with terminating := s :: d.terminating, unsubscribing := s :: d.unsubscribing })
    (absent : ¬ (e.isRegistered s = true ∧ ∃ x, e.subscribers[s]? = some x)) :
    e.books.Sound d := by
  refine sound.excuse fun active => absent ?_
  obtain ⟨x, found, -⟩ := subscriber_of_phase e active
  exact ⟨(isRegistered_iff e s).mpr ((sound.active_iff s).mpr active), x, found⟩

theorem unsubscribe_keeps {e : Engine} {s : SubscriptionId} {rest : List Action}
    (sound : e.books.Sound (duties (.unsubscribe s :: rest))) :
    let f := e.perform (.unsubscribe s)
    Keeps e.books f.engine.books (f.next ++ f.started.flatten ++ rest) := by
  have asked := sound.demand [s] []
  simp only [perform, unsubscribe]
  split
  · rename_i x registered found
    obtain ⟨b, place, after, follows⟩ :=
      depart_keeps (d := duties rest) (f := Lifecycle.cancel) asked found registered fun _ => rfl
    simp only [place]
    exact ⟨after, follows⟩
  · rename_i absent
    refine ⟨unregistered_excused (d := duties rest) asked ?_, follows_refl _⟩
    rintro ⟨registered, x, found⟩
    exact absent x registered found

theorem terminate_keeps {e : Engine} {s : SubscriptionId} {t : Termination} {rest : List Action}
    (sound : e.books.Sound (duties (.terminate s t :: rest))) :
    let f := e.perform (.terminate s t)
    Keeps e.books f.engine.books (f.next ++ f.started.flatten ++ rest) := by
  have asked := sound.demand [] [s]
  simp only [perform, terminate]
  split
  · rename_i x registered found
    obtain ⟨b, place, after, follows⟩ :=
      depart_keeps (d := duties rest) (f := Lifecycle.retire) asked found registered fun _ => rfl
    simp only [place]
    rw [books_updateSubscriber _ fun _ => by simp]
    exact ⟨after, follows⟩
  · rename_i absent
    refine ⟨unregistered_excused (d := duties rest) asked ?_, follows_refl _⟩
    rintro ⟨registered, x, found⟩
    exact absent x registered found

theorem leave_keeps {e : Engine} {b : BindingId} {s : SubscriptionId} {rest : List Action}
    (sound : e.books.Sound (duties (.leave b s :: rest))) :
    let f := e.perform (.leave b s)
    Keeps e.books f.engine.books (f.next ++ f.started.flatten ++ rest) := by
  simp only [perform]
  rw [books_leave]
  exact ⟨Books.Sound.leave (d := duties rest) sound,
    follows_same (Books.leave_phase ..) (Books.leave_rest ..)⟩

theorem books_stopFeeding (e : Engine) (ss : List SubscriptionId) :
    (e.stopFeeding ss).books = e.books := by
  simp only [stopFeeding]
  induction ss generalizing e with
  | nil => rfl
  | cons s ss ih =>
    simp only [List.foldl_cons]
    rw [ih, books_updateSubscriber _ fun _ => by simp]

theorem empty_keeps {e : Engine} {b : BindingId} {d : Duties} (sound : e.books.Sound d)
    (free : e.isLocked b = false) :
    ((e.empty b).2.unlist b).books.Sound
        { d with terminating := (e.empty b).1 ++ d.terminating } ∧
      Follows e.books ((e.empty b).2.unlist b).books := by
  cases read : e.bindings[b]? with
  | some y =>
    obtain ⟨members, books⟩ := books_empty e read
    rw [members, books]
    exact ⟨sound.empty free, follows_same rfl ⟨rfl, rfl, rfl⟩⟩
  | none =>
    have same : e.books.unlist b = e.books := sound.unlist_closed (.inl (by simp [books, read]))
    have nothing : e.empty b = ([], e) := by simp [empty, read]
    rw [nothing, books_unlist, same]
    exact ⟨sound, follows_refl _⟩

theorem duties_failing (ss : List SubscriptionId) (t : Termination) (rest : List Action) :
    duties ((ss.flatMap fun s => [.terminate s t, .releaseInbox s]) ++ [] ++ rest) =
      { duties rest with terminating := ss ++ (duties rest).terminating } := by
  induction ss with
  | nil => rfl
  | cons s ss ih => exact congrArg (fun d => { d with terminating := s :: d.terminating }) ih

theorem duties_terminating (ss : List SubscriptionId) (t : Termination) (rest : List Action) :
    duties ((ss.map fun s => .terminate s t) ++ [] ++ rest) =
      { duties rest with terminating := ss ++ (duties rest).terminating } := by
  induction ss with
  | nil => rfl
  | cons s ss ih => exact congrArg (fun d => { d with terminating := s :: d.terminating }) ih

theorem failBinding_keeps {e : Engine} {b : BindingId} {rest : List Action}
    (free : e.isLocked b = false) (sound : e.books.Sound (duties (.failBinding b :: rest))) :
    let f := e.perform (.failBinding b)
    Keeps e.books f.engine.books (f.next ++ f.started.flatten ++ rest) := by
  obtain ⟨after, follows⟩ := empty_keeps (d := duties rest) sound free
  rw [← duties_failing _ (some sourceFailed)] at after
  exact ⟨after, follows⟩

theorem sweep_keeps {e : Engine} {b : BindingId} {rest : List Action}
    (free : e.isLocked b = false) (sound : e.books.Sound (duties (.sweep b :: rest))) :
    let f := e.perform (.sweep b)
    Keeps e.books f.engine.books (f.next ++ f.started.flatten ++ rest) := by
  obtain ⟨after, follows⟩ := empty_keeps (d := duties rest) sound free
  rw [← duties_terminating _ none] at after
  have same : ((((e.empty b).2.stopFeeding (e.empty b).1).cancelBinding b).unlist b).books =
      ((e.empty b).2.unlist b).books := by
    rw [books_unlist, books_cancelBinding, books_stopFeeding, books_unlist]
  rw [← same] at after follows
  exact ⟨after, follows⟩

/-! ## Releasing -/

theorem duties_releasing (os : List (SubscriptionId × String)) (rest : List Action) :
    duties ((os.map fun o => .unsubscribe o.1) ++ [.connectionReleased] ++ [] ++ rest) =
      { duties rest with unsubscribing := os.map (·.1) ++ (duties rest).unsubscribing } := by
  induction os with
  | nil => rfl
  | cons o os ih =>
    exact congrArg (fun d => { d with unsubscribing := o.1 :: d.unsubscribing }) ih

theorem release_keeps {e : Engine} {c : ConnectionId} {rest : List Action}
    (sound : e.books.Sound (duties (.release c :: rest))) :
    let f := e.perform (.release c)
    Keeps e.books f.engine.books (f.next ++ f.started.flatten ++ rest) := by
  simp only [perform, release]
  split
  · let e' : Engine := { e with managed := e.managed.filter (· != c) }
    have books := books_closeConnection e' c
    have owned : ((e'.closeConnection c).2.owned c).map (·.1) = e.books.owned c :=
      congrFun (congrArg Books.owned books) c
    have after := Books.Sound.release (d := duties rest) sound c
    rw [← owned, ← duties_releasing] at after
    refine ⟨?_, ?_⟩
    · rw [books]
      exact after
    · rw [books]
      refine ⟨fun s => Nat.le_refl _, fun s c owner => owner, Nat.le_refl _, fun a member => ?_⟩
      exact .inl (List.mem_filter.mp member).1
  · exact ⟨sound, follows_refl _⟩

/-! ## Everything else -/

/-- Nothing is written but that connections are closed, and nothing asked but ends. -/
structure Aside (e : Engine) (f : Effect) : Prop where
  books : ∃ cs : List ConnectionId, f.engine.books = cs.foldl Books.close e.books
  duties : ∀ rest, ∃ ts, Engine.duties (f.next ++ f.started.flatten ++ rest) =
    { Engine.duties rest with terminating := ts ++ (Engine.duties rest).terminating }

theorem aside_nothing {e : Engine} {f : Effect} (books : f.engine.books = e.books)
    (next : ∀ rest, Engine.duties (f.next ++ f.started.flatten ++ rest) = Engine.duties rest) :
    Aside e f := ⟨⟨[], books⟩, fun rest => ⟨[], next rest⟩⟩

theorem schedule_books (e : Engine) (event : BrokerEvent) (s : SubscriptionId) :
    ∃ cs : List ConnectionId, (e.schedule event s).2.books = cs.foldl Books.close e.books := by
  simp only [schedule]
  split
  · exact ⟨[], rfl⟩
  · rename_i x _
    split
    · exact ⟨[], rfl⟩
    · split
      · exact ⟨[x.connection], books_closeConnection ..⟩
      · exact ⟨[], books_updateSubscriber e fun _ => by simp⟩

theorem scheduleAll_books (event : BrokerEvent) (ss : List SubscriptionId) (e : Engine) :
    ∃ cs : List ConnectionId, (scheduleAll event ss e).2.books = cs.foldl Books.close e.books := by
  induction ss generalizing e with
  | nil => exact ⟨[], rfl⟩
  | cons s ss ih =>
    obtain ⟨first, one⟩ := schedule_books e event s
    obtain ⟨later, all⟩ := ih (e.schedule event s).2
    refine ⟨first ++ later, ?_⟩
    simp only [scheduleAll]
    rw [all, one, List.foldl_append]

theorem fanOut_books (e : Engine) (b : BindingId) (event : BrokerEvent) :
    ∃ cs : List ConnectionId, (e.fanOut b event).2.books = cs.foldl Books.close e.books := by
  simp only [fanOut]
  split
  · split
    · exact scheduleAll_books ..
    · exact ⟨[], rfl⟩
  · exact ⟨[], rfl⟩

theorem receipt_aside (e : Engine) (result : Except Fault Unit) (r : Receipt) :
    (e.receipt result r).engine.books = e.books ∧
      ∀ rest, Engine.duties
        ((e.receipt result r).next ++ (e.receipt result r).started.flatten ++ rest) =
        Engine.duties rest := by
  cases r with
  | ending s => exact ⟨rfl, fun _ => rfl⟩
  | event s => cases result <;> exact ⟨rfl, fun _ => rfl⟩
  | call call => cases result <;> exact ⟨rfl, fun _ => rfl⟩

theorem enqueue_aside (e : Engine) (c : ConnectionId) (f : Frame) (r : Receipt) :
    Aside e (e.enqueue c f r) := by
  have closes (result : Except Fault Unit) :
    Aside e ((e.closeConnection c).2.receipt result r) := by
    obtain ⟨books, next⟩ := receipt_aside (e.closeConnection c).2 result r
    exact ⟨⟨[c], books.trans (books_closeConnection e c)⟩, fun rest => ⟨[], next rest⟩⟩
  simp only [enqueue]
  split
  · obtain ⟨books, next⟩ := receipt_aside e (.error Trouble.closed) r
    exact aside_nothing books next
  split
  · exact closes _
  split
  · let e' := e.updateConnection c fun x => { x with queue := x.queue ++ [f] }
    have same : (if f.isMessage then e'.count .messageSent else e').books = e.books := by
      split <;> exact books_updateConnection e fun _ => by simp
    obtain ⟨books, next⟩ :=
      receipt_aside (if f.isMessage then e'.count .messageSent else e') (.ok ()) r
    exact aside_nothing (books.trans same) next
  · exact closes _

theorem consume_aside (e : Engine) (b : BindingId) (c : ConsumerId) (a : Hub.Awaiting) :
    Aside e (e.consumeNext b c a) := by
  simp only [consumeNext]
  split
  · exact aside_nothing rfl fun _ => rfl
  split
  · exact aside_nothing rfl fun _ => rfl
  split <;> exact aside_nothing rfl fun _ => rfl

theorem duties_last_frames (s : SubscriptionId) (x : Subscriber) (t : Termination)
    (rest : List Action) :
    duties ((lastFrames x.clientId t).map (fun f => .offer x.connection f (.ending s)) ++
      [.endDelivery s] ++ [] ++ rest) = duties rest := by
  cases t <;> rfl

theorem deliverNext_aside (e : Engine) (s : SubscriptionId) : Aside e (e.deliverNext s) := by
  have same (rest : List BrokerEvent) :
      (e.updateSubscriber s fun x => { x with inbox := rest }).books = e.books :=
    books_updateSubscriber e fun _ => by simp
  simp only [deliverNext]
  split
  · exact aside_nothing rfl fun _ => rfl
  rename_i x _
  split
  · exact aside_nothing rfl fun _ => rfl
  split
  · exact aside_nothing rfl (duties_last_frames s x _)
  split
  · split
    · exact aside_nothing (same _) fun _ => rfl
    · exact aside_nothing (same _) fun _ => rfl
  · split <;> exact aside_nothing rfl fun _ => rfl

theorem perform_aside (e : Engine) (a : Action) (reads : a.writes = false) :
    Aside e (e.perform a) := by
  cases a with
  | subscribe | join | openSource | unsubscribe | terminate | leave | failBinding | release
  | sweep => simp [Action.writes] at reads
  | releaseInbox s => exact aside_nothing (books_stopFeeding e [s]) fun _ => rfl
  | dispatch call event =>
    simp only [perform]
    split <;> exact aside_nothing rfl fun _ => rfl
  | fanOut call? b event =>
    simp only [perform]
    refine ⟨?_, fun _ => ⟨[], rfl⟩⟩
    cases call? <;> exact fanOut_books e b event
  | consume b c a => exact consume_aside e b c a
  | closeConsumer c => exact aside_nothing rfl fun _ => rfl
  | deliverNext s => exact deliverNext_aside e s
  | resolve s event => exact aside_nothing rfl fun _ => rfl
  | runResolver r =>
    simp only [perform, runResolver]
    split
    · exact aside_nothing rfl fun _ => rfl
    split <;> exact aside_nothing rfl fun _ => rfl
  | endResolver r w due => exact aside_nothing rfl fun _ => rfl
  | deliverOutcome s r =>
    simp only [perform, deliverOutcome]
    split
    · split <;> exact aside_nothing rfl fun _ => rfl
    · exact aside_nothing rfl fun _ => rfl
  | offer c f r =>
    simp only [perform, offer]
    split
    · obtain ⟨books, next⟩ := receipt_aside e (.error Trouble.closed) r
      exact aside_nothing books next
    · exact aside_nothing rfl fun _ => rfl
  | enqueue c f due r => exact enqueue_aside e c f r
  | endDelivery s =>
    refine aside_nothing ?_ fun _ => rfl
    simp only [perform, endDelivery]
    split
    · rfl
    · exact books_updateSubscriber e fun _ => by simp
  | connectionReleased => exact aside_nothing rfl fun _ => rfl
  | releaseAll =>
    refine aside_nothing rfl fun rest => ?_
    simp only [perform]
    induction e.managed with
    | nil => rfl
    | cons c cs ih => exact ih
  | shutdown drainMs => exact aside_nothing rfl fun _ => rfl
  | awaitDrain deadline due =>
    simp only [perform]
    split <;> exact aside_nothing rfl fun _ => rfl
  | terminateAll => exact ⟨⟨[], rfl⟩, fun rest => ⟨e.registered, duties_terminating ..⟩⟩
  | sweepAll =>
    refine aside_nothing rfl fun rest => ?_
    simp only [perform]
    induction e.listed with
    | nil => rfl
    | cons l ls ih => exact ih
  | awaitDeliveries => exact aside_nothing rfl fun _ => rfl
  | pollDeliveries deadline due =>
    simp only [perform]
    split <;> exact aside_nothing rfl fun _ => rfl
  | answer call r => exact aside_nothing rfl fun _ => rfl

theorem aside_keeps {e : Engine} {f : Effect} {rest : List Action} (aside : Aside e f)
    (sound : e.books.Sound (duties rest)) :
    Keeps e.books f.engine.books (f.next ++ f.started.flatten ++ rest) := by
  obtain ⟨cs, books⟩ := aside.books
  obtain ⟨ts, asked⟩ := aside.duties rest
  have closed (k : Books) (d : Duties) (sound : k.Sound d) :
      (cs.foldl Books.close k).Sound d ∧ Follows k (cs.foldl Books.close k) := by
    clear books
    induction cs generalizing k with
    | nil => exact ⟨sound, follows_refl _⟩
    | cons c cs ih =>
      obtain ⟨after, follows⟩ := ih (k.close c) (sound.close c)
      have closes : Follows k (k.close c) := follows_same rfl ⟨rfl, rfl, rfl⟩
      exact ⟨after, follows_trans closes follows⟩
  rw [Keeps, books, asked]
  exact closed _ _ (sound.demand ts [])

theorem perform_keeps {e : Engine} {a : Action} {rest : List Action} (ready : e.ready a = true)
    (sound : e.books.Sound (duties (a :: rest))) :
    Keeps e.books (e.perform a).engine.books
      ((e.perform a).next ++ (e.perform a).started.flatten ++ rest) := by
  cases a with
  | subscribe => exact subscribe_keeps sound
  | join => exact join_keeps (by simpa [Engine.ready] using ready) sound
  | openSource => exact openSource_keeps sound
  | unsubscribe => exact unsubscribe_keeps sound
  | terminate => exact terminate_keeps sound
  | leave => exact leave_keeps sound
  | failBinding => exact failBinding_keeps (by simpa [Engine.ready] using ready) sound
  | release => exact release_keeps sound
  | sweep => exact sweep_keeps (by simpa [Engine.ready] using ready) sound
  | _ => exact aside_keeps (perform_aside e _ rfl) sound

/-! ## Plays -/

theorem task_duties (k : Call) (call : CallId) (pool : List Action) :
    ∃ us, duties (k.task call ++ pool) =
      { duties pool with unsubscribing := us ++ (duties pool).unsubscribing } := by
  cases k with
  | unsubscribe s => exact ⟨[s], rfl⟩
  | subscribe | release | dispatch | deliver | shutdown | shutdownAll => exact ⟨[], rfl⟩

theorem input_books (e : Engine) (i : Input) :
    (i.apply e).books = e.books ∨ (∃ c, (i.apply e).books = e.books.close c) ∨
      (i.apply e).books = e.books.addHolder e.books.made := by
  cases i with
  | call k => exact .inl rfl
  | connect t => exact .inr (.inr (books_openConnection e t))
  | close c => exact .inr (.inl ⟨c, books_closeConnection e c⟩)
  | cancel c =>
    left
    exact books_updateConnection e fun _ => by simp
  | take c most =>
    left
    simp only [Input.apply, takeFrames]
    split
    · exact books_updateConnection e fun _ => by simp
    · rfl
  | stopReading c =>
    left
    exact books_updateConnection e fun _ => by simp
  | brokers hub => exact .inl rfl
  | pass ms => exact .inl rfl

theorem input_keeps {e : Engine} {pool : List Action} (i : Input)
    (sound : e.books.Sound (duties pool)) :
    Keeps e.books (i.apply e).books (pool ++ i.task e) := by
  have asked : e.books.Sound (duties (pool ++ i.task e)) := by
    refine sound_shuffle List.perm_append_comm ?_
    cases i with
    | call k =>
      obtain ⟨us, asked⟩ := task_duties k e.calls pool
      rw [Input.task, asked]
      exact sound.demand [] us
    | connect | close | cancel | take | stopReading | brokers | pass => exact sound
  rcases input_books e i with books | ⟨c, books⟩ | books
  · rw [books]
    exact ⟨asked, follows_refl _⟩
  · rw [books]
    exact ⟨asked.close c, follows_same rfl ⟨rfl, rfl, rfl⟩⟩
  · rw [books]
    refine ⟨asked.addHolder _, fun _ => Nat.le_refl _, fun _ _ owner => owner,
      Nat.le_succ _, fun c member => ?_⟩
    rcases List.mem_append.mp member with old | new
    · exact .inl old
    · exact .inr (Nat.le_of_eq (List.mem_singleton.mp new).symm)

theorem start_sound (setup : Setup) (hub : Hub) :
    (Engine.start setup hub).books.Sound (duties []) := by
  constructor <;> simp [Engine.start, books, duties, isLocked, isClosed, owned]

namespace World

/-- Whatever is asked and in whichever order it goes on, the books stay sound. -/
theorem play_sound {w : World} (moves : List Move)
    (sound : w.state.books.Sound (duties w.pending)) :
    (w.play moves).state.books.Sound (duties (w.play moves).pending) ∧
      Follows w.state.books (w.play moves).state.books := by
  refine play_keeps (fun e pool => Keeps w.state.books e.books pool)
    ?_ ?_ ?_ moves ⟨sound, follows_refl _⟩
  · intro e p q perm before
    exact ⟨sound_shuffle perm before.1, before.2⟩
  · intro e pool i before
    obtain ⟨after, follows⟩ := input_keeps i before.1
    exact ⟨after, follows_trans before.2 follows⟩
  · intro e a rest ready before
    obtain ⟨after, follows⟩ := perform_keeps ready before.1
    exact ⟨after, follows_trans before.2 follows⟩

end World

end Engine

end SubscriptionGateway
