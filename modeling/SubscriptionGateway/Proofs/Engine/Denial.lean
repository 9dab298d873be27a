import SubscriptionGateway.Proofs.Engine.Alone
import SubscriptionGateway.Proofs.Engine.Shutdown

/-!
A call that is denied a subscription leaves nothing behind, whatever else goes on meanwhile. What a
call has done is read off its steps: the subscription it has asked for, the bindings it has made and
the consumers it has opened. As long as the subscription has not been granted it counts nowhere, the
bindings are sought by the call or have come to something, and the consumers are sure to be closed.
-/
namespace SubscriptionGateway

open Broker

namespace Engine

variable {e e' : Engine} {a : Action} {b : BindingId} {s : SubscriptionId} {x : Subscriber}
  {k : CallId} {c : ConsumerId} {pool pool' rest : List Action} {log : Steps}

/-! ## What a call does -/

def attemptsOf (k : CallId) (e : Engine) : Action → List SubscriptionId
  | .subscribe call c clientId r =>
    match e.prepare c clientId r with
    | .ok (s, _, _) => if call = k then [s] else []
    | .error _ => []
  | _ => []

def foundingsOf (k : CallId) (e : Engine) (a : Action) : List BindingId :=
  let made := (e.perform a).engine.bindings.length - e.bindings.length
  if a.ticket? = some k then List.range' e.bindings.length made else []

def openingsOf (k : CallId) (e : Engine) (a : Action) : List ConsumerId :=
  if a.ticket? = some k then openings e a else []

theorem attemptsOf_other (other : a.ticket? ≠ some k) : attemptsOf k e a = [] := by
  cases a with
  | subscribe call c clientId r =>
    have differ : call ≠ k := by simpa [Action.ticket?] using other
    simp only [attemptsOf, differ, ↓reduceIte]
    split <;> rfl
  | _ => rfl

theorem attempts_fresh (member : s ∈ attemptsOf k e a) :
    ∃ call c clientId r, a = .subscribe call c clientId r ∧ s = e.subscribers.length := by
  cases a with
  | subscribe call c clientId r =>
    refine ⟨call, c, clientId, r, rfl, ?_⟩
    simp only [attemptsOf] at member
    split at member
    · rename_i prepared
      obtain ⟨-, rfl, -⟩ := prepare_ok e prepared
      split at member
      · exact List.mem_singleton.mp member
      · simp at member
    · simp at member
  | _ => simp [attemptsOf] at member

theorem mem_foundings (member : b ∈ foundingsOf k e a) :
    a.ticket? = some k ∧ e.bindings.length ≤ b ∧ b < (e.perform a).engine.bindings.length := by
  simp only [foundingsOf] at member
  split at member
  · rename_i whose
    obtain ⟨old, new⟩ := List.mem_range'_1.mp member
    exact ⟨whose, old, Nat.lt_of_lt_of_le new (by omega)⟩
  · simp at member

/-- A binding has come to something, or its call is about to see to it. -/
def Sought (k : CallId) (b : BindingId) (e : Engine) (pool : List Action) : Prop :=
  ∃ y, e.bindings[b]? = some y ∧
    (y.phase = .opening → ∃ a ∈ pool, a.ticket? = some k ∧ ∃ s, a.seeks? = some (b, s))

/-- A consumer has been closed or cannot but be closed: nothing else is left to do for its task. -/
def Doomed (c : ConsumerId) (e : Engine) (pool : List Action) (log : Steps) : Prop :=
  c ∈ (log.flatMap fun p => closings p.1 p.2) ∨ .closeConsumer c ∈ pool ∨
    ∃ b w y, .consume b c w ∈ pool ∧ e.bindings[b]? = some y ∧ y.cancelled = true

structure Attempt (k : CallId) (e : Engine) (pool : List Action) (log : Steps) : Prop where
  sole : ∀ s ∈ (log.flatMap fun p => attemptsOf k p.1 p.2), ∀ a ∈ pool, a.enters? = some s →
    a.ticket? = some k
  unserved : ∀ s ∈ (log.flatMap fun p => attemptsOf k p.1 p.2), Unserved s e pool
  /-- No delivery of it has taken a step; whatever else was delivered has a record. -/
  unheard : ∀ s ∈ (log.flatMap fun p => attemptsOf k p.1 p.2), ∀ p ∈ log, p.2.delivers? ≠ some s
  known : ∀ p ∈ log, ∀ s, p.2.delivers? = some s → s < e.subscribers.length
  level : ∀ p ∈ log, p.2.ticket? = some k → Level p.1 (p.1.perform p.2).engine
  sought : ∀ b ∈ (log.flatMap fun p => foundingsOf k p.1 p.2), Sought k b e pool
  doomed : ∀ c ∈ (log.flatMap fun p => openingsOf k p.1 p.2), Doomed c e pool log

/-! ## One step -/

theorem present_lasts (proceeds : Proceeds e e') (present : s < e.subscribers.length) :
    s < e'.subscribers.length := by
  by_contra beyond
  have stands := proceeds.standing s
  have absent : e'.books.phase s = none := by
    simp [books, List.getElem?_eq_none (Nat.le_of_not_lt beyond)]
  have here : e.books.phase s = some (e.subscribers[s].life.phase) := by
    simp [books, List.getElem?_eq_getElem present]
  rw [absent, here] at stands
  cases phase : e.subscribers[s].life.phase <;> simp [phase, standing] at stands

theorem sought_lasts (sound : e.books.Sound (duties (a :: rest)))
    (sought : Sought k b e (a :: rest))
    (quits : ∀ s y, a.ticket? = some k → a.seeks? = some (b, s) →
      (e.perform a).engine.bindings[b]? = some y → y.phase = .opening →
      ∃ x ∈ (e.perform a).sequel, x.ticket? = some k ∧ ∃ s, x.seeks? = some (b, s)) :
    Sought k b (e.perform a).engine ((e.perform a).sequel ++ rest) := by
  obtain ⟨y, here, seeking⟩ := sought
  obtain ⟨y', there, ages⟩ := perform_lasts sound here
  refine ⟨y', there, fun opening => ?_⟩
  obtain ⟨z, member, whose, s, seeks⟩ := seeking (ages.opening opening)
  rcases List.mem_cons.mp member with rfl | old
  · obtain ⟨x, new, onward⟩ := quits s y' whose seeks there opening
    exact ⟨x, List.mem_append_left _ new, onward⟩
  · exact ⟨z, List.mem_append_right _ old, whose, s, seeks⟩

theorem doomed_lasts (sound : e.books.Sound (duties (a :: rest)))
    (doomed : Doomed c e (a :: rest) log) :
    Doomed c (e.perform a).engine ((e.perform a).sequel ++ rest) (log ++ [(e, a)]) := by
  rw [Doomed, List.flatMap_append, List.flatMap_singleton]
  rcases doomed with closed | closing | ⟨b, w, y, watching, here, stopped⟩
  · exact .inl (List.mem_append_left _ closed)
  · rcases List.mem_cons.mp closing with rfl | old
    · exact .inl (List.mem_append_right _ (List.mem_singleton.mpr rfl))
    · exact .inr (.inl (List.mem_append_right _ old))
  · rcases List.mem_cons.mp watching with rfl | old
    · refine .inr (.inl (List.mem_append_left _ ?_))
      simp [perform, consumeNext, here, stopped, Effect.sequel]
    · obtain ⟨y', there, ages⟩ := perform_lasts sound here
      exact .inr (.inr ⟨b, w, y', List.mem_append_right _ old, there, ages.cancelled stopped⟩)

theorem sequel_enters {y : Action} (member : y ∈ (e.perform a).sequel)
    (enters : y.enters? = some s) :
    y.ticket? = a.ticket? ∧ (a.enters? = some s ∨ s = e.subscribers.length) := by
  have brings := perform_brings e a y member
  cases a with
  | subscribe call c clientId r =>
    simp only [perform] at member
    cases prepared : e.prepare c clientId r with
    | error fault => simp [prepared, fail, Effect.sequel] at member
    | ok found =>
      obtain ⟨s', key, e'⟩ := found
      obtain ⟨compiled, rfl, -, -, -, -⟩ := prepare_ok e prepared
      obtain ⟨b, sequel, -⟩ := seek_onward e' call e.subscribers.length key
      simp only [prepared] at member
      obtain rfl : y = _ := by simpa [sequel] using member
      exact ⟨rfl, .inr (by simpa [Action.enters?, eq_comm] using enters)⟩
  | join call b s' =>
    rcases brings with ⟨_, rfl⟩ | ⟨_, rfl⟩ | rfl
    · exact ⟨rfl, .inl enters⟩
    · exact ⟨rfl, .inl enters⟩
    · simp [Action.enters?] at enters
  | openSource call b s' due =>
    rcases brings with ⟨_, rfl⟩ | rfl <;> simp [Action.enters?] at enters
  | _ => cases y <;> simp_all [Action.Brings, Action.enters?]

structure Vain (k : CallId) (e : Engine) (a : Action) (rest : List Action) : Prop where
  asked : ∀ s ∈ attemptsOf k e a,
    Unserved s (e.perform a).engine ((e.perform a).sequel ++ rest) ∧
    ∀ y ∈ (e.perform a).sequel ++ rest, y.enters? = some s → y.ticket? = some k
  entered : ∀ s, a.ticket? = some k → a.enters? = some s → Unserved s e (a :: rest) →
    Unserved s (e.perform a).engine ((e.perform a).sequel ++ rest)
  level : a.ticket? = some k → Level e (e.perform a).engine
  quits : ∀ b s y, a.ticket? = some k → a.seeks? = some (b, s) →
    (e.perform a).engine.bindings[b]? = some y → y.phase = .opening →
    ∃ x ∈ (e.perform a).sequel, x.ticket? = some k ∧ ∃ s, x.seeks? = some (b, s)
  founded : ∀ b ∈ foundingsOf k e a,
    Sought k b (e.perform a).engine ((e.perform a).sequel ++ rest)
  opened : ∀ c ∈ openingsOf k e a,
    Doomed c (e.perform a).engine ((e.perform a).sequel ++ rest) [(e, a)]

theorem attempt_step (sound : e.books.Sound (duties (a :: rest)))
    (proceeds : Proceeds e (e.perform a).engine)
    (served : ∀ s, a.delivers? = some s → s < e.subscribers.length)
    (attempt : Attempt k e (a :: rest) log) (vain : Vain k e a rest) :
    Attempt k (e.perform a).engine ((e.perform a).sequel ++ rest) (log ++ [(e, a)]) := by
  constructor
  all_goals simp only [List.flatMap_append, List.flatMap_singleton, List.mem_append]
  · intro s asked y member enters
    rcases asked with old | new
    · rcases member with onward | still
      · obtain ⟨x, found, -⟩ := (attempt.unserved s old).record
        obtain ⟨bound, -⟩ := List.getElem?_eq_some_iff.mp found
        obtain ⟨same, before | fresh⟩ := sequel_enters onward enters
        · exact same.trans (attempt.sole s old a (List.mem_cons_self ..) before)
        · exact absurd fresh (Nat.ne_of_lt bound)
      · exact attempt.sole s old y (List.mem_cons_of_mem _ still) enters
    · exact (vain.asked s new).2 y (List.mem_append.mpr member) enters
  · intro s asked
    rcases asked with old | new
    · have before := attempt.unserved s old
      by_cases enters : a.enters? = some s
      · exact vain.entered s (attempt.sole s old a (List.mem_cons_self ..) enters) enters before
      · exact unserved_other sound before enters
    · exact (vain.asked s new).1
  · intro s asked p member
    rcases asked with old | new
    · rcases member with earlier | last
      · exact attempt.unheard s old p earlier
      · obtain rfl := List.mem_singleton.mp last
        exact (attempt.unserved s old).undelivered a (List.mem_cons_self ..)
    · obtain ⟨call, peer, clientId, r, rfl, rfl⟩ := attempts_fresh new
      rcases member with earlier | last
      · exact fun mine => Nat.lt_irrefl _ (attempt.known p earlier _ mine)
      · obtain rfl := List.mem_singleton.mp last
        simp [Action.delivers?]
  · intro p member s mine
    refine present_lasts proceeds ?_
    rcases member with earlier | last
    · exact attempt.known p earlier s mine
    · obtain rfl := List.mem_singleton.mp last
      exact served s mine
  · intro p member whose
    rcases member with old | new
    · exact attempt.level p old whose
    · obtain rfl := List.mem_singleton.mp new
      exact vain.level whose
  · intro b made
    rcases made with old | new
    · exact sought_lasts sound (attempt.sought b old) (vain.quits b)
    · exact vain.founded b new
  · intro c ours
    rcases ours with old | new
    · exact doomed_lasts sound (attempt.doomed c old)
    · refine (vain.opened c new).imp_left fun closed => ?_
      rw [List.flatMap_append]
      exact List.mem_append_right _ closed

theorem vain_other (other : a.ticket? ≠ some k) : Vain k e a rest where
  asked s asked := by simp [attemptsOf_other other] at asked
  entered s whose := absurd whose other
  level whose := absurd whose other
  quits b s y whose := absurd whose other
  founded b made := absurd (mem_foundings made).1 other
  opened c ours := by simp [openingsOf, other] at ours

theorem seeks_of_enters (enters : a.enters? = some s) : ∃ b, a.seeks? = some (b, s) := by
  cases a <;> simp_all [Action.enters?, Action.seeks?]

theorem absent_idle (sound : e.books.Sound (duties pool)) (absent : e.books.phase s = none) :
    (∀ y ∈ pool, y.enters? ≠ some s) ∧ ∀ y ∈ pool, ∀ b, y ≠ .leave b s := by
  refine ⟨fun y member enters => ?_, fun y member b leaves => ?_⟩
  · obtain ⟨b, seeks⟩ := seeks_of_enters enters
    have pending := (sound.seeking b s (List.mem_filterMap.mpr ⟨y, member, seeks⟩)).1
    simp [absent] at pending
  · subst leaves
    have past := sound.leaving b s (List.mem_filterMap.mpr ⟨_, member, rfl⟩)
    simp [absent] at past

theorem vain_subscribe {peer : ConnectionId} {clientId : String} {r : Request}
    (sound : e.books.Sound (duties (.subscribe k peer clientId r :: rest)))
    (served : ∀ y ∈ rest, ∀ s, y.delivers? = some s → s < e.subscribers.length) :
    Vain k e (.subscribe k peer clientId r) rest := by
  have unopened : openingsOf k e (.subscribe k peer clientId r) = [] := by
    simp [openingsOf, openings]
  cases prepared : e.prepare peer clientId r with
  | error fault =>
    have effect : e.perform (.subscribe k peer clientId r) = e.fail k fault := by
      simp only [perform, prepared]
    have asked : attemptsOf k e (.subscribe k peer clientId r) = [] := by
      simp only [attemptsOf, prepared]
    exact {
      asked := fun s new => by simp [asked] at new
      entered := fun s _ enters => by simp [Action.enters?] at enters
      level := fun _ => effect ▸ ⟨rfl, rfl, rfl⟩
      quits := fun b s y _ seeks => by simp [Action.seeks?] at seeks
      founded := fun b made => by
        obtain ⟨-, old, new⟩ := mem_foundings made
        rw [effect] at new
        exact absurd new (Nat.not_lt.mpr old)
      opened := fun c ours => by simp [unopened] at ours }
  | ok found =>
    obtain ⟨s, key, e'⟩ := found
    obtain ⟨compiled, rfl, -, -, -, made⟩ := prepare_ok e prepared
    obtain ⟨b, sequel, level, bindings⟩ := seek_onward e' k e.subscribers.length key
    have effect : e.perform (.subscribe k peer clientId r) =
          e'.seek k e.subscribers.length key := by
      simp only [perform, prepared]
    have asked : attemptsOf k e (.subscribe k peer clientId r) = [e.subscribers.length] := by
      simp only [attemptsOf, prepared, ↓reduceIte]
    have same : e'.bindings = e.bindings := by rw [made]
    obtain ⟨unsought, unleft⟩ := absent_idle (s := e.subscribers.length) sound (by simp [books])
    have fresh : Unserved e.subscribers.length (e'.seek k e.subscribers.length key).engine
        (.join k b e.subscribers.length :: rest) := by
      refine ⟨⟨{ clientId := clientId, connection := peer, compiled }, ?_, by simp, rfl⟩,
        fun y member mine => ?_, fun y member b' leaves => ?_⟩
      · rw [seek_subscribers, made]
        simp
      · rcases List.mem_cons.mp member with rfl | old
        · simp [Action.delivers?] at mine
        · exact absurd (served y old _ mine) (Nat.lt_irrefl _)
      · rcases List.mem_cons.mp member with rfl | old
        · simp at leaves
        · exact unleft y (List.mem_cons_of_mem _ old) b' leaves
    exact {
      asked := fun s new => by
        obtain rfl : s = e.subscribers.length := by simpa [asked] using new
        rw [effect, sequel]
        refine ⟨fresh, fun y member enters => ?_⟩
        rcases List.mem_cons.mp member with rfl | old
        · rfl
        · exact absurd enters (unsought y (List.mem_cons_of_mem _ old))
      entered := fun s _ enters => by simp [Action.enters?] at enters
      level := fun _ => by
        rw [effect]
        subst made
        exact ⟨level.subscriptions, level.inFlight, level.deliveries⟩
      quits := fun b s y _ seeks => by simp [Action.seeks?] at seeks
      founded := fun b' made => by
        obtain ⟨-, old, new⟩ := mem_foundings made
        rw [effect] at new ⊢
        rw [sequel]
        rcases bindings with unchanged | ⟨rfl, more⟩
        · rw [unchanged, same] at new
          exact absurd new (Nat.not_lt.mpr old)
        · rw [more, same, List.length_append] at new
          obtain rfl : b' = e.bindings.length := Nat.le_antisymm (Nat.le_of_lt_succ new) old
          refine ⟨{ key := key }, by simp [more, same], fun _ => ?_⟩
          exact ⟨_, List.mem_cons_self .., rfl, e.subscribers.length, by simp [Action.seeks?, same]⟩
      opened := fun c ours => by simp [unopened] at ours }

theorem seeks_mute (seeks : a.seeks? = some (b, s)) : a.delivers? = none ∧ a.leaves? = none := by
  cases a with
  | join | openSource => exact ⟨rfl, rfl⟩
  | _ => simp [Action.seeks?] at seeks

theorem unserved_mine (found : e.subscribers[s]? = some x)
    (record : ∃ x', (e.perform a).engine.subscribers[s]? = some x' ∧
      x'.life.phase ≠ .active ∧ x'.inbox = x.inbox)
    (mute : ∀ y ∈ (e.perform a).sequel, y.delivers? = none ∧ y.leaves? = none)
    (before : Unserved s e (a :: rest)) :
    Unserved s (e.perform a).engine ((e.perform a).sequel ++ rest) := by
  obtain ⟨x', found', idle, inbox⟩ := record
  obtain ⟨z, there, -, empty⟩ := before.record
  obtain rfl : x = z := by simpa [found] using there
  refine ⟨⟨x', found', idle, inbox.trans empty⟩, fun y member mine => ?_,
      fun y member b' leaves => ?_⟩
  · rcases List.mem_append.mp member with new | old
    · simp [(mute y new).1] at mine
    · exact before.undelivered y (List.mem_cons_of_mem _ old) mine
  · rcases List.mem_append.mp member with new | old
    · have stays := (mute y new).2
      simp [leaves, Action.leaves?] at stays
    · exact before.unleft y (List.mem_cons_of_mem _ old) b' leaves

/-- The call looks for a binding, and goes on to another one or is denied what it came for. -/
theorem vain_seeking (sound : e.books.Sound (duties (a :: rest))) (whose : a.ticket? = some k)
    (seeks : a.seeks? = some (b, s)) (ungranted : ¬ Granted k (e.perform a).engine) :
    Vain k e a rest := by
  obtain ⟨x, found, pending⟩ := seeker_pending sound seeks
  have unasked : attemptsOf k e a = [] := by
    cases a with
    | subscribe => simp [Action.seeks?] at seeks
    | _ => rfl
  have only (b' : BindingId) (s' : SubscriptionId) (seeks' : a.seeks? = some (b', s')) :
      b' = b ∧ s' = s := Prod.mk.inj (Option.some.inj (seeks'.symm.trans seeks))
  have same (s' : SubscriptionId) (enters : a.enters? = some s') : s = s' := by
    obtain ⟨b', seeks'⟩ := seeks_of_enters enters
    exact (only b' s' seeks').2.symm
  cases seeking_outcome sound whose seeks found with
  | onward k' y next seeks' whose' level record unopened fresh stays =>
    have mute : ∀ z ∈ (e.perform a).sequel, z.delivers? = none ∧ z.leaves? = none := by
      intro z member
      obtain rfl : z = y := by simpa [next] using member
      exact seeks_mute seeks'
    exact {
      asked := fun s new => by simp [unasked] at new
      entered := fun s' _ enters => same s' enters ▸
        unserved_mine found ⟨x, record ▸ found, by simp [pending], rfl⟩ mute
      level := fun _ => level
      quits := fun b' s' z _ seeks'' there opening => by
        obtain ⟨rfl, -⟩ := only b' s' seeks''
        obtain rfl := stays z there opening
        exact ⟨y, by simp [next], whose', s, seeks'⟩
      founded := fun b' made => by
        obtain ⟨-, old, new⟩ := mem_foundings made
        obtain rfl := fresh b' old new
        refine ⟨_, List.getElem?_eq_getElem new, fun _ => ⟨y, ?_, whose', s, seeks'⟩⟩
        simp [next]
      opened := fun c ours => by simp [openingsOf, unopened] at ours }
  | declined declined after doomed =>
    have mute : ∀ z ∈ (e.perform a).sequel, z.delivers? = none ∧ z.leaves? = none := by
      intro z member
      obtain ⟨c, rfl⟩ := after z member
      exact ⟨rfl, rfl⟩
    exact {
      asked := fun s new => by simp [unasked] at new
      entered := fun s' _ enters => same s' enters ▸ unserved_mine found declined.record mute
      level := fun _ => declined.level
      quits := fun b' s' z _ seeks' there opening => by
        obtain ⟨rfl, -⟩ := only b' s' seeks'
        exact absurd opening (declined.settled z there)
      founded := fun b' made => by
        obtain ⟨-, old, new⟩ := mem_foundings made
        rw [declined.length] at new
        exact absurd new (Nat.not_lt.mpr old)
      opened := fun c ours => by
        have opened : c ∈ openings e a := by simpa [openingsOf, whose] using ours
        rcases doomed c opened with closed | ⟨started, y, there, stopped⟩
        · exact .inl (by simpa using closed)
        · exact .inr (.inr ⟨b, _, y, List.mem_append_left _ started, there, stopped⟩) }
  | granted told => exact absurd ⟨s, told⟩ ungranted

/-! ## Every step -/

def Served (e : Engine) (pool : List Action) : Prop :=
  ∀ y ∈ pool, ∀ s, y.delivers? = some s → s < e.subscribers.length

theorem served_upheld : Upheld Regular fun e ts _ => Served e ts.flatten := by
  refine upheld_pending (P := fun e pool _ => Served e pool) ?_ ?_ ?_
  · exact fun perm served y member => served y (perm.mem_iff.mpr member)
  · intro e ts log i known served y member s mine
    rcases List.mem_append.mp member with new | old
    · cases task_begins new <;> simp [Action.delivers?] at mine
    · rw [(input_spares e i).1]
      exact served y old s mine
  · intro e a rest ts log ready pending known served y member s mine
    have sound := known.1.1.sound pending
    have proceeds := perform_proceeds ready sound fun call r same =>
      known.1.2.plain call r (by rw [pending, same]; exact List.mem_cons_self ..)
    refine present_lasts proceeds ?_
    rcases List.mem_append.mp member with new | old
    · rcases brings_own (perform_brings e a y new) mine with delivers | enters
      · exact served a (List.mem_cons_self ..) s delivers
      · obtain ⟨b, seeks⟩ := seeks_of_enters enters
        obtain ⟨x, found, -⟩ := seeker_pending sound seeks
        exact (List.getElem?_eq_some_iff.mp found).1
    · exact served y (List.mem_cons_of_mem _ old) s mine

theorem attempt_shuffle (perm : pool.Perm pool') (attempt : Attempt k e pool log) :
    Attempt k e pool' log where
  sole s asked y member := attempt.sole s asked y (perm.mem_iff.mpr member)
  unserved s asked := unserved_shuffle perm (attempt.unserved s asked)
  unheard := attempt.unheard
  known := attempt.known
  level := attempt.level
  sought b made := by
    obtain ⟨y, here, seeking⟩ := attempt.sought b made
    refine ⟨y, here, fun opening => ?_⟩
    obtain ⟨z, member, ours⟩ := seeking opening
    exact ⟨z, perm.mem_iff.mp member, ours⟩
  doomed c ours := by
    refine (attempt.doomed c ours).imp_right (Or.imp perm.mem_iff.mp ?_)
    rintro ⟨b, w, y, watching, stopped⟩
    exact ⟨b, w, y, perm.mem_iff.mp watching, stopped⟩

theorem attempt_input (i : Input) (attempt : Attempt k e pool log) :
    Attempt k (i.apply e) (i.task e ++ pool) log where
  sole s asked y member enters := by
    rcases List.mem_append.mp member with new | old
    · cases task_begins new <;> simp [Action.enters?] at enters
    · exact attempt.sole s asked y old enters
  unserved s asked := unserved_input i (attempt.unserved s asked)
  unheard := attempt.unheard
  known := (input_spares e i).1 ▸ attempt.known
  level := attempt.level
  sought b made := by
    obtain ⟨y, here, seeking⟩ := attempt.sought b made
    refine ⟨y, (input_apart e i).bindings ▸ here, fun opening => ?_⟩
    obtain ⟨z, member, ours⟩ := seeking opening
    exact ⟨z, List.mem_append_right _ member, ours⟩
  doomed c ours := by
    refine (attempt.doomed c ours).imp_right (Or.imp (List.mem_append_right _) ?_)
    rintro ⟨b, w, y, watching, here, stopped⟩
    exact ⟨b, w, y, List.mem_append_right _ watching, (input_apart e i).bindings ▸ here, stopped⟩

def Asked (k : CallId) : Fact := fun e ts log =>
  (Regular e ts log ∧ Served e ts.flatten) ∧ Asking k e ts.flatten

theorem attempt_upheld (k : CallId) :
    Upheld (Asked k) fun e ts log => Granted k e ∨ Attempt k e ts.flatten log := by
  refine upheld_pending (P := fun e pool log => Granted k e ∨ Attempt k e pool log) ?_ ?_ ?_
  · exact fun perm before => before.imp_right (attempt_shuffle perm)
  · intro e ts log i _ before
    refine before.imp (fun granted => ?_) (attempt_input i)
    rw [Granted, input_replies]
    exact granted
  · rintro e a rest ts log ready pending ⟨⟨⟨⟨accounted, honored⟩, -⟩, served⟩, asking⟩ before
    have sound := accounted.sound pending
    rw [pending] at served asking honored
    have plain (call : CallId) (r : Reply) (same : a = .answer call r) : r = .done :=
      honored.plain call r (same ▸ List.mem_cons_self ..)
    have serves := perform_serves sound plain
    rcases before with ⟨s, told⟩ | attempt
    · exact .inl ⟨s, told_lasts serves.answered told⟩
    by_cases granted : Granted k (e.perform a).engine
    · exact .inl granted
    right
    refine attempt_step sound (perform_proceeds ready sound plain)
      (served a (List.mem_cons_self ..)) attempt ?_
    by_cases whose : a.ticket? = some k
    · have asks := asking.asks a (List.mem_cons_self ..) whose
      cases a with
      | subscribe call peer clientId r =>
        obtain rfl : call = k := by simpa [Action.ticket?] using whose
        exact vain_subscribe sound fun y member => served y (List.mem_cons_of_mem _ member)
      | join call b s => exact vain_seeking sound whose rfl granted
      | openSource call b s due => exact vain_seeking sound whose rfl granted
      | _ => simp [Action.asks] at asks
    · exact vain_other whose

/-! ## Every play -/

theorem start_served (setup : Setup) (hub : Hub) :
    Always (World.start setup hub) fun e ts log => Regular e ts log ∧ Served e ts.flatten :=
  (start_regular setup hub).and served_upheld fun y member => by simp [World.start] at member

theorem asked_begun {w : World}
    (always : Always w fun e ts _ => Regular e ts [] ∧ Served e ts.flatten)
    (c : ConnectionId) (clientId : String) (r : Request) :
    Always (w.input (.call (.subscribe c clientId r))) (Asked w.state.calls) := by
  have now := always.throughout []
  have begun : Always (w.input (.call (.subscribe c clientId r))) fun e ts _ =>
      Regular e ts [] ∧ Served e ts.flatten :=
    always.later (P := fun e ts => Regular e ts [] ∧ Served e ts.flatten)
      [.input (.call (.subscribe c clientId r))]
  exact begun.and ((asking_upheld w.state.calls).given fun known => known.1.1)
    (asking_begun now.1.1.2 c clientId r)

theorem sought_members {d : Duties} {key : SourceKey} (sound : e.books.Sound d)
    (manned : Manned e pool b) (sought : Sought k b e pool)
    (finished : ∀ a ∈ pool, a.ticket? ≠ some k) (listed : (key, b) ∈ e.listed) :
    ∃ y, e.bindings[b]? = some y ∧ y.phase = .opened ∧ y.members ≠ [] := by
  obtain ⟨y, here, seeking⟩ := sought
  have stage := ((sound.listed_iff key b).mp listed).2
  cases phase : y.phase with
  | opening =>
    obtain ⟨a, member, whose, -⟩ := seeking phase
    exact absurd whose (finished a member)
  | opened => exact ⟨y, here, phase, (manned.staffed y here).peopled phase⟩
  | closed => simp [books, here, phase] at stage

theorem bindingsOpen_unsought {d : Duties} (sound : e.books.Sound d) (manned : ∀ b, Manned e pool b)
    (unsought : ∀ a ∈ pool, a.seeks? = none) : BindingsOpen e := by
  refine ⟨fun ⟨key, b⟩ listed => ?_⟩
  obtain ⟨source, stage⟩ := (sound.listed_iff key b).mp listed
  cases read : e.bindings[b]? with
  | none => simp [books, read] at source
  | some y =>
    have staffed := (manned b).staffed y read
    cases phase : y.phase with
    | opening => exact absurd (unsought_seekers unsought b) (staffed.sought phase)
    | opened => exact ⟨y, rfl, phase, staffed.peopled phase⟩
    | closed => simp [books, read, phase] at stage

theorem doomed_closed {w : World} (run : w.consumersRun = true)
    (doomed : Doomed c w.state w.pending log) : c ∈ (log.flatMap fun p => closings p.1 p.2) := by
  rcases doomed with closed | closing | ⟨b, w', y, watching, here, stopped⟩
  · exact closed
  · simpa using List.all_eq_true.mp run _ closing
  · have runs := List.all_eq_true.mp run _ watching
    simp [here, stopped] at runs

/-- A call for a subscription that has been answered with a fault leaves nothing behind, however
others go on at the same time: from then on its subscription is registered nowhere and has neither
events nor a delivery, none of its steps has changed a count, a binding that it has made is in use
only with other members, and the consumers that it has opened are closed or about to be. When nobody
else looks for a binding at the start or administers meanwhile, everything is as it was. -/
theorem denied_leaves_nothing (setup : Setup) (hub : Hub) (moves : List Move) (c : ConnectionId)
    (clientId : String) (r : Request) (later : List Move) (fault : Fault) :
    let w := (World.start setup hub).play moves
    let v := w.input (.call (.subscribe c clientId r))
    let k := w.state.calls
    (v.play later).state.reply? k = some (.failed fault) →
    (∀ further, let u := v.play (later ++ further)
      let log := v.steps (later ++ further)
      (∀ s ∈ v.record (attemptsOf k) (later ++ further),
        u.state.isRegistered s = false ∧ (∀ b, u.state.isMember b s = false) ∧
        (∀ c, s ∉ (u.state.owned c).map (·.1)) ∧
        (∀ a ∈ u.pending, a.delivers? ≠ some s) ∧ (∀ p ∈ log, p.2.delivers? ≠ some s) ∧
        ∃ x, u.state.subscribers[s]? = some x ∧ x.inbox = []) ∧
      u.state.counters.subscriptions = u.state.registered.length ∧
      (∀ p ∈ log, p.2.ticket? = some k → Level p.1 (p.1.perform p.2).engine) ∧
      (∀ b ∈ v.record (foundingsOf k) (later ++ further), ∀ key, (key, b) ∈ u.state.listed →
        ∃ y, u.state.bindings[b]? = some y ∧ y.phase = .opened ∧ y.members ≠ []) ∧
      ∀ o ∈ v.record (openingsOf k) (later ++ further), Doomed o u.state u.pending log ∧
        (u.consumersRun = true → o ∈ v.record closings (later ++ further))) ∧
    ((∀ a ∈ w.pending, a.seeks? = none) → Undisturbed k (v.steps later) →
      let u := v.play later
      u.state.registered = w.state.registered ∧ u.state.listed = w.state.listed ∧
      (∀ b, b < w.state.bindings.length → u.state.bindings[b]? = w.state.bindings[b]?) ∧
      ∀ c, u.state.owned c = w.state.owned c) := by
  intro w v k denied
  have served : Always w fun e ts _ => Regular e ts [] ∧ Served e ts.flatten :=
    (start_served setup hub).later (P := fun e ts => Regular e ts [] ∧ Served e ts.flatten) moves
  have kept : Always w BooksKept :=
    (start_kept setup hub).later (P := fun e ts => BooksKept e ts []) moves
  have asked : Always v (Asked k) := asked_begun served c clientId r
  have regular : Always v Regular :=
      asked.imp (start_regular setup hub).loose fun known => known.1.1
  have manned : Always v BooksKept := kept.later (P := fun e ts => BooksKept e ts [])
    [.input (.call (.subscribe c clientId r))]
  refine ⟨fun further => ?_, fun unsought undisturbed => ?_⟩
  · intro u log
    have told : (k, .failed fault) ∈ u.state.replies := by
      have onward := (regular.later (P := fun e ts => Regular e ts []) later).and (told_upheld _)
        (mem_of_reply denied)
      have answer := (onward.throughout further).2
      rwa [← World.play_append] at answer
    obtain ⟨⟨⟨known, -⟩, -⟩, outcome⟩ := (asked.and (attempt_upheld k)
      (.inr ⟨by simp, by simp, by simp, by simp, by simp, by simp, by simp⟩)).throughout
        (later ++ further)
    obtain ⟨⟨-, tallied⟩, staffed⟩ := manned.throughout (later ++ further)
    have sound : u.state.books.Sound (duties u.pending) := known.1.1
    have attempt := outcome.resolve_left (ungranted known.1.2 told)
    simp only [World.record_steps]
    refine ⟨fun s asked => ?_, tallied.count, attempt.level, fun b made key listed => ?_,
      fun o ours => ?_⟩
    · have unserved := attempt.unserved s asked
      obtain ⟨unregistered, outside, unowned⟩ := unserved_nowhere sound unserved
      obtain ⟨x, found, -, empty⟩ := unserved.record
      exact ⟨unregistered, outside, unowned, unserved.undelivered, attempt.unheard s asked, x,
        found, empty⟩
    · exact sought_members sound (staffed b) (attempt.sought b made)
        (fun a member => answered_over known.1.2 told member) listed
    · have doomed := attempt.doomed o ours
      exact ⟨doomed, fun run => doomed_closed run doomed⟩
  · intro u
    have now := kept.throughout []
    have settled : BindingsOpen w.state := bindingsOpen_unsought now.1.1.1.1 now.2 unsought
    have first : Intact w.state v.state ∧ Solo k w.state v.state v.pending := by
      have called : Apart w.state v.state := ⟨rfl, rfl, rfl, rfl, fun _ => rfl⟩
      refine ⟨intact_apart (intact_refl w.state) called, .unchanged rfl ?_⟩
      intro a member _ b s seeks
      rw [World.input_pending] at member
      rcases List.mem_append.mp member with old | new
      · simp [unsought a old] at seeks
      · obtain rfl := List.mem_singleton.mp new
        simp [Action.seeks?] at seeks
    obtain ⟨known, outcome⟩ := (asked.and
      ((solo_upheld k settled).given fun known : Asked k _ _ _ => ⟨known.1.1, known.2⟩)
      fun _ => .inr first).throughout later
    obtain ⟨intact, solo⟩ := (outcome undisturbed).resolve_left
      (ungranted known.1.1.1.2 (mem_of_reply denied))
    refine ⟨intact.registered, ?_, intact.bindings, intact.owned⟩
    cases solo with
    | unchanged listed => exact listed
    | founding _ _ _ _ _ _ _ _ ongoing =>
      obtain ⟨a, member, whose⟩ := ongoing
      exact absurd whose (answered_over known.1.1.1.2 (mem_of_reply denied) member)

def slowCalled : World :=
  ((World.start slowSetup staffHub).play [.input (.connect .webSocket)]).input (slowSubscribe "1")

def slowDenial : List Move := [.step 0, .step 0, .input (.pass 100), .input (.close 0), .step 0]

def slowClosing : List Move := [.step 0, .step 0]

theorem slow_denied_leaves_nothing :
    (∃ fault, (slowCalled.play slowDenial).state.reply? 0 = some (.failed fault)) ∧
    slowCalled.record (attemptsOf 0) (slowDenial ++ slowClosing) = [0] ∧
    slowCalled.record (openingsOf 0) (slowDenial ++ slowClosing) = [0] ∧
    (slowCalled.play (slowDenial ++ slowClosing)).state.isRegistered 0 = false ∧
    0 ∈ slowCalled.record closings (slowDenial ++ slowClosing) ∧
    (slowCalled.play slowDenial).state.listed =
      ((World.start slowSetup staffHub).play [.input (.connect .webSocket)]).state.listed := by
  have answered : ((slowCalled.play slowDenial).state.reply? 0).any
      (fun | .failed _ => true | _ => false) = true := by decide +kernel
  have asked : slowCalled.record (attemptsOf 0) (slowDenial ++ slowClosing) = [0] :=
      by decide +kernel
  have opened : slowCalled.record (openingsOf 0) (slowDenial ++ slowClosing) = [0] :=
      by decide +kernel
  have run : (slowCalled.play (slowDenial ++ slowClosing)).consumersRun = true := by decide +kernel
  have alone : (slowCalled.steps slowDenial).all
      (fun p => p.2.ticket? == some 0 || !p.2.administers) = true := by decide +kernel
  obtain ⟨fault, denied⟩ : ∃ fault,
      (slowCalled.play slowDenial).state.reply? 0 = some (.failed fault) := by
    obtain ⟨reply, told, failed⟩ := (Option.any_eq_true _ _).mp answered
    cases reply with
    | failed fault => exact ⟨fault, told⟩
    | done | subscribed | scheduled => simp at failed
  have undisturbed : Undisturbed 0 (slowCalled.steps slowDenial) := fun p member => by
    simpa using List.all_eq_true.mp alone p member
  obtain ⟨always, solitary⟩ := denied_leaves_nothing slowSetup staffHub
    [.input (.connect .webSocket)] 0 "1" { query := "subscription { employee { id } }" } slowDenial
    fault denied
  obtain ⟨nowhere, -, -, -, closed⟩ := always slowClosing
  obtain ⟨-, listed, -⟩ :=
    solitary (fun a member => absurd member List.not_mem_nil) undisturbed
  have attempted : 0 ∈ slowCalled.record (attemptsOf 0) (slowDenial ++ slowClosing) :=
      by simp [asked]
  have procured : 0 ∈ slowCalled.record (openingsOf 0) (slowDenial ++ slowClosing) :=
      by simp [opened]
  refine ⟨⟨fault, denied⟩, asked, opened, (nowhere 0 attempted).1, (closed 0 procured).2 run, ?_⟩
  unfold slowCalled slowSubscribe
  exact listed

end Engine

end SubscriptionGateway
