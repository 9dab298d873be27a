import SubscriptionGateway.Proofs.Engine.Staffing

/-!
Every consumer that is opened is closed once. Each action keeps account of the consumers that are
still to be closed, and a binding that is out of use stays so. So when nothing is in progress the
bindings in use are those whose consumers have been opened and not closed.
-/
namespace SubscriptionGateway

open Broker

namespace Engine

variable {e e' : Engine} {a : Action} {b k : BindingId} {s : SubscriptionId}
  {pool pool' rest : List Action} {log : Steps}

/-! ## Accounts -/

def openings (e : Engine) : Action → List ConsumerId
  | .openSource _ b _ _ => ((e.consumerFor? b).map (·.1)).toList
  | _ => []

/-- The consumers that an action closes, one that has come too late among them. -/
def closings (e : Engine) : Action → List ConsumerId
  | .openSource _ b _ _ => if e.accepting then [] else ((e.consumerFor? b).map (·.1)).toList
  | .closeConsumer c => [c]
  | _ => []

theorem keeping_append (p q : List Action) : keeping (p ++ q) = keeping p ++ keeping q :=
  List.filterMap_append

theorem brings_unkept {a a' : Action} (brings : a.Brings a') (idle : a.keeps? = none)
    (other : a.opens? = none) : a'.keeps? = none := by
  cases a' with
  | consume | closeConsumer => cases a <;> simp_all [Action.Brings, Action.keeps?, Action.opens?]
  | _ => rfl

theorem idle_accounts (e : Engine) (idle : a.keeps? = none) (other : a.opens? = none) :
    (keeping [a] ++ openings e a).Perm (closings e a ++ keeping (e.perform a).sequel) := by
  have nothing : keeping (e.perform a).sequel = [] :=
    sequel_silent fun _ brings => brings_unkept brings idle other
  have unopened : openings e a = [] := by
    cases a with
    | openSource => cases other
    | _ => rfl
  have unclosed : closings e a = [] := by
    cases a with
    | openSource => cases other
    | closeConsumer => cases idle
    | _ => rfl
  have unkept : keeping [a] = [] := by simp [keeping, idle]
  rw [nothing, unopened, unclosed, unkept]

/-- What an action opens, closes and keeps comes out even. -/
theorem perform_accounts (sound : e.books.Sound (duties (a :: rest)))
    (manned : ∀ b, Manned e (a :: rest) b) :
    (keeping [a] ++ openings e a).Perm (closings e a ++ keeping (e.perform a).sequel) := by
  cases a with
  | openSource call k s due =>
    obtain ⟨y, here, -, -⟩ := seeker_binding sound rfl
    obtain ⟨x, found, -⟩ := seeker_pending sound rfl
    simp only [perform]
    rcases openBinding_cases call s here with ⟨fault, hub, none, eq⟩ |
      ⟨c, hub, opens, accepting, eq⟩ | ⟨c, hub, opens, late, eq⟩
    · simp [eq, none, openings, closings, keeping, Action.keeps?, Effect.sequel, fail]
    · have found' :
        (({ e with hub := hub } : Engine).updateBinding k Binding.opened).subscribers[s]? =
          some x := found
      obtain ⟨f, -, -, sequel⟩ := enter_bindings call k [[.consume k c .news]] found'
      have opened : openings e (.openSource call k s due) = [c] := by simp [openings, opens]
      have closed : closings e (.openSource call k s due) = [] := by simp [closings, accepting]
      rw [eq, opened, closed]
      rcases sequel with eq | eq <;> simp [eq, keeping, List.filterMap_cons, Action.keeps?]
    · simp [eq, openings, closings, opens, late, keeping, Action.keeps?, Effect.sequel, fail]
  | consume k c w =>
    cases read : e.bindings[k]? with
    | none =>
      have nobody := (manned k).absent read
      simp [guards, Action.guard?] at nobody
    | some y =>
      simp only [perform, consumeNext, read, openings, closings]
      split
      · simp [keeping, Action.keeps?, Effect.sequel]
      split <;> simp [keeping, List.filterMap_cons, Action.keeps?, Effect.sequel]
  | closeConsumer c => exact List.Perm.refl _
  | _ => exact idle_accounts e rfl rfl

/-- All bindings are staffed, and every consumer that was opened has been closed or is still to be
closed by somebody. -/
structure Staffed (e : Engine) (pool : List Action) (log : Steps) : Prop where
  manned : ∀ b, Manned e pool b
  accounted : (log.flatMap fun p => openings p.1 p.2).Perm
    ((log.flatMap fun p => closings p.1 p.2) ++ keeping pool)

theorem Manned.shuffle (perm : pool.Perm pool') (manned : Manned e pool b) :
    Manned e pool' b where
  absent none := by
    have same : (guards b pool).Perm (guards b pool') := perm.filterMap _
    rw [manned.absent none] at same
    exact same.nil_eq.symm
  staffed y here := by
    have guarding : (guards b pool).Perm (guards b pool') := perm.filterMap _
    have seeking : (seekers b pool).Perm (seekers b pool') := perm.filterMap _
    refine ((manned.staffed y here).of_guards guarding).resought fun opening none => ?_
    rw [none] at seeking
    exact (manned.staffed y here).sought opening seeking.eq_nil

theorem task_mute (e : Engine) (i : Input) :
    ∀ a ∈ i.task e, a.keeps? = none ∧ ∀ b, a.guard? b = none ∧ a.seeker? b = none := by
  intro a member
  cases task_begins member <;> exact ⟨rfl, fun _ => ⟨rfl, rfl⟩⟩

theorem input_manned (i : Input) (manned : Manned e pool b) :
    Manned (i.apply e) (i.task e ++ pool) b := by
  have guarding : guards b (i.task e) = [] :=
    List.filterMap_eq_nil_iff.mpr fun a member => ((task_mute e i a member).2 b).1
  refine manned.spared (by rw [(input_apart e i).bindings]) ?_ fun y here opening => ?_
  · rw [guards_append, guarding, List.nil_append]
  · rw [seekers_append]
    exact List.append_ne_nil_of_right_ne_nil _ ((manned.staffed y here).sought opening)

open scoped List in
theorem staffed_upheld :
    Upheld Accounted fun e ts log => Staffed e ts.flatten log := by
  refine upheld_pending ?_ ?_ ?_
  · intro e p q log perm staffed
    refine ⟨fun b => (staffed.manned b).shuffle perm, ?_⟩
    exact staffed.accounted.trans ((perm.filterMap _).append_left _)
  · intro e ts log i _ staffed
    refine ⟨fun b => input_manned i (staffed.manned b), ?_⟩
    have none : keeping (i.task e) = [] :=
      List.filterMap_eq_nil_iff.mpr fun a member => (task_mute e i a member).1
    rw [keeping_append, none, List.nil_append]
    exact staffed.accounted
  · intro e a rest ts log _ pending sound staffed
    have sound := sound.sound pending
    refine ⟨fun b => perform_manned sound (staffed.manned b), ?_⟩
    have even := perform_accounts sound staffed.manned
    have before := staffed.accounted
    rw [← List.singleton_append, keeping_append] at before
    change List.Perm _ (_ ++ keeping ((e.perform a).sequel ++ rest))
    rw [List.flatMap_append, List.flatMap_append, keeping_append]
    simp only [List.flatMap_cons, List.flatMap_nil, List.append_nil]
    calc (log.flatMap fun p => openings p.1 p.2) ++ openings e a
      _ ~ (log.flatMap fun p => closings p.1 p.2) ++ (keeping [a] ++ keeping rest) ++
        openings e a :=
        before.append_right _
      _ ~ (log.flatMap fun p => closings p.1 p.2) ++
          ((keeping [a] ++ openings e a) ++ keeping rest) := by
        simp only [List.append_assoc]
        exact (List.perm_append_comm.append_left _).append_left _
      _ ~ (log.flatMap fun p => closings p.1 p.2) ++
          ((closings e a ++ keeping (e.perform a).sequel) ++ keeping rest) :=
        (even.append_right _).append_left _
      _ ~ _ := by simp only [List.append_assoc]; exact List.Perm.refl _

theorem opening_empty {d : Duties} {y : Binding} (sound : e.books.Sound d)
    (here : e.bindings[b]? = some y) (opening : y.phase = .opening) : y.members = [] := by
  refine List.eq_nil_iff_forall_not_mem.mpr fun s member => ?_
  have opened := sound.members_opened b s (by simpa [books, here] using member)
  simp [books, here, opening] at opened

/-! ## What becomes of a binding -/

inductive Refit : Action → BindingId → Binding → Binding → Prop
  | lock {call k s y} (opening : y.phase = .opening) : Refit (.join call k s) k y y.lock
  | enter {call k s y} (opened : y.phase = .opened) : Refit (.join call k s) k y (y.gain s)
  | refuse {call k s y} (opened : y.phase = .opened) :
      Refit (.join call k s) k y ((y.gain s).without s)
  | shut {call k s due y} (opening : y.phase = .opening) :
      Refit (.openSource call k s due) k y y.shut
  | found {call k s due y} (opening : y.phase = .opening) :
      Refit (.openSource call k s due) k y (y.opened.gain s)
  | abandon {call k s due y} (opening : y.phase = .opening) :
      Refit (.openSource call k s due) k y ((y.opened.gain s).without s)
  | leave {k s y} : Refit (.leave k s) k y (y.without s)
  | fail {k y} : Refit (.failBinding k) k y y.cleared
  | sweep {k y} : Refit (.sweep k) k y { y.cleared with cancelled := true }

structure Refitted (a : Action) (e e' : Engine) : Prop where
  old : ∀ (k : BindingId) y, e.bindings[k]? = some y →
    ∃ y', e'.bindings[k]? = some y' ∧ (y' = y ∨ Refit a k y y')
  new : ∀ (k : BindingId) y', e.bindings[k]? = none → e'.bindings[k]? = some y' →
    ∃ key, y' = { key := key }

variable {y : Binding}

theorem refitted_same (same : e'.bindings = e.bindings) : Refitted a e e' where
  old k y here := ⟨y, same ▸ here, .inl rfl⟩
  new k y' absent here := by simp [same, absent] at here

theorem refitted_modified {f : Binding → Binding} (modified : e'.bindings = e.bindings.modify k f)
    (refit : ∀ y, e.bindings[k]? = some y → Refit a k y (f y)) : Refitted a e e' where
  old k' y here := by
    by_cases same : k = k'
    · subst same
      exact ⟨f y, by simp [modified, here], .inr (refit y here)⟩
    · exact ⟨y, by rw [modified, List.getElem?_modify_ne _ _ same, here], .inl rfl⟩
  new k' y' absent here := by
    rw [modified, List.getElem?_modify, absent] at here
    simp at here

theorem seek_binding (call : CallId) (s : SubscriptionId) (key : SourceKey)
    (here : e.bindings[k]? = some y) : (e.seek call s key).engine.bindings[k]? = some y := by
  rcases seek_cases e call s key with ⟨b, -, eq⟩ | ⟨-, eq⟩
  · rw [eq, here]
  · have bound := (List.getElem?_eq_some_iff.mp here).1
    simpa [eq, List.getElem?_append_left bound] using here

theorem seek_refitted (call : CallId) (s : SubscriptionId) (key : SourceKey)
    (same : e'.bindings = e.bindings) : Refitted a e (e'.seek call s key).engine where
  old k y here := ⟨y, seek_binding call s key (same ▸ here), .inl rfl⟩
  new k y' absent here := by
    rcases seek_cases e' call s key with ⟨b, -, eq⟩ | ⟨-, eq⟩
    · simp [eq, same, absent] at here
    · have beyond := List.getElem?_eq_none_iff.mp absent
      rw [eq, same, List.getElem?_append_right beyond] at here
      exact ⟨key, List.mem_singleton.mp (List.mem_of_getElem? here)⟩

theorem perform_refitted (sound : e.books.Sound (duties (a :: rest))) :
    Refitted a e (e.perform a).engine := by
  cases a with
  | subscribe call c clientId r =>
    simp only [perform]
    cases prepared : e.prepare c clientId r with
    | error fault => exact refitted_same rfl
    | ok found =>
      obtain ⟨s, key, e'⟩ := found
      obtain ⟨_, -, -, -, -, made⟩ := prepare_ok e prepared
      exact seek_refitted call s key (by rw [made])
  | join call k s =>
    obtain ⟨z, there, -, -⟩ := seeker_binding sound rfl
    obtain ⟨x, found, -⟩ := seeker_pending sound rfl
    have only {y : Binding} (here : e.bindings[k]? = some y) : z = y := by
      simpa [there] using here
    simp only [perform]
    rcases joinBinding_cases call s there with ⟨-, eq⟩ | ⟨opened, -, eq⟩ | ⟨-, -, eq⟩ |
      ⟨opening, eq⟩
    · exact eq ▸ seek_refitted call s z.key rfl
    · obtain ⟨f, modified, change, -⟩ := enter_bindings call k [] found
      refine eq ▸ refitted_modified modified fun y here => ?_
      obtain rfl := only here
      rcases change with rfl | rfl
      · exact .enter opened
      · exact .refuse opened
    · exact eq ▸ refitted_same rfl
    · refine eq ▸ refitted_modified (f := Binding.lock) rfl fun y here => ?_
      obtain rfl := only here
      exact .lock opening
  | openSource call k s due =>
    obtain ⟨z, there, -, -⟩ := seeker_binding sound rfl
    obtain ⟨x, found, -⟩ := seeker_pending sound rfl
    have opening (y : Binding) (here : e.bindings[k]? = some y) : y.phase = .opening :=
      opener_phase sound rfl here
    simp only [perform]
    rcases openBinding_cases call s there with ⟨fault, hub, -, eq⟩ | ⟨c, hub, -, -, eq⟩ |
      ⟨c, hub, -, -, eq⟩
    · exact eq ▸ refitted_modified (f := Binding.shut) rfl fun y here => .shut (opening y here)
    · rw [eq]
      let source : Engine := ({ e with hub := hub } : Engine).updateBinding k Binding.opened
      obtain ⟨f, modified, change, -⟩ :=
        enter_bindings (e := source) (x := x) call k [[.consume k c .news]] found
      have both : (source.enter call k s [[.consume k c .news]]).engine.bindings =
          e.bindings.modify k (f ∘ Binding.opened) := modified.trans (List.modify_modify_eq ..)
      refine refitted_modified both fun y here => ?_
      rcases change with rfl | rfl
      · exact .found (opening y here)
      · exact .abandon (opening y here)
    · exact eq ▸ refitted_modified (f := Binding.shut) rfl fun y here => .shut (opening y here)
  | leave k s => exact refitted_modified (leave_bindings e k s) fun _ _ => .leave
  | failBinding k => exact refitted_modified (empty_bindings e k) fun _ _ => .fail
  | sweep k => exact refitted_modified (sweep_bindings e k) fun _ _ => .sweep
  | _ => exact refitted_same (perform_bindings e _ rfl)

/-! ## Out of use for good -/

/-- What may become of a binding: it never is again what it was before, and its key
stays. -/
structure Ages (y y' : Binding) : Prop where
  opening : y'.phase = .opening → y.phase = .opening
  closed : y.phase = .closed → y'.phase = .closed
  cancelled : y.cancelled = true → y'.cancelled = true
  key : y'.key = y.key

theorem ages_refl (y : Binding) : Ages y y := ⟨id, id, id, rfl⟩

theorem ages_trans {y y' y'' : Binding} (first : Ages y y') (second : Ages y' y'') : Ages y y'' :=
  ⟨first.opening ∘ second.opening, second.closed ∘ first.closed, second.cancelled ∘ first.cancelled,
    second.key.trans first.key⟩

theorem ages_shut (y : Binding) : Ages y y.shut :=
  ⟨fun opening => by simp [Binding.shut] at opening, fun _ => rfl, id, rfl⟩

theorem ages_gain (y : Binding) (s : SubscriptionId) : Ages y (y.gain s) := ⟨id, id, id, rfl⟩

theorem ages_opened (opening : y.phase = .opening) : Ages y y.opened :=
  ⟨fun _ => opening, fun closed => by simp [opening] at closed, id, rfl⟩

theorem ages_without (y : Binding) (s : SubscriptionId) : Ages y (y.without s) := by
  rw [Binding.without]
  split
  · exact ⟨fun opening => by simp [Binding.stop, Binding.shut] at opening,
      fun _ => rfl, fun _ => rfl, rfl⟩
  · exact ⟨id, id, id, rfl⟩

theorem refit_ages {y' : Binding} (refit : Refit a k y y') : Ages y y' := by
  cases refit with
  | lock => exact ⟨id, id, id, rfl⟩
  | enter => exact ages_gain y _
  | refuse => exact ages_trans (ages_gain y _) (ages_without _ _)
  | shut => exact ages_shut y
  | found opening => exact ages_trans (ages_opened opening) (ages_gain _ _)
  | abandon opening =>
    exact ages_trans (ages_opened opening) (ages_trans (ages_gain _ _) (ages_without _ _))
  | leave => exact ages_without y _
  | fail => exact ⟨nofun, fun _ => rfl, id, rfl⟩
  | sweep => exact ⟨nofun, fun _ => rfl, fun _ => rfl, rfl⟩

theorem perform_lasts (sound : e.books.Sound (duties (a :: rest)))
    (here : e.bindings[b]? = some y) :
    ∃ y', (e.perform a).engine.bindings[b]? = some y' ∧ Ages y y' := by
  obtain ⟨y', there, rfl | refit⟩ := (perform_refitted sound).old b y here
  · exact ⟨y', there, ages_refl y'⟩
  · exact ⟨y', there, refit_ages refit⟩

def Shut (e : Engine) (b : BindingId) : Prop := ∃ y, e.bindings[b]? = some y ∧ y.phase = .closed

theorem perform_shut (sound : e.books.Sound (duties (a :: rest))) (shut : Shut e b) :
    Shut (e.perform a).engine b := by
  obtain ⟨y, here, closed⟩ := shut
  obtain ⟨y', there, ages⟩ := perform_lasts sound here
  exact ⟨y', there, ages.closed closed⟩

theorem shut_fanOut (event : BrokerEvent) (shut : Shut e b) : e.fanOut b event = (0, e) := by
  obtain ⟨y, here, closed⟩ := shut
  simp [fanOut, here, closed]

/-- A binding is out of use and no step has let anything through it. -/
structure Silenced (b : BindingId) (e : Engine) (_ : List Action) (log : Steps) : Prop where
  shut : Shut e b
  silent : ∀ p ∈ log, ∀ call? event, p.2 = .fanOut call? b event → p.1.fanOut b event = (0, p.1)

theorem silenced_upheld (b : BindingId) :
    Upheld Accounted fun e ts log => Silenced b e ts.flatten log := by
  refine upheld_pending ?_ ?_ ?_
  · rintro e p q log - ⟨shut, silent⟩
    exact ⟨shut, silent⟩
  · rintro e ts log i - ⟨shut, silent⟩
    exact ⟨by simpa only [Shut, (input_apart e i).bindings] using shut, silent⟩
  · rintro e a rest ts log - pending sound ⟨shut, silent⟩
    refine ⟨perform_shut (sound.sound pending) shut, fun p member => ?_⟩
    rcases List.mem_append.mp member with old | new
    · exact silent p old
    · obtain rfl := List.mem_singleton.mp new
      intro call? event _
      exact shut_fanOut event shut

/-! ## At rest -/

/-- Nothing is left to the tasks of consumers: none has one to close, and none looks after a
binding that has been stopped. -/
def World.consumersRun (w : World) : Bool := w.pending.all fun
  | .closeConsumer _ => false
  | .consume b _ _ => match w.state.bindings[b]? with
    | some y => !y.cancelled
    | none => false
  | _ => true

def running (pool : List Action) : List (BindingId × ConsumerId) :=
  pool.filterMap fun
    | .consume b c _ => some (b, c)
    | _ => none

theorem mem_running {c : ConsumerId} :
    (b, c) ∈ running pool ↔ .watches c ∈ guards b pool := by
  simp only [running, guards, List.mem_filterMap]
  constructor
  · rintro ⟨a, member, reads⟩
    refine ⟨a, member, ?_⟩
    cases a <;> simp_all [Action.guard?]
  · rintro ⟨a, member, reads⟩
    refine ⟨a, member, ?_⟩
    cases a with
    | consume k c' w =>
      by_cases same : k = b
      · simpa [Action.guard?, same] using reads
      · simp [Action.guard?, same] at reads
    | failBinding k => simp [Action.guard?] at reads
    | _ => simp [Action.guard?] at reads

theorem running_nodup (alone : ∀ b, (guards b pool).length ≤ 1) :
    ((running pool).map (·.1)).Nodup := by
  induction pool with
  | nil => exact List.nodup_nil
  | cons a rest ih =>
    have fewer (b : BindingId) : (guards b rest).length ≤ 1 := by
      refine Nat.le_trans ?_ (alone b)
      exact ((List.sublist_cons_self a rest).filterMap _).length_le
    cases a with
    | consume k c w =>
      have first : running (.consume k c w :: rest) = (k, c) :: running rest := rfl
      rw [first, List.map_cons]
      refine List.nodup_cons.mpr ⟨fun again => ?_, ih fewer⟩
      obtain ⟨⟨k', c'⟩, member, rfl⟩ := List.mem_map.mp again
      have few := alone k'
      have both : guards k' (.consume k' c w :: rest) = .watches c :: guards k' rest := by
        simp [guards, Action.guard?]
      have some := List.length_pos_of_mem (mem_running.mp member)
      rw [both, List.length_cons] at few
      omega
    | _ => exact ih fewer

theorem keeping_running {w : World} (run : w.consumersRun = true) :
    keeping w.pending = (running w.pending).map (·.2) := by
  have none (a : Action) (member : a ∈ w.pending) (c : ConsumerId) : a ≠ .closeConsumer c := by
    rintro rfl
    simpa using List.all_eq_true.mp run _ member
  generalize w.pending = pool at none
  induction pool with
  | nil => rfl
  | cons a rest ih =>
    have later := ih fun a member => none a (List.mem_cons_of_mem _ member)
    cases a with
    | consume b c w => exact congrArg (c :: ·) later
    | closeConsumer c => exact absurd rfl (none _ (List.mem_cons_self ..) c)
    | _ => exact later

theorem rest_bindings {w : World} {log : Steps} (sound : w.state.books.Sound (duties w.pending))
    (staffed : Staffed w.state w.pending log) (quiet : w.atRest = true)
    (run : w.consumersRun = true) :
    (∀ key b, (key, b) ∈ w.state.listed → ∃ y, w.state.bindings[b]? = some y ∧ y.key = key ∧
      y.phase = .opened ∧ y.members ≠ []) ∧
    ((running w.pending).map (·.1)).Perm (w.state.listed.map (·.2)) := by
  have idle (a : Action) (member : a ∈ w.pending) : a.inCall = false := by
    simpa using List.all_eq_true.mp quiet a member
  have unsought (b : BindingId) : seekers b w.pending = [] := by
    refine List.filterMap_eq_nil_iff.mpr fun a member => ?_
    have outside := idle a member
    cases a with
    | join | openSource => cases outside
    | _ => rfl
  have inUse (key : SourceKey) (b : BindingId) (listed : (key, b) ∈ w.state.listed) :
      ∃ y, w.state.bindings[b]? = some y ∧ y.key = key ∧ y.phase = .opened := by
    obtain ⟨source, stage⟩ := (sound.listed_iff key b).mp listed
    cases read : w.state.bindings[b]? with
    | none => simp [books, read] at source
    | some y =>
      refine ⟨y, rfl, by simpa [books, read] using source, ?_⟩
      have seen : y.phase ≠ .closed := by simpa [books, read] using stage
      have unopening : y.phase ≠ .opening := fun opening =>
        ((staffed.manned b).staffed y read).sought opening (unsought b)
      cases phase : y.phase with
      | opened => rfl
      | opening => exact absurd phase unopening
      | closed => exact absurd phase seen
  refine ⟨fun key b listed => ?_, ?_⟩
  · obtain ⟨y, here, source, opened⟩ := inUse key b listed
    exact ⟨y, here, source, opened, ((staffed.manned b).staffed y here).peopled opened⟩
  · have once : ((running w.pending).map (·.1)).Nodup := by
      refine running_nodup fun b => ?_
      cases read : w.state.bindings[b]? with
      | none => simp [(staffed.manned b).absent read]
      | some y => exact ((staffed.manned b).staffed y read).alone
    have single : (w.state.listed.map (·.2)).Nodup := by
      refine (List.nodup_map_iff_inj_on (List.Nodup.of_map _ sound.listed_nodup)).mpr ?_
      rintro ⟨key, b⟩ listed ⟨key', b'⟩ listed' (rfl : b = b')
      have source := ((sound.listed_iff key b).mp listed).1
      have source' := ((sound.listed_iff key' b).mp listed').1
      rw [source] at source'
      injection source' with same
      rw [same]
    refine (List.perm_ext_iff_of_nodup once single).mpr fun b => ?_
    constructor
    · intro looked
      obtain ⟨⟨b, c⟩, member, rfl⟩ := List.mem_map.mp looked
      have watched := mem_running.mp member
      cases read : w.state.bindings[b]? with
      | none =>
        rw [(staffed.manned b).absent read] at watched
        simp at watched
      | some y =>
        obtain ⟨a, pending, reads⟩ := List.mem_filterMap.mp member
        have unstopped : y.cancelled = false := by
          have runs := List.all_eq_true.mp run a pending
          cases a <;> simp_all
        rcases ((staffed.manned b).staffed y read).watched c watched with opened | stopped
        · refine List.mem_map.mpr ⟨(y.key, b), (sound.listed_iff y.key b).mpr ?_, rfl⟩
          simp [books, read, opened]
        · simp [unstopped] at stopped
    · intro member
      obtain ⟨⟨key, b⟩, listed, rfl⟩ := List.mem_map.mp member
      obtain ⟨y, here, -, opened⟩ := inUse key b listed
      have guarded := ((staffed.manned b).staffed y here).guarded opened
      obtain ⟨g, guard⟩ := List.exists_mem_of_ne_nil _ guarded
      cases g with
      | watches c => exact List.mem_map.mpr ⟨(b, c), mem_running.mpr guard, rfl⟩
      | fails =>
        obtain ⟨a, pending, reads⟩ := List.mem_filterMap.mp guard
        have outside := idle a pending
        cases a with
        | failBinding => cases outside
        | consume k c w => simp [Action.guard?] at reads
        | _ => simp [Action.guard?] at reads

theorem start_staffed (setup : Setup) (hub : Hub) :
    Always (World.start setup hub) fun e ts log =>
      Accounted e ts log ∧ Staffed e ts.flatten log := by
  refine (start_accounted setup hub).and staffed_upheld
      ⟨fun b => ⟨fun _ => rfl, ?_⟩, List.Perm.refl _⟩
  intro y here
  simp [World.start, Engine.start] at here

/-- Whenever no call is in progress and the tasks of consumers have run, there is one binding for a
key, every binding in use is open and has members, and of all consumers that were ever opened those
of the bindings in use are running and each of the others has been closed once. A binding that is
out of use stays so and lets no event through. -/
theorem consumers_accounted (setup : Setup) (hub : Hub) (moves : List Move) :
    let w := (World.start setup hub).play moves
    let opened := (World.start setup hub).record openings moves
    let closed := (World.start setup hub).record closings moves
    (w.atRest = true → w.consumersRun = true →
      (∀ key b, (key, b) ∈ w.state.listed → ∃ y, w.state.bindings[b]? = some y ∧ y.key = key ∧
        y.phase = .opened ∧ y.members ≠ []) ∧
      (w.state.listed.map (·.1)).Nodup ∧
      opened.length = closed.length + w.state.listed.length ∧
      ((running w.pending).map (·.1)).Perm (w.state.listed.map (·.2)) ∧
      opened.Perm (closed ++ (running w.pending).map (·.2))) ∧
    ∀ b later, Shut w.state b → Shut (w.play later).state b ∧
      ∀ p ∈ w.steps later, ∀ call? event, p.2 = .fanOut call? b event →
        p.1.fanOut b event = (0, p.1) := by
  intro w opened closed
  obtain ⟨sound, staffed⟩ := (start_staffed setup hub).throughout moves
  have openedSteps := (World.start setup hub).record_steps openings moves
  have closedSteps := (World.start setup hub).record_steps closings moves
  refine ⟨fun quiet run => ?_, fun b later shut => ?_⟩
  · obtain ⟨inUse, alike⟩ := rest_bindings sound staffed quiet run
    have even : opened.Perm (closed ++ (running w.pending).map (·.2)) := by
      have accounted := staffed.accounted
      rw [← openedSteps, ← closedSteps] at accounted
      rw [← keeping_running run]
      exact accounted
    refine ⟨inUse, sound.listed_nodup, ?_, alike, even⟩
    have many := alike.length_eq
    have total := even.length_eq
    simp only [List.length_map, List.length_append] at many total
    rw [total, many]
  · have known : Always w Accounted := accounted_always sound
    have always := known.and (silenced_upheld b) ⟨shut, fun p member => by simp at member⟩
    obtain ⟨still, silent⟩ := (always.throughout later).2
    exact ⟨still, silent⟩

def staffParting : List Move :=
  staffMoves ++ [.input (.call (.release 0))] ++ staffRelease ++
    [.step 2, .step 2, .step 0, .step 0, .step 0]

theorem staff_consumers_accounted :
    ((World.start staffSetup staffHub).record openings staffParting).length =
      ((World.start staffSetup staffHub).record closings staffParting).length +
        ((World.start staffSetup staffHub).play staffParting).state.listed.length ∧
    ((World.start staffSetup staffHub).record openings staffParting).Perm
      ((World.start staffSetup staffHub).record closings staffParting ++
        (running ((World.start staffSetup staffHub).play staffParting).pending).map (·.2)) ∧
    (World.start staffSetup staffHub).record openings staffParting = [0] ∧
    ∀ later, Shut (((World.start staffSetup staffHub).play staffParting).play later).state 0 := by
  have accounted := consumers_accounted staffSetup staffHub staffParting
  obtain ⟨-, -, many, -, even⟩ := accounted.1 (by decide +kernel) (by decide +kernel)
  have phase : ((World.start staffSetup staffHub).play staffParting).state.bindings[0]?.map
      (·.phase) = some .closed := by decide +kernel
  obtain ⟨y, here, shut⟩ := Option.map_eq_some_iff.mp phase
  refine ⟨many, even, by decide +kernel, fun later => ?_⟩
  exact (accounted.2 0 later ⟨y, here, shut⟩).1

end Engine

end SubscriptionGateway
