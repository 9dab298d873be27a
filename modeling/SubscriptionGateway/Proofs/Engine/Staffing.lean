import SubscriptionGateway.Proofs.Engine.Agreement
import SubscriptionGateway.Proofs.Engine.Desks
import SubscriptionGateway.Proofs.Engine.Steps

/-!
Who looks after a binding. A binding in use has members and one task that looks after its consumer;
a binding that is being opened has somebody who seeks it. Each action keeps this for every binding.
-/
namespace SubscriptionGateway

open Broker

namespace Engine

/-! ## Who looks after a binding -/

inductive Guard where
  | watches (c : ConsumerId)
  /-- Its consumer has come to an end, and it has still to be told. -/
  | fails

namespace Action

def guard? (b : BindingId) : Action → Option Guard
  | .consume k c _ => if k = b then some (.watches c) else none
  | .failBinding k => if k = b then some .fails else none
  | _ => none

def seeker? (b : BindingId) : Action → Option SubscriptionId
  | .join _ k s => if k = b then some s else none
  | .openSource _ k s _ => if k = b then some s else none
  | _ => none

/-- The consumer that it will yet see closed. -/
def keeps? : Action → Option ConsumerId
  | .consume _ c _ => some c
  | .closeConsumer c => some c
  | _ => none

end Action

def guards (b : BindingId) (pool : List Action) : List Guard := pool.filterMap (Action.guard? b)

def seekers (b : BindingId) (pool : List Action) : List SubscriptionId :=
  pool.filterMap (Action.seeker? b)

def keeping (pool : List Action) : List ConsumerId := pool.filterMap Action.keeps?

end Engine

open Engine

structure Binding.Staffed (y : Binding) (seekers : List SubscriptionId) (guards : List Guard) :
    Prop where
  peopled : y.phase = .opened → y.members ≠ []
  stopped : y.cancelled = true → y.phase = .closed
  sought : y.phase = .opening → seekers ≠ []
  guarded : y.phase = .opened → guards ≠ []
  settled : guards ≠ [] → y.phase ≠ .opening
  watched : ∀ c, .watches c ∈ guards → y.phase = .opened ∨ y.cancelled = true
  alone : guards.length ≤ 1

namespace Binding.Staffed

variable {y : Binding} {ss ss' : List SubscriptionId} {gs gs' : List Guard} {s : SubscriptionId}

theorem resought (staffed : y.Staffed ss gs) (still : y.phase = .opening → ss' ≠ []) :
    y.Staffed ss' gs := { staffed with sought := still }

theorem lock (staffed : y.Staffed ss gs) : y.lock.Staffed ss gs := { staffed with }

theorem gain (staffed : y.Staffed ss gs) : (y.gain s).Staffed ss gs :=
  { staffed with peopled := fun _ => by simp [Binding.gain] }

theorem of_guards (same : gs.Perm gs') (staffed : y.Staffed ss gs) : y.Staffed ss gs' where
  peopled := staffed.peopled
  stopped := staffed.stopped
  sought := staffed.sought
  guarded opened none := staffed.guarded opened (by
    rw [none] at same
    exact same.eq_nil)
  settled some := staffed.settled fun none => some (by
    rw [none] at same
    exact same.nil_eq.symm)
  watched c member := staffed.watched c (same.mem_iff.mpr member)
  alone := same.length_eq ▸ staffed.alone

theorem without_opened (opened : y.phase = .opened) (running : y.cancelled = false)
    (guarded : gs ≠ []) (alone : gs.length ≤ 1) : (y.without s).Staffed ss gs := by
  rw [Binding.without]
  by_cases idle : Engine.Binding.isIdle (y.drop s) = true
  · rw [if_pos idle]
    exact {
      peopled := fun opened => by simp [stop, shut] at opened
      stopped := fun _ => rfl
      sought := fun opening => by simp [stop, shut] at opening
      guarded := fun opened => by simp [stop, shut] at opened
      settled := fun _ opening => by simp [stop, shut] at opening
      watched := fun _ _ => .inr rfl
      alone := alone }
  · rw [if_neg idle]
    have phase : (y.drop s).phase = .opened := opened
    have busy : (y.drop s).members ≠ [] := fun none => idle ((isIdle_iff _).mpr ⟨none, phase⟩)
    exact {
      peopled := fun _ => busy
      stopped := fun stopped => by simp [drop, running] at stopped
      sought := fun opening => by simp [phase] at opening
      guarded := fun _ => guarded
      settled := fun _ => by simp [phase]
      watched := fun _ _ => .inl phase
      alone := alone }

theorem running (staffed : y.Staffed ss gs) (opened : y.phase ≠ .closed) : y.cancelled = false :=
  Bool.eq_false_iff.mpr fun stopped => opened (staffed.stopped stopped)

theorem without (staffed : y.Staffed ss gs) : (y.without s).Staffed ss gs := by
  cases phase : y.phase with
  | opened =>
    exact without_opened phase (staffed.running (by simp [phase])) (staffed.guarded phase)
      staffed.alone
  | opening | closed =>
    have busy : ¬ Engine.Binding.isIdle (y.drop s) = true := fun idle => by
      have opened := ((isIdle_iff _).mp idle).2
      simp [drop, phase] at opened
    rw [Binding.without, if_neg busy]
    exact { staffed with peopled := fun opened => by simp [drop, phase] at opened }

/-- An opening binding is looked after by nobody, so whoever opens it may be the one. -/
theorem unguarded (staffed : y.Staffed ss gs) (opening : y.phase = .opening) : gs = [] := by
  by_contra some
  exact staffed.settled some opening

theorem shut (staffed : y.Staffed ss gs) (opening : y.phase = .opening) :
    y.shut.Staffed ss' gs := by
  have none := staffed.unguarded opening
  exact {
    peopled := fun opened => by simp [Binding.shut] at opened
    stopped := fun _ => rfl
    sought := fun opening => by simp [Binding.shut] at opening
    guarded := fun opened => by simp [Binding.shut] at opened
    settled := fun some => absurd none some
    watched := fun c member => by simp [none] at member
    alone := staffed.alone }

theorem cleared (staffed : y.Staffed ss (.fails :: gs)) : y.cleared.Staffed ss' gs := by
  have none : gs = [] := List.eq_nil_of_length_eq_zero (by
    have := staffed.alone
    simp only [List.length_cons] at this
    omega)
  exact {
    peopled := fun opened => by simp [Binding.cleared, Binding.shut] at opened
    stopped := fun _ => rfl
    sought := fun opening => by simp [Binding.cleared, Binding.shut] at opening
    guarded := fun opened => by simp [Binding.cleared, Binding.shut] at opened
    settled := fun some => absurd none some
    watched := fun c member => by simp [none] at member
    alone := by simp [none] }

theorem swept (staffed : y.Staffed ss gs) :
    ({ y.cleared with cancelled := true } : Binding).Staffed ss' gs where
  peopled opened := by simp [Binding.cleared, Binding.shut] at opened
  stopped _ := rfl
  sought opening := by simp [Binding.cleared, Binding.shut] at opening
  guarded opened := by simp [Binding.cleared, Binding.shut] at opened
  settled _ opening := by simp [Binding.cleared, Binding.shut] at opening
  watched _ _ := .inr rfl
  alone := staffed.alone

end Binding.Staffed

namespace Engine

variable {e e' : Engine} {a : Action} {b k : BindingId} {s : SubscriptionId}
  {pool pool' rest : List Action} {log : Steps}

/-- A binding is staffed, and what is not there is looked after by nobody. -/
structure Manned (e : Engine) (pool : List Action) (b : BindingId) : Prop where
  absent : e.bindings[b]? = none → guards b pool = []
  staffed : ∀ y, e.bindings[b]? = some y → y.Staffed (seekers b pool) (guards b pool)

theorem guards_append (p q : List Action) : guards b (p ++ q) = guards b p ++ guards b q :=
  List.filterMap_append

theorem seekers_append (p q : List Action) : seekers b (p ++ q) = seekers b p ++ seekers b q :=
  List.filterMap_append

theorem Manned.spared (manned : Manned e pool b) (same : e'.bindings[b]? = e.bindings[b]?)
    (guarding : guards b pool' = guards b pool)
    (seeking : ∀ y, e.bindings[b]? = some y → y.phase = .opening → seekers b pool' ≠ []) :
    Manned e' pool' b where
  absent none := guarding ▸ manned.absent (same ▸ none)
  staffed y here := by
    have here : e.bindings[b]? = some y := same ▸ here
    rw [guarding]
    exact (manned.staffed y here).resought (seeking y here)

theorem Manned.changed (manned : Manned e pool b) {f : Binding → Binding}
    (modified : e'.bindings = e.bindings.modify k f)
    (guarding : k ≠ b → guards b pool' = guards b pool)
    (seeking : k ≠ b → seekers b pool ≠ [] → seekers b pool' ≠ [])
    (staffed : k = b → ∀ y, e.bindings[b]? = some y → y.Staffed (seekers b pool) (guards b pool) →
      (f y).Staffed (seekers b pool') (guards b pool'))
    (absent : k = b → e.bindings[b]? ≠ none) : Manned e' pool' b := by
  by_cases here : k = b
  · subst here
    refine ⟨fun none => ?_, fun y found => ?_⟩
    · rw [modified, List.getElem?_modify_eq] at none
      exact absurd (by simpa using none) (absent rfl)
    · rw [modified, List.getElem?_modify_eq] at found
      obtain ⟨y, before, rfl⟩ : ∃ y', e.bindings[k]? = some y' ∧ f y' = y := by simpa using found
      exact staffed rfl y before (manned.staffed y before)
  · refine manned.spared ?_ (guarding here) fun y found opening => ?_
    · rw [modified, List.getElem?_modify_ne _ _ here]
    · exact seeking here ((manned.staffed y found).sought opening)

theorem Manned.passed (manned : Manned e (a :: rest) b)
    (same : (e.perform a).engine.bindings = e.bindings)
    (mute : a.guard? b = none ∧ a.seeker? b = none)
    (silent : ∀ a', a.Brings a' → a'.guard? b = none) :
    Manned (e.perform a).engine ((e.perform a).sequel ++ rest) b := by
  refine manned.spared (by rw [same]) ?_ fun y here opening => ?_
  · have none : guards b (e.perform a).sequel = [] := sequel_silent silent
    rw [guards_append, none]
    simp [guards, mute.1]
  · have before : seekers b (a :: rest) ≠ [] := (manned.staffed y here).sought opening
    have still : seekers b (a :: rest) = seekers b rest := by simp [seekers, mute.2]
    rw [seekers_append]
    exact List.append_ne_nil_of_right_ne_nil _ (still ▸ before)

/-! ## Subscribing -/

theorem Manned.quit (manned : Manned e (a :: rest) b) (mute : a.guard? b = none)
    (seen : a.seeker? b ≠ none → ∀ y, e.bindings[b]? = some y → y.phase ≠ .opening) :
    Manned e rest b := by
  refine manned.spared rfl (by simp [guards, mute]) fun y here opening => ?_
  have others : a.seeker? b = none := by
    by_contra seeks
    exact seen seeks y here opening
  have before := (manned.staffed y here).sought opening
  simpa [seekers, others] using before

theorem seek_manned (call : CallId) (s : SubscriptionId) (key : SourceKey)
    (manned : Manned e rest b) :
    Manned (e.seek call s key).engine ((e.seek call s key).sequel ++ rest) b := by
  rcases seek_cases e call s key with ⟨k, -, eq⟩ | ⟨-, eq⟩
  · rw [eq]
    refine manned.spared rfl rfl fun y here opening => ?_
    rw [seekers_append]
    exact List.append_ne_nil_of_right_ne_nil _ ((manned.staffed y here).sought opening)
  · rw [eq]
    by_cases new : b = e.bindings.length
    · subst new
      have nobody := manned.absent (by simp)
      refine ⟨fun none => by simp at none, fun y found => ?_⟩
      obtain rfl : { key := key } = y := by simpa using found
      have staffed : ({ key := key } : Binding).Staffed
          (seekers e.bindings.length (.join call e.bindings.length s :: rest)) [] := {
        peopled := fun opened => by simp at opened
        stopped := fun stopped => by simp at stopped
        sought := fun _ => by simp [seekers, Action.seeker?]
        guarded := fun opened => by simp at opened
        settled := fun some => absurd rfl some
        watched := fun c member => by simp at member
        alone := Nat.zero_le _ }
      rw [← nobody] at staffed
      exact staffed
    · refine manned.spared ?_ rfl fun y here opening => ?_
      · have same : (e.bindings ++ [({ key := key } : Binding)])[b]? = e.bindings[b]? := by
          rcases Nat.lt_or_ge b e.bindings.length with bound | beyond
          · rw [List.getElem?_append_left bound]
          · have later : e.bindings.length + 1 ≤ b := Nat.lt_of_le_of_ne beyond (Ne.symm new)
            rw [List.getElem?_eq_none beyond, List.getElem?_eq_none (by simpa using later)]
        exact same
      · rw [seekers_append]
        exact List.append_ne_nil_of_right_ne_nil _ ((manned.staffed y here).sought opening)

theorem subscribe_manned {call : CallId} {c : ConnectionId} {clientId : String} {r : Request}
    (manned : Manned e (.subscribe call c clientId r :: rest) b) :
    let f := e.perform (.subscribe call c clientId r)
    Manned f.engine (f.sequel ++ rest) b := by
  have rested : Manned e rest b := manned.quit rfl fun seeks => absurd rfl seeks
  simp only [perform]
  cases prepared : e.prepare c clientId r with
  | error fault => exact rested.spared rfl rfl fun y here opening =>
      (rested.staffed y here).sought opening
  | ok found =>
    obtain ⟨s, key, e'⟩ := found
    obtain ⟨compiled, -, -, -, -, rfl⟩ := prepare_ok e prepared
    refine seek_manned call s key ?_
    exact rested.spared rfl rfl fun y here opening => (rested.staffed y here).sought opening

theorem join_manned {call : CallId} (sound : e.books.Sound (duties (.join call k s :: rest)))
    (manned : Manned e (.join call k s :: rest) b) :
    let f := e.perform (.join call k s)
    Manned f.engine (f.sequel ++ rest) b := by
  obtain ⟨y, here, -, -⟩ := seeker_binding sound rfl
  obtain ⟨x, found, -⟩ := seeker_pending sound rfl
  have rested (seen : y.phase ≠ .opening) : Manned e rest b := by
    refine manned.quit rfl fun seeks y' there => ?_
    obtain rfl : k = b := by
      by_contra other
      simp [Action.seeker?, other] at seeks
    obtain rfl : y = y' := by simpa [here] using there
    exact seen
  simp only [perform, joinBinding, here]
  cases phase : y.phase with
  | closed =>
    have rested := rested (by simp [phase])
    refine seek_manned (e := e.unlist k) call s y.key ?_
    exact rested.spared rfl rfl fun y here opening => (rested.staffed y here).sought opening
  | opened =>
    have rested := rested (by simp [phase])
    simp only
    split
    · obtain ⟨f, bindings, change, sequel⟩ := enter_bindings call k [] found
      have mute : guards b (e.enter call k s []).sequel = [] := by
        rcases sequel with eq | eq <;> simp [eq, guards, Action.guard?]
      refine rested.changed bindings (fun _ => ?_) (fun _ some => ?_) (fun _ y' there staffed => ?_)
        fun same => ?_
      · rw [guards_append, mute, List.nil_append]
      · rw [seekers_append]
        exact List.append_ne_nil_of_right_ne_nil _ some
      · have kept : (f y').Staffed (seekers b rest) (guards b rest) := by
          rcases change with rfl | rfl
          · exact staffed.gain
          · exact staffed.gain.without
        rw [guards_append, mute, List.nil_append]
        refine kept.resought fun opening => ?_
        rw [seekers_append]
        exact List.append_ne_nil_of_right_ne_nil _ (kept.sought opening)
      · simp [← same, here]
    · exact rested.spared rfl rfl fun y here opening => (rested.staffed y here).sought opening
  | opening =>
    have seeking (due : Nat) :
        seekers b ([.openSource call k s due] ++ rest) = seekers b (.join call k s :: rest) := by
      simp [seekers, List.filterMap_cons, Action.seeker?]
    have guarding (due : Nat) :
        guards b ([.openSource call k s due] ++ rest) = guards b (.join call k s :: rest) := by
      simp [guards, List.filterMap_cons, Action.guard?]
    refine manned.changed (f := Binding.lock) (k := k) rfl (fun _ => ?_) (fun _ some => ?_)
      (fun _ y' _ staffed => ?_) fun same => ?_
    · exact guarding _
    · exact (seeking _).symm ▸ some
    · simp only [Effect.sequel, List.flatten_nil, List.append_nil]
      rw [seeking, guarding]
      exact staffed.lock
    · simp [← same, here]

theorem Manned.elsewhere (manned : Manned e (a :: rest) b) {f : Binding → Binding}
    {new : List Action}
    (modified : e'.bindings = e.bindings.modify k f) (other : k ≠ b)
    (mute : a.guard? b = none ∧ a.seeker? b = none) (silent : guards b new = []) :
    Manned e' (new ++ rest) b := by
  refine manned.spared ?_ ?_ fun y here opening => ?_
  · rw [modified, List.getElem?_modify_ne _ _ other]
  · rw [guards_append, silent]
    simp [guards, mute.1]
  · have before := (manned.staffed y here).sought opening
    rw [seekers_append]
    exact List.append_ne_nil_of_right_ne_nil _ (by simpa [seekers, mute.2] using before)

theorem Manned.here {f : Binding → Binding} {new : List Action} {y : Binding}
    (modified : e'.bindings = e.bindings.modify b f) (found : e.bindings[b]? = some y)
    (staffed : (f y).Staffed (seekers b (new ++ rest)) (guards b (new ++ rest))) :
    Manned e' (new ++ rest) b where
  absent none := by
    rw [modified, List.getElem?_modify_eq, found] at none
    simp at none
  staffed z there := by
    rw [modified, List.getElem?_modify_eq, found] at there
    obtain rfl : f y = z := by simpa using there
    exact staffed

theorem openSource_manned {call : CallId} {due : Nat}
    (sound : e.books.Sound (duties (.openSource call k s due :: rest)))
    (manned : Manned e (.openSource call k s due :: rest) b) :
    let f := e.perform (.openSource call k s due)
    Manned f.engine (f.sequel ++ rest) b := by
  obtain ⟨y, here, -, -⟩ := seeker_binding sound rfl
  obtain ⟨x, found, -⟩ := seeker_pending sound rfl
  have opening : y.phase = .opening := opener_phase sound rfl here
  have shut {f : Effect} (bindings : f.engine.bindings = e.bindings.modify k Binding.shut)
      (sequel : f.sequel = []) : Manned f.engine (f.sequel ++ rest) b := by
    rw [sequel]
    by_cases same : k = b
    · subst same
      refine Manned.here bindings here ?_
      exact (manned.staffed y here).shut opening
    · exact manned.elsewhere bindings same ⟨rfl, by simp [Action.seeker?, same]⟩ rfl
  simp only [perform]
  rcases openBinding_cases call s here with ⟨fault, hub, -, eq⟩ | ⟨c, hub, -, -, eq⟩ |
    ⟨c, hub, -, -, eq⟩
  · rw [eq]
    exact shut rfl rfl
  · have found' :
      (({ e with hub := hub } : Engine).updateBinding k Binding.opened).subscribers[s]? =
        some x := found
    obtain ⟨f, bindings, change, sequel⟩ := enter_bindings call k [[.consume k c .news]] found'
    rw [eq]
    have whole :
      (({ e with hub := hub } : Engine).updateBinding k Binding.opened).bindings.modify k f =
        e.bindings.modify k (f ∘ Binding.opened) := List.modify_modify_eq ..
    rw [whole] at bindings
    by_cases same : k = b
    · subst same
      refine Manned.here bindings here ?_
      have unguarded := (manned.staffed y here).unguarded opening
      have guarding : guards k (((({ e with hub := hub } : Engine).updateBinding k
          Binding.opened).enter call k s [[.consume k c .news]]).sequel ++ rest) =
          [.watches c] := by
        rw [guards_append, show guards k rest = [] from unguarded]
        rcases sequel with eq | eq <;> simp [eq, guards, Action.guard?]
      have running : y.opened.cancelled = false :=
        (manned.staffed y here).running (by simp [opening])
      have left (z : Binding) (phase : z.phase = .opened) (running : z.cancelled = false) :
          (z.without s).Staffed (seekers k (((({ e with hub := hub } : Engine).updateBinding k
            Binding.opened).enter call k s [[.consume k c .news]]).sequel ++ rest)) [.watches c] :=
        Binding.Staffed.without_opened phase running (by simp) (by simp)
      rw [guarding]
      rcases change with rfl | rfl
      · exact {
          peopled := fun _ => by simp [Binding.gain]
          stopped := fun stopped => by simp [Binding.gain, running] at stopped
          sought := fun opening => by simp [Binding.gain, Binding.opened] at opening
          guarded := fun _ => by simp
          settled := fun _ opening => by simp [Binding.gain, Binding.opened] at opening
          watched := fun _ _ => .inl rfl
          alone := by simp }
      · exact left (y.opened.gain s) rfl running
    · refine manned.elsewhere bindings same ⟨rfl, by simp [Action.seeker?, same]⟩ ?_
      rcases sequel with eq | eq <;> simp [eq, guards, Action.guard?, same]
  · rw [eq]
    exact shut rfl rfl

/-! ## Going out of use -/

theorem leave_manned (manned : Manned e (.leave k s :: rest) b) :
    let f := e.perform (.leave k s)
    Manned f.engine (f.sequel ++ rest) b := by
  have bindings := leave_bindings e k s
  by_cases same : k = b
  · subst same
    cases read : e.bindings[k]? with
    | none =>
      rw [modify_absent _ read] at bindings
      exact manned.passed bindings ⟨rfl, rfl⟩ fun _ brings => brings.elim
    | some y =>
      refine Manned.here bindings read ?_
      exact (manned.staffed y read).without
  · exact manned.elsewhere bindings same ⟨rfl, rfl⟩ rfl

theorem failBinding_manned (manned : Manned e (.failBinding k :: rest) b) :
    let f := e.perform (.failBinding k)
    Manned f.engine (f.sequel ++ rest) b := by
  have bindings := empty_bindings e k
  have mute : guards b (e.perform (.failBinding k)).sequel = [] :=
    sequel_silent (a := .failBinding k) (by rintro b ⟨s, rfl | rfl⟩ <;> rfl)
  by_cases same : k = b
  · subst same
    cases read : e.bindings[k]? with
    | none =>
      have nobody := manned.absent read
      simp [guards, Action.guard?] at nobody
    | some y =>
      refine Manned.here bindings read ?_
      have staffed := manned.staffed y read
      have guarding : guards k (.failBinding k :: rest) = .fails :: guards k rest := by
        simp [guards, Action.guard?]
      rw [guarding] at staffed
      rw [guards_append, mute, List.nil_append]
      exact staffed.cleared
  · exact manned.elsewhere bindings same ⟨by simp [Action.guard?, same], rfl⟩ mute

theorem sweep_manned (manned : Manned e (.sweep k :: rest) b) :
    let f := e.perform (.sweep k)
    Manned f.engine (f.sequel ++ rest) b := by
  have bindings := sweep_bindings e k
  have mute : guards b (e.perform (.sweep k)).sequel = [] :=
    sequel_silent (a := .sweep k) (by rintro b ⟨s, rfl⟩; rfl)
  by_cases same : k = b
  · subst same
    cases read : e.bindings[k]? with
    | none =>
      rw [modify_absent _ read] at bindings
      refine manned.passed bindings ⟨rfl, rfl⟩ ?_
      rintro a ⟨s, rfl⟩
      rfl
    | some y =>
      refine Manned.here bindings read ?_
      rw [guards_append, mute, List.nil_append]
      exact (manned.staffed y read).swept
  · exact manned.elsewhere bindings same ⟨rfl, rfl⟩ mute

/-! ## Consuming -/

theorem consume_manned {c : ConsumerId} {w : Hub.Awaiting}
    (manned : Manned e (.consume k c w :: rest) b) :
    let f := e.perform (.consume k c w)
    Manned f.engine (f.sequel ++ rest) b := by
  have bindings := perform_bindings e (.consume k c w) rfl
  by_cases same : k = b
  · subst same
    cases read : e.bindings[k]? with
    | none =>
      have nobody := manned.absent read
      simp [guards, Action.guard?] at nobody
    | some y =>
      have staffed := manned.staffed y read
      have guarding : guards k (.consume k c w :: rest) = .watches c :: guards k rest := by
        simp [guards, Action.guard?]
      have alone : guards k rest = [] := by
        have few := staffed.alone
        rw [guarding, List.length_cons] at few
        exact List.eq_nil_of_length_eq_zero (by omega)
      have seeking (p : List Action) (some : y.phase = .opening) : seekers k (p ++ rest) ≠ [] := by
        rw [seekers_append]
        exact List.append_ne_nil_of_right_ne_nil _ (staffed.sought some)
      rw [guarding, alone] at staffed
      have goes (f : Effect) (same : f.engine.bindings = e.bindings)
          (mute : f.sequel = [.closeConsumer c] ∧ y.cancelled = true ∨
            guards k f.sequel = [.watches c] ∨ guards k f.sequel = [.fails]) :
          Manned f.engine (f.sequel ++ rest) k := by
        refine ⟨fun none => by simp [same, read] at none, fun z there => ?_⟩
        obtain rfl : y = z := by simpa [same, read] using there
        rw [guards_append, alone, List.append_nil]
        rcases mute with ⟨closes, stopped⟩ | watching | failing
        · rw [closes]
          have closed := staffed.stopped stopped
          exact { staffed with
            sought := seeking _
            guarded := fun opened => by simp [closed] at opened
            settled := fun some => absurd rfl some
            watched := fun c member => by simp [guards, Action.guard?] at member
            alone := Nat.zero_le _ }
        · rw [watching]
          exact staffed.resought (seeking _)
        · rw [failing]
          exact { staffed with
            sought := seeking _
            guarded := fun _ => by simp
            settled := fun _ => staffed.settled (by simp)
            watched := fun c member => by simp at member
            alone := by simp }
      refine goes _ bindings ?_
      simp only [perform, consumeNext, read]
      split
      · rename_i stopped
        exact .inl ⟨rfl, stopped⟩
      split
      · exact .inr (.inl (by simp [Effect.sequel, guards, List.filterMap_cons, Action.guard?]))
      · exact .inr (.inr (by simp [Effect.sequel, guards, List.filterMap_cons, Action.guard?]))
      · exact .inr (.inr (by simp [Effect.sequel, guards, List.filterMap_cons, Action.guard?]))
      · exact .inr (.inl (by simp [Effect.sequel, guards, Action.guard?]))
  · refine manned.passed bindings ⟨by simp [Action.guard?, same], rfl⟩ ?_
    rintro a (⟨event, rfl⟩ | ⟨w', rfl⟩ | rfl | rfl) <;> simp [Action.guard?, same]

/-! ## Every action -/

theorem perform_manned (sound : e.books.Sound (duties (a :: rest)))
    (manned : Manned e (a :: rest) b) :
    Manned (e.perform a).engine ((e.perform a).sequel ++ rest) b := by
  cases a with
  | subscribe => exact subscribe_manned manned
  | join => exact join_manned sound manned
  | openSource => exact openSource_manned sound manned
  | leave => exact leave_manned manned
  | failBinding => exact failBinding_manned manned
  | sweep => exact sweep_manned manned
  | consume => exact consume_manned manned
  | _ =>
    refine manned.passed (perform_bindings e _ rfl) ⟨rfl, rfl⟩ fun a' brings => ?_
    cases a' <;> first | rfl | simp [Action.Brings] at brings

end Engine

end SubscriptionGateway
