import SubscriptionGateway.Proofs.Engine.Upkeep

/-!
The registered subscriptions, the members of the listed bindings and what the connections own say
the same whenever nothing is being done for a caller. While something is, they may disagree, and
then only by what the duties of the pending actions account for.
-/
namespace SubscriptionGateway

open Broker Function

namespace Engine

/-- Part of a call on the registry or on the connections, or of what the end of a source brings. -/
def Action.inCall : Action → Bool
  | .subscribe .. | .join .. | .openSource .. => true
  | .unsubscribe _ | .terminate .. | .leave .. | .releaseInbox _ => true
  | .dispatch .. | .fanOut .. | .failBinding _ => true
  | .release _ | .connectionReleased | .releaseAll => true
  | .shutdown _ | .awaitDrain .. | .terminateAll | .sweepAll | .sweep _ => true
  | .awaitDeliveries | .pollDeliveries .. => true
  | _ => false

def World.atRest (w : World) : Bool := w.pending.all fun a => !a.inCall

/-- Of a connection nothing is left: none of its subscriptions counts anywhere. -/
def NothingLeft (e : Engine) (c : ConnectionId) : Prop :=
  ∀ s x, e.subscribers[s]? = some x → x.connection = c →
    e.isRegistered s = false ∧ ∀ b, e.isMember b s = false

/-- The three places that say which subscriptions count say the same. -/
structure Agreement (e : Engine) : Prop where
  member_iff : ∀ s, e.isRegistered s = true ↔ ∃! l, l ∈ e.listed ∧ e.isMember l.2 s = true
  owner_iff : ∀ s, e.isRegistered s = true ↔ ∃! c, s ∈ (e.owned c).map (·.1)
  /-- An unlisted binding has no members. -/
  listed : ∀ b s, e.isMember b s = true → ∃ key, (key, b) ∈ e.listed
  registered : ∀ s, e.isRegistered s = true → ∃ x b y,
    e.subscribers[s]? = some x ∧ x.life.phase = .active ∧
    s ∈ (e.owned x.connection).map (·.1) ∧
    e.bindings[b]? = some y ∧ s ∈ y.members ∧ y.key = x.compiled.sourceKey ∧
    (x.compiled.sourceKey, b) ∈ e.listed
  unmanaged : ∀ c, c ∉ e.managed → NothingLeft e c

theorem isMember_iff (e : Engine) (b : BindingId) (s : SubscriptionId) :
    e.isMember b s = true ↔ s ∈ e.books.members b := by
  simp only [isMember, books]
  cases e.bindings[b]? <;> simp

theorem idle_asks_nothing {a : Action} (idle : a.inCall = false) :
    a.leaves? = none ∧ a.terminates? = none ∧ a.unsubscribes? = none := by
  cases a <;> first | exact ⟨rfl, rfl, rfl⟩ | simp [Action.inCall] at idle

theorem rest_duties {w : World} (quiet : w.atRest = true) :
    (duties w.pending).leaving = [] ∧ (duties w.pending).terminating = [] ∧
      (duties w.pending).unsubscribing = [] := by
  have idle (a : Action) (member : a ∈ w.pending) : a.inCall = false := by
    simpa using List.all_eq_true.mp quiet a member
  refine ⟨?_, ?_, ?_⟩
  · exact List.filterMap_eq_nil_iff.mpr fun a member => (idle_asks_nothing (idle a member)).1
  · exact List.filterMap_eq_nil_iff.mpr fun a member => (idle_asks_nothing (idle a member)).2.1
  · exact List.filterMap_eq_nil_iff.mpr fun a member => (idle_asks_nothing (idle a member)).2.2

theorem member_active {k : Books} {d : Duties} (sound : k.Sound d) (none : d.leaving = [])
    {b : BindingId} {s : SubscriptionId} (member : s ∈ k.members b) :
    k.phase s = some .active ∧ k.place s = some b ∧ k.source b = k.key s := by
  obtain ⟨place, source, active | ⟨-, leaving⟩⟩ := sound.member b s member
  · exact ⟨active, place, source⟩
  · simp [none] at leaving

theorem sound_agrees {e : Engine} {d : Duties} (sound : e.books.Sound d)
    (none : d.leaving = [] ∧ d.terminating = [] ∧ d.unsubscribing = []) : Agreement e := by
  have counts {b : BindingId} {s : SubscriptionId} (member : e.isMember b s = true) :=
    member_active sound none.1 ((isMember_iff e b s).mp member)
  have registered (s : SubscriptionId) :
      e.isRegistered s = true ↔ e.books.phase s = some .active :=
    (isRegistered_iff e s).trans (sound.active_iff s)
  have place (s : SubscriptionId) (active : e.books.phase s = some .active) :
      ∃ b key, e.isMember b s = true ∧ e.books.source b = some key ∧ e.books.key s = some key ∧
        (key, b) ∈ e.listed := by
    obtain ⟨b, -, source, member | asked⟩ := sound.joined s active
    · cases read : e.books.key s with
      | none => exact absurd read (sound.known s (by simp [active]))
      | some key =>
        have stage := sound.members_opened b s member
        have listed := (sound.listed_iff key b).mpr ⟨source.trans read, by simp [stage]⟩
        exact ⟨b, key, (isMember_iff e b s).mpr member, source.trans read, rfl, listed⟩
    · simp [none.2.1] at asked
  exact {
    member_iff := fun s => by
      rw [registered]
      constructor
      · intro active
        obtain ⟨b, key, member, source, -, listed⟩ := place s active
        refine ⟨(key, b), ⟨listed, member⟩, ?_⟩
        rintro ⟨key', b'⟩ ⟨listed', member'⟩
        obtain rfl : b' = b := by
          have here := (counts member).2.1
          have there := (counts member').2.1
          simpa [here] using there.symm
        have source' := ((sound.listed_iff key' b').mp listed').1
        simpa [source] using source'.symm
      · rintro ⟨l, ⟨-, member⟩, -⟩
        exact (counts member).1
    owner_iff := fun s => by
      rw [registered]
      constructor
      · intro active
        obtain ⟨x, found, -⟩ := subscriber_of_phase e active
        have owner : e.books.connection s = some x.connection := by simp [books, found]
        refine ⟨x.connection, (sound.owned_iff x.connection s).mpr ⟨active, owner⟩, ?_⟩
        intro c owned
        have same := ((sound.owned_iff c s).mp owned).2
        simpa [owner] using same.symm
      · rintro ⟨c, owned, -⟩
        exact ((sound.owned_iff c s).mp owned).1
    listed := fun b s member => by
      obtain ⟨b', key, member', -, -, listed⟩ := place s (counts member).1
      obtain rfl : b' = b := by
        have here := (counts member).2.1
        have there := (counts member').2.1
        simpa [here] using there.symm
      exact ⟨key, listed⟩
    registered := fun s counted => by
      have active := (registered s).mp counted
      obtain ⟨x, found, phase⟩ := subscriber_of_phase e active
      obtain ⟨b, key, member, source, same, listed⟩ := place s active
      obtain rfl : x.compiled.sourceKey = key := by simpa [books, found] using same
      have owner : e.books.connection s = some x.connection := by simp [books, found]
      have owned := (sound.owned_iff x.connection s).mpr ⟨active, owner⟩
      cases read : e.bindings[b]? with
      | none => simp [isMember, read] at member
      | some y =>
        refine ⟨x, b, y, found, phase, owned, read, ?_, ?_, listed⟩
        · simpa [isMember, read] using member
        · simpa [books, read] using source
    unmanaged := fun c gone s x found owner => by
      have idle : e.books.phase s ≠ some .active := fun active => by
        have connection : e.books.connection s = some c := by simp [books, found, owner]
        have owned := (sound.owned_iff c s).mpr ⟨active, connection⟩
        have asked := (sound.released c gone).2 s owned
        simp [none.2.2] at asked
      refine ⟨?_, fun b => ?_⟩
      · exact Bool.eq_false_iff.mpr fun counted => idle ((registered s).mp counted)
      · exact Bool.eq_false_iff.mpr fun member => idle (counts member).1 }

theorem follows_over {k k' : Books} {d d' : Duties} {s : SubscriptionId} (sound : k.Sound d)
    (sound' : k'.Sound d') (follows : Follows k k') (counted : s ∈ k.registered)
    (gone : s ∉ k'.registered) : k'.phase s = some .cancelled := by
  have before := follows.phase s
  rw [(sound.active_iff s).mp counted] at before
  have idle := mt (sound'.active_iff s).mpr gone
  cases read : k'.phase s with
  | none => simp [read, standing] at before
  | some p => cases p <;> simp_all [standing]

def Releasing (c : ConnectionId) (e : Engine) (pool : List Action) : Prop :=
  e.books.Sound (duties pool) ∧ c < e.books.made ∧ (.release c ∈ pool ∨ c ∉ e.books.managed)

theorem releasing_kept {c : ConnectionId} {e e' : Engine} {pool pool' : List Action}
    (before : Releasing c e pool) (kept : Keeps e.books e'.books pool')
    (served : .release c ∈ pool → .release c ∈ pool' ∨ c ∉ e'.books.managed) :
    Releasing c e' pool' := by
  obtain ⟨-, made, asked⟩ := before
  obtain ⟨after, follows⟩ := kept
  refine ⟨after, Nat.lt_of_lt_of_le made follows.made, ?_⟩
  rcases asked with asked | gone
  · exact served asked
  · refine .inr fun managed => ?_
    rcases follows.managed c managed with old | new
    · exact gone old
    · exact absurd made (Nat.not_lt.mpr new)

theorem play_releasing {c : ConnectionId} {w : World} (moves : List Move)
    (first : Releasing c w.state w.pending) :
    Releasing c (w.play moves).state (w.play moves).pending := by
  refine World.play_keeps (Releasing c) ?_ ?_ ?_ moves first
  · rintro e p q perm ⟨sound, made, asked⟩
    exact ⟨sound_shuffle perm sound, made, asked.imp_left perm.mem_iff.mp⟩
  · intro e pool i before
    exact releasing_kept before (input_keeps i before.1)
      fun asked => .inl (List.mem_append_left _ asked)
  · intro e a rest ready before
    refine releasing_kept before (perform_keeps ready before.1) fun asked => ?_
    rcases List.mem_cons.mp asked with rfl | later
    · right
      simp only [perform, release]
      split
      · simp [books, closeConnection, updateConnection]
      · rename_i absent
        simpa [books] using absent
    · exact .inl (List.mem_append_right _ later)

theorem released_nothing_left {w : World} {c : ConnectionId} (moves : List Move)
    (sound : w.state.books.Sound (duties w.pending)) (made : c < w.state.connections.length)
    (quiet : ((w.input (.call (.release c))).play moves).atRest = true) :
    NothingLeft ((w.input (.call (.release c))).play moves).state c := by
  have asked : Releasing c (w.input (.call (.release c))).state
      (w.input (.call (.release c))).pending := by
    rw [World.input_state, World.input_pending]
    refine ⟨(input_keeps _ sound).1, made, .inl ?_⟩
    exact List.mem_append_right _ (List.mem_cons_self ..)
  obtain ⟨after, -, served⟩ := play_releasing moves asked
  refine (sound_agrees after (rest_duties quiet)).unmanaged c ?_
  refine served.resolve_left fun pending => ?_
  simpa [Action.inCall] using List.all_eq_true.mp quiet _ pending

/-- Whenever no call is on its way the three places agree; who has left them is over and never
comes back; and nothing is left of a connection that has been released. -/
theorem registry_agrees (setup : Setup) (hub : Hub) (moves : List Move) :
    let w := (World.start setup hub).play moves
    (w.atRest = true → Agreement w.state) ∧
    (∀ s later, w.state.isRegistered s = true → (w.play later).state.isRegistered s = false →
      (∃ x, (w.play later).state.subscribers[s]? = some x ∧ x.life.phase = .cancelled) ∧
      ∀ further, ((w.play later).play further).state.isRegistered s = false) ∧
    ∀ c later, c < w.state.connections.length →
      ((w.input (.call (.release c))).play later).atRest = true →
      NothingLeft ((w.input (.call (.release c))).play later).state c := by
  intro w
  obtain ⟨sound, -⟩ := World.play_sound (w := World.start setup hub) moves (start_sound setup hub)
  refine ⟨fun quiet => sound_agrees sound (rest_duties quiet), ?_, ?_⟩
  · intro s later counted gone
    obtain ⟨after, follows⟩ := World.play_sound later sound
    have past := follows_over sound after follows ((isRegistered_iff ..).mp counted)
      fun still => Bool.eq_false_iff.mp gone ((isRegistered_iff _ s).mpr still)
    refine ⟨subscriber_of_phase _ past, fun further => ?_⟩
    obtain ⟨last, onward⟩ := World.play_sound further after
    refine Bool.eq_false_iff.mpr fun back => ?_
    -- Whoever came back would be active, which is behind what it had reached.
    have active := (last.active_iff s).mp ((isRegistered_iff ..).mp back)
    have stands := onward.phase s
    simp [past, active, standing] at stands
  · intro c later made quiet
    exact released_nothing_left later sound made quiet

def staffSetup : Setup where
  catalog := ⟨[{ name := "employee", provider := "p", topics := ["t"], typeName := "Employee" }]⟩
  resolve := Resolver.ofSource none

def staffHub : Hub := ({} : Hub).addMemory "p" {}

def staffMoves : List Move :=
  [.input (.connect .webSocket),
    .input (.call (.subscribe 0 "1" { query := "subscription { employee { id } }" })),
    .step 0, .step 0, .step 0]

def staffRelease : List Move := [.step 2, .step 0, .step 0, .step 0]

theorem staff_agrees :
    ((World.start staffSetup staffHub).play staffMoves).state.isRegistered 0 = true ∧
    Agreement ((World.start staffSetup staffHub).play staffMoves).state ∧
    NothingLeft ((((World.start staffSetup staffHub).play staffMoves).input
      (.call (.release 0))).play staffRelease).state 0 := by
  have agrees := registry_agrees staffSetup staffHub staffMoves
  have connected : ((World.start staffSetup staffHub).play staffMoves).state.connections.isEmpty =
      false := by decide +kernel
  refine ⟨by decide +kernel, agrees.1 (by decide +kernel), ?_⟩
  refine agrees.2.2 0 staffRelease ?_ (by decide +kernel)
  exact List.length_pos_iff.mpr (List.isEmpty_eq_false_iff.mp connected)

end Engine

end SubscriptionGateway
