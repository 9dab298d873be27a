import SubscriptionGateway.Proofs.Engine.Books
import Mathlib.Data.List.Nodup

/-!
When the books are sound. The three places that say which subscriptions count may disagree while
something is on its way; `Duties` is what is on its way, and `Books.Sound` says that every
disagreement has a duty that will end it. Each change of the books is shown to keep this, with the
duties that it uses up and those that it brings.
-/
namespace SubscriptionGateway

open Engine Function

/-- What pending actions are still to do to the books. -/
structure Duties where
  seeking : List (BindingId × SubscriptionId)
  /-- Bindings whose lock is held. -/
  opening : List BindingId
  leaving : List (BindingId × SubscriptionId)
  terminating : List SubscriptionId
  unsubscribing : List SubscriptionId

namespace Books

structure Sound (k : Books) (d : Duties) : Prop where
  registered_nodup : k.registered.Nodup
  active_iff : ∀ s, s ∈ k.registered ↔ k.phase s = some .active
  owned_nodup : ∀ c, (k.owned c).Nodup
  owned_iff : ∀ c s, s ∈ k.owned c ↔ k.phase s = some .active ∧ k.connection s = some c
  listed_nodup : (k.listed.map Prod.fst).Nodup
  listed_iff : ∀ key b, (key, b) ∈ k.listed ↔ k.source b = some key ∧ k.stage b ≠ some .closed
  members_nodup : ∀ b, (k.members b).Nodup
  members_opened : ∀ b s, s ∈ k.members b → k.stage b = some .opened
  member : ∀ b s, s ∈ k.members b → k.place s = some b ∧ k.source b = k.key s ∧
    (k.phase s = some .active ∨ k.phase s = some .cancelled ∧ (b, s) ∈ d.leaving)
  joined : ∀ s, k.phase s = some .active → ∃ b, k.place s = some b ∧ k.source b = k.key s ∧
    (s ∈ k.members b ∨ s ∈ d.terminating ∧ k.stage b = some .closed)
  seeking_nodup : (d.seeking.map Prod.snd).Nodup
  seeking : ∀ b s, (b, s) ∈ d.seeking → k.phase s = some .pending ∧ k.source b = k.key s
  opening_nodup : d.opening.Nodup
  opening : ∀ b, b ∈ d.opening → k.locked b = true ∧ k.stage b = some .opening
  leaving : ∀ b s, (b, s) ∈ d.leaving → k.phase s = some .cancelled
  released : ∀ c, c ∉ k.managed → k.closed c = true ∧ ∀ s ∈ k.owned c, s ∈ d.unsubscribing
  known : ∀ s, k.phase s ≠ none → k.key s ≠ none

variable {k : Books} {d : Duties} {b : BindingId} {s : SubscriptionId} {c : ConnectionId}

/-! ## Connections -/

theorem Sound.close (sound : k.Sound d) (c : ConnectionId) : (k.close c).Sound d :=
  { sound with
    released := fun a gone => by
      have := sound.released a gone
      simp only [Books.close, update_apply]
      grind }

theorem Sound.addHolder (sound : k.Sound d) (c : ConnectionId) : (k.addHolder c).Sound d :=
  { sound with
    released := fun a gone => by
      have := sound.released a
      simp only [Books.addHolder, update_apply] at gone ⊢
      grind }

theorem Sound.release (sound : k.Sound d) (c : ConnectionId) :
    ({ k with managed := k.managed.filter (· != c) }.close c).Sound
      { d with unsubscribing := k.owned c ++ d.unsubscribing } :=
  { sound with
    released := fun a gone => by
      have := sound.released a
      simp only [Books.close, update_apply] at gone ⊢
      grind }

/-! ## Ends -/

theorem Sound.demand (sound : k.Sound d) (ts us : List SubscriptionId) :
    k.Sound { d with terminating := ts ++ d.terminating, unsubscribing := us ++ d.unsubscribing } :=
  { sound with
    joined := by have := sound.joined; grind
    released := by have := sound.released; grind }

theorem Sound.excuse
    (sound : k.Sound { d with
      terminating := s :: d.terminating, unsubscribing := s :: d.unsubscribing })
    (idle : k.phase s ≠ some .active) : k.Sound d :=
  { sound with
    joined := by have := sound.joined; grind
    released := by have := sound.released; have := sound.owned_iff; grind }

theorem Sound.depart
    (sound : k.Sound { d with
      terminating := s :: d.terminating, unsubscribing := s :: d.unsubscribing })
    (active : k.phase s = some .active) (owner : k.connection s = some c)
    (place : k.place s = some b) :
    ((k.strike s).disown c s).Sound { d with leaving := (b, s) :: d.leaving } where
  registered_nodup := sound.registered_nodup.filter _
  active_iff := by have := sound.active_iff; simp only [strike, disown, update_apply]; grind
  owned_nodup := by have := sound.owned_nodup; simp only [strike, disown, update_apply]; grind
  owned_iff := by have := sound.owned_iff; simp only [strike, disown, update_apply]; grind
  listed_nodup := sound.listed_nodup
  listed_iff := sound.listed_iff
  members_nodup := sound.members_nodup
  members_opened := sound.members_opened
  member := by have := sound.member; simp only [strike, disown, update_apply]; grind
  joined := by have := sound.joined; simp only [strike, disown, update_apply]; grind
  seeking_nodup := sound.seeking_nodup
  seeking := by have := sound.seeking; simp only [strike, disown, update_apply]; grind
  opening_nodup := sound.opening_nodup
  opening := sound.opening
  leaving := by have := sound.leaving; simp only [strike, disown, update_apply]; grind
  released := by
    have := sound.released
    have := sound.owned_iff
    simp only [strike, disown, update_apply]
    grind
  known := by have := sound.known; simp only [strike, disown, update_apply]; grind

theorem Sound.dropMember (sound : k.Sound { d with leaving := (b, s) :: d.leaving }) :
    (k.dropMember b s).Sound d :=
  { sound with
    members_nodup := by
      have := sound.members_nodup
      simp only [Books.dropMember, update_apply]
      grind
    members_opened := by
      have := sound.members_opened
      simp only [Books.dropMember, update_apply]
      grind
    member := by
      have := sound.member
      simp only [Books.dropMember, update_apply]
      grind
    joined := by
      have := sound.joined
      have := sound.leaving
      simp only [Books.dropMember, update_apply]
      grind
    leaving := by have := sound.leaving; grind [Books.dropMember] }

/-! ## Bindings -/

theorem Sound.unlist_closed (sound : k.Sound d)
    (out : k.source b = none ∨ k.stage b = some .closed) :
    k.unlist b = k := by
  have kept : k.listed.filter (·.2 != b) = k.listed := by
    refine List.filter_eq_self.mpr fun l mem => ?_
    have := (sound.listed_iff l.1 l.2).mp mem
    grind
  simp [unlist, kept]

theorem Sound.shut (sound : k.Sound d) (nobody : k.members b = []) (free : b ∉ d.opening) :
    (k.shut b).Sound d :=
  { sound with
    listed_nodup := sound.listed_nodup.sublist (List.filter_sublist.map _)
    listed_iff := by
      have := sound.listed_iff
      simp only [Books.shut, unlist, update_apply]
      grind
    members_opened := by
      have := sound.members_opened
      simp only [Books.shut, unlist, update_apply]
      grind
    joined := by
      have := sound.joined
      simp only [Books.shut, unlist, update_apply]
      grind
    opening := by
      have := sound.opening
      simp only [Books.shut, unlist, update_apply]
      grind }

theorem Sound.shutIfIdle (sound : k.Sound d) (b : BindingId) : (k.shutIfIdle b).Sound d := by
  simp only [Books.shutIfIdle]
  split
  · rename_i idle
    refine sound.shut idle.1 fun busy => ?_
    have opening := (sound.opening b busy).2
    simp [idle.2] at opening
  · exact sound

theorem Sound.leave (sound : k.Sound { d with leaving := (b, s) :: d.leaving }) :
    (k.leave b s).Sound d := sound.dropMember.shutIfIdle b

theorem Sound.empty (sound : k.Sound d) (free : k.locked b = false) :
    (k.empty b).Sound { d with terminating := k.members b ++ d.terminating } := by
  have unheld : b ∉ d.opening := fun busy => by
    have held := (sound.opening b busy).1
    simp [free] at held
  exact { sound with
    listed_nodup := sound.listed_nodup.sublist (List.filter_sublist.map _)
    listed_iff := by
      have := sound.listed_iff
      simp only [Books.empty, Books.shut, unlist, update_apply]
      grind
    members_nodup := by
      have := sound.members_nodup
      simp only [Books.empty, Books.shut, unlist, update_apply]
      grind
    members_opened := by
      have := sound.members_opened
      simp only [Books.empty, Books.shut, unlist, update_apply]
      grind
    member := by
      have := sound.member
      simp only [Books.empty, Books.shut, unlist, update_apply]
      grind
    joined := by
      have := sound.joined
      simp only [Books.empty, Books.shut, unlist, update_apply]
      grind
    opening := by
      have := sound.opening
      simp only [Books.empty, Books.shut, unlist, update_apply]
      grind }

/-! ## Seeking a binding -/

theorem Sound.addEntry (key : SourceKey) (sound : k.Sound d) (fresh : k.phase s = none) :
    (k.addEntry s c key .pending).Sound d where
  registered_nodup := sound.registered_nodup
  active_iff := by have := sound.active_iff; simp only [Books.addEntry, update_apply]; grind
  owned_nodup := sound.owned_nodup
  owned_iff := by have := sound.owned_iff; simp only [Books.addEntry, update_apply]; grind
  listed_nodup := sound.listed_nodup
  listed_iff := sound.listed_iff
  members_nodup := sound.members_nodup
  members_opened := sound.members_opened
  member := by have := sound.member; simp only [Books.addEntry, update_apply]; grind
  joined := by have := sound.joined; simp only [Books.addEntry, update_apply]; grind
  seeking_nodup := sound.seeking_nodup
  seeking := by have := sound.seeking; simp only [Books.addEntry, update_apply]; grind
  opening_nodup := sound.opening_nodup
  opening := sound.opening
  leaving := by have := sound.leaving; simp only [Books.addEntry, update_apply]; grind
  released := by have := sound.released; have := sound.owned_iff; simp only [Books.addEntry]; grind
  known := by have := sound.known; simp only [Books.addEntry, update_apply]; grind

theorem Sound.addDesk {key : SourceKey} (sound : k.Sound d) (fresh : k.source b = none)
    (absent : ∀ b, (key, b) ∉ k.listed) : (k.addDesk b key).Sound d := by
  have kept (a : BindingId) (s : SubscriptionId) (at_ : k.source a = k.key s)
      (here : k.phase s ≠ none) : a ≠ b := by
    have := sound.known s here
    grind
  exact { sound with
    listed_nodup := by
      simp only [Books.addDesk, List.map_append, List.map_cons, List.map_nil]
      refine List.nodup_append.mpr ⟨sound.listed_nodup, List.nodup_singleton _, ?_⟩
      grind
    listed_iff := by
      have := sound.listed_iff
      simp only [Books.addDesk, update_apply]
      grind
    members_opened := by
      have := sound.members_opened
      have := sound.member
      simp only [Books.addDesk, update_apply]
      grind
    member := by
      have := sound.member
      simp only [Books.addDesk, update_apply]
      grind
    joined := by
      have := sound.joined
      simp only [Books.addDesk, update_apply]
      grind
    seeking := by
      have := sound.seeking
      simp only [Books.addDesk, update_apply]
      grind
    opening := by
      have := sound.opening
      simp only [Books.addDesk, update_apply]
      grind }

theorem Sound.seek (sound : k.Sound d) (pending : k.phase s = some .pending)
    (once : s ∉ d.seeking.map Prod.snd) (source : k.source b = k.key s) :
    k.Sound { d with seeking := (b, s) :: d.seeking } :=
  { sound with
    seeking_nodup := List.nodup_cons.mpr ⟨once, sound.seeking_nodup⟩
    seeking := by have := sound.seeking; grind }

theorem Sound.quit (sound : k.Sound { d with seeking := (b, s) :: d.seeking }) :
    k.Sound d ∧ s ∉ d.seeking.map Prod.snd ∧ k.phase s = some .pending ∧ k.source b = k.key s := by
  have split := List.nodup_cons.mp sound.seeking_nodup
  have here := sound.seeking b s (List.mem_cons_self ..)
  refine ⟨{ sound with seeking_nodup := split.2, seeking := ?_ }, split.1, here.1, here.2⟩
  have := sound.seeking
  grind

/-! ## Opening a binding -/

theorem Sound.lock (sound : k.Sound d) (free : k.locked b = false)
    (stage : k.stage b = some .opening) :
    ({ k with locked := update k.locked b true } : Books).Sound
      { d with opening := b :: d.opening } := by
  have unheld : b ∉ d.opening := fun busy => by
    have held := (sound.opening b busy).1
    simp [free] at held
  exact { sound with
    opening_nodup := List.nodup_cons.mpr ⟨unheld, sound.opening_nodup⟩
    opening := by
      have := sound.opening
      simp only [update_apply]
      grind }

theorem Sound.drop (sound : k.Sound { d with opening := b :: d.opening }) :
    k.Sound d ∧ b ∉ d.opening ∧ k.stage b = some .opening := by
  have split := List.nodup_cons.mp sound.opening_nodup
  refine ⟨{ sound with opening_nodup := split.2, opening := ?_ }, split.1,
    (sound.opening b (List.mem_cons_self ..)).2⟩
  have := sound.opening
  grind

theorem Sound.unlock (sound : k.Sound d) (unheld : b ∉ d.opening) :
    ({ k with locked := update k.locked b false } : Books).Sound d :=
  { sound with
    opening := by
      have := sound.opening
      simp only [update_apply]
      grind }

theorem Sound.giveUp (sound : k.Sound { d with opening := b :: d.opening }) :
    (k.shut b).Sound d := by
  obtain ⟨sound, free, stage⟩ := sound.drop
  refine sound.shut ?_ free
  refine List.eq_nil_iff_forall_not_mem.mpr fun s member => ?_
  have opened := sound.members_opened b s member
  simp [stage] at opened

theorem Sound.opened (sound : k.Sound { d with opening := b :: d.opening }) :
    ({ k with
      stage := update k.stage b (some .opened), locked := update k.locked b false } : Books).Sound
      d := by
  obtain ⟨sound, free, stage⟩ := sound.drop
  exact { sound with
    listed_iff := by
      have := sound.listed_iff
      simp only [update_apply]
      grind
    members_opened := by
      have := sound.members_opened
      simp only [update_apply]
      grind
    joined := by
      have := sound.joined
      simp only [update_apply]
      grind
    opening := by
      have := sound.opening
      simp only [update_apply]
      grind }

/-! ## Registering -/

theorem Sound.enroll (sound : k.Sound { d with seeking := (b, s) :: d.seeking })
    (stage : k.stage b = some .opened) (owner : k.connection s = some c)
    (isOpen : k.closed c = false) : ((k.enroll b s).own c s).Sound d := by
  obtain ⟨sound, once, pending, source⟩ := sound.quit
  exact {
    registered_nodup := by
      have := sound.registered_nodup
      have := sound.active_iff
      simp only [own, Books.enroll]
      grind
    active_iff := by
      have := sound.active_iff
      simp only [own, Books.enroll, update_apply]
      grind
    owned_nodup := by
      have := sound.owned_nodup
      have := sound.owned_iff
      simp only [own, Books.enroll, update_apply]
      grind
    owned_iff := by
      have := sound.owned_iff
      simp only [own, Books.enroll, update_apply]
      grind
    listed_nodup := sound.listed_nodup
    listed_iff := sound.listed_iff
    members_nodup := by
      have := sound.members_nodup
      have := sound.member
      simp only [own, Books.enroll, update_apply]
      grind
    members_opened := by
      have := sound.members_opened
      simp only [own, Books.enroll, update_apply]
      grind
    member := by
      have := sound.member
      simp only [own, Books.enroll, update_apply]
      grind
    joined := by
      have := sound.joined
      simp only [own, Books.enroll, update_apply]
      grind
    seeking_nodup := sound.seeking_nodup
    seeking := by
      have := sound.seeking
      simp only [own, Books.enroll, update_apply]
      grind
    opening_nodup := sound.opening_nodup
    opening := sound.opening
    leaving := by
      have := sound.leaving
      simp only [own, Books.enroll, update_apply]
      grind
    released := by
      have := sound.released
      simp only [own, Books.enroll, update_apply]
      grind
    known := by
      have := sound.known
      simp only [own, Books.enroll, update_apply]
      grind }

/-- Over without ever having counted. -/
def lapse (k : Books) (b : BindingId) (s : SubscriptionId) : Books :=
  { k with phase := update k.phase s (some .cancelled), place := update k.place s (some b) }

theorem Sound.lapse (sound : k.Sound d) (pending : k.phase s = some .pending)
    (once : s ∉ d.seeking.map Prod.snd) : (k.lapse b s).Sound d where
  registered_nodup := sound.registered_nodup
  active_iff := by have := sound.active_iff; simp only [Books.lapse, update_apply]; grind
  owned_nodup := sound.owned_nodup
  owned_iff := by have := sound.owned_iff; simp only [Books.lapse, update_apply]; grind
  listed_nodup := sound.listed_nodup
  listed_iff := sound.listed_iff
  members_nodup := sound.members_nodup
  members_opened := sound.members_opened
  member := by have := sound.member; simp only [Books.lapse, update_apply]; grind
  joined := by have := sound.joined; simp only [Books.lapse, update_apply]; grind
  seeking_nodup := sound.seeking_nodup
  seeking := by have := sound.seeking; simp only [Books.lapse, update_apply]; grind
  opening_nodup := sound.opening_nodup
  opening := sound.opening
  leaving := by have := sound.leaving; simp only [Books.lapse, update_apply]; grind
  released := sound.released
  known := by have := sound.known; simp only [Books.lapse, update_apply]; grind

theorem filter_newcomer {l : List SubscriptionId} (absent : s ∉ l) :
    (l ++ [s]).filter (· != s) = l := by
  have kept : l.filter (· != s) = l := List.filter_eq_self.mpr fun a member => by grind
  simp [kept]

theorem enroll_undone (outsider : s ∉ k.members b) (unregistered : s ∉ k.registered) :
    ((k.enroll b s).leave b s).strike s = (k.lapse b s).shutIfIdle b := by
  have members := filter_newcomer outsider
  have registered := filter_newcomer unregistered
  have dropped : (k.enroll b s).dropMember b s =
      { k.lapse b s with
        phase := update k.phase s (some .active), registered := k.registered ++ [s] } := by
    simp [Books.enroll, Books.dropMember, lapse, members]
  rw [Books.leave, dropped]
  by_cases idle : k.members b = [] ∧ k.stage b = some .opened
  · simp [Books.shutIfIdle, lapse, idle, strike, Books.shut, unlist, registered]
  · simp [Books.shutIfIdle, lapse, idle, strike, registered]

theorem Sound.enroll_undone (sound : k.Sound { d with seeking := (b, s) :: d.seeking }) :
    (((k.enroll b s).leave b s).strike s).Sound d := by
  obtain ⟨sound, once, pending, -⟩ := sound.quit
  have outsider : s ∉ k.members b := fun member => by
    have := sound.member b s member
    grind
  have unregistered : s ∉ k.registered := fun registered => by
    have := (sound.active_iff s).mp registered
    grind
  rw [Books.enroll_undone outsider unregistered]
  exact (sound.lapse pending once).shutIfIdle b

end Books

end SubscriptionGateway
