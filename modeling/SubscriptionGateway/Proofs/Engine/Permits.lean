import SubscriptionGateway.Proofs.Engine.InFlight

/-!
The permits for resolving. Whoever calls the resolver has one, from the moment at which it was
taken to the end of the call, whatever the call comes to and whatever becomes of the subscription
meanwhile. Those in hand and those that are free are always as many as at first.
-/
namespace SubscriptionGateway

open Broker

namespace Engine

namespace Action

/-- At which resolution it works. A permit is held as long as such an action is pending. -/
def worksAt? : Action → Option ResolutionId
  | .runResolver r => some r
  | .endResolver r _ _ => some r
  | _ => none

def isCall : Action → Bool
  | .endResolver .. => true
  | _ => false

def waitsForPermit : Action → Bool
  | .resolve .. => true
  | _ => false

end Action

/-- The resolutions for which a permit is held. -/
def worked (pool : List Action) : List ResolutionId := pool.filterMap Action.worksAt?

def purpose? (e : Engine) (r : ResolutionId) : Option (SubscriptionId × BrokerEvent) :=
  e.resolutions[r]?.map fun y => (y.subscriber, y.event)

def calling (pool : List Action) : List Action := pool.filter Action.isCall

variable {e e' : Engine} {a b : Action} {s : SubscriptionId} {pool rest : List Action}

theorem purpose_lasts {r : ResolutionId} {t : SubscriptionId × BrokerEvent} (a : Action)
    (known : e.purpose? r = some t) : (e.perform a).engine.purpose? r = some t := by
  unfold purpose? at known
  obtain ⟨y, found, rfl⟩ := Option.map_eq_some_iff.mp known
  obtain ⟨y', found', same, event⟩ := perform_outlives e a found
  simp only [purpose?, found', Option.map_some, same, event]

theorem purpose_input {r : ResolutionId} (i : Input) : (i.apply e).purpose? r = e.purpose? r := by
  unfold purpose?
  rw [(input_spares e i).2.1]

/-! ## What leaves the permits alone -/

theorem Records.permits (records : Records e e') : e'.permits = e.permits := by
  obtain ⟨_, _, _, _, _, _, rfl⟩ := records
  rfl

theorem receipt_permits (e : Engine) (result : Except Fault Unit) (r : Receipt) :
    (e.receipt result r).engine.permits = e.permits := by
  cases r <;> cases result <;> rfl

theorem enter_permits (e : Engine) (call : CallId) (b : BindingId) (s : SubscriptionId)
    (started : List (List Action)) : (e.enter call b s started).engine.permits = e.permits := by
  obtain ⟨replies, deliveries, more, eq, -⟩ := enter_branches e call b s started
  rw [eq]
  exact (records_register e b s).permits

theorem clerical_permits (e : Engine) (clerical : a.clerical = true) :
    (e.perform a).engine.permits = e.permits := by
  obtain ⟨_, _, _, _, _, eq⟩ := clerical_engine e clerical
  rw [eq]

/-- Only the beginning and the end of a resolution move permits. -/
theorem perform_permits (e : Engine) (a : Action) (other : a.resolves = false) :
    (e.perform a).engine.permits = e.permits := by
  cases a with
  | subscribe call c clientId r =>
    rcases subscribe_cases e call c clientId r with ⟨fault, eq⟩ | ⟨compiled, -, -, eq⟩ <;> rw [eq]
    · rfl
    · exact (records_seek _ call _ _).permits
  | join call b s =>
    rcases joinBinding_branches e call b s with eq | ⟨key, eq⟩ | eq | eq | ⟨due, eq⟩ <;>
    rw [perform, eq]
    · exact (records_seek (e.unlist b) call s key).permits
    · exact enter_permits e call b s []
    · rfl
    · rfl
  | openSource call b s due =>
    rcases openBinding_branches e call b s with eq | ⟨hub, fault, eq⟩ | ⟨hub, c, eq⟩ <;>
    rw [perform, eq]
    · rfl
    · exact enter_permits _ call b s _
  | unsubscribe s =>
    rcases unsubscribe_cases e s with eq | ⟨x, -, -, eq⟩ <;> rw [perform, eq]
    exact (records_depart e s _ Lifecycle.cancel).permits
  | terminate s t =>
    rcases terminate_cases e s t with eq | ⟨x, -, -, eq⟩ <;> rw [perform, eq]
    exact (records_depart e s x.connection Lifecycle.retire).permits
  | leave b s => exact (records_leave e b s).permits
  | releaseInbox s => exact (records_stopFeeding [s] e).permits
  | fanOut call? b event =>
    obtain ⟨replies, eq⟩ := fanOut_engine e call? b event
    obtain ⟨n, records⟩ := records_scheduleAll event (e.targets b) e
    rw [eq]
    exact records.permits
  | failBinding b => exact (records_empty e b).permits
  | sweep b =>
    exact (records_trans (records_empty e b) (records_stopFeeding (e.empty b).1 _)).permits
  | deliverNext s =>
    obtain ⟨next, -, eq | ⟨rest, n, eq⟩⟩ := deliverNext_cases e s <;> rw [perform, eq]
    rfl
  | enqueue c f due r =>
    rcases enqueue_cases e c f r with ⟨-, eq⟩ | ⟨-, e', fault, eq, rfl | rfl⟩ <;>
    rw [perform, eq, receipt_permits] <;>
    rfl
  | endDelivery s =>
    rcases endDelivery_cases e s with eq | ⟨n, deliveries, eq⟩ <;> rw [perform, eq]
    rfl
  | release c =>
    rcases release_cases e c with ⟨-, eq⟩ | ⟨e', -, rfl, eq⟩ <;> rw [perform, eq]
    rfl
  | connectionReleased => rfl
  | resolve | endResolver => cases other
  | _ => exact clerical_permits e rfl

/-! ## Permits in hand -/

/-- How the permits stand. Whoever holds one works at a resolution that has no outcome yet and for
which its delivery waits. -/
structure Permitted (e : Engine) (pool : List Action) : Prop where
  balance : e.permits + (worked pool).length = max e.setup.concurrency 1
  once : (worked pool).Nodup
  attended : ∀ r ∈ worked pool, ∃ y, e.resolutions[r]? = some y ∧ y.outcome? = none ∧
    Action.deliverOutcome y.subscriber r ∈ pool
  /-- A resolution at which nobody works has come to something. -/
  settled : ∀ (r : ResolutionId) (y : Resolving), e.resolutions[r]? = some y → r ∉ worked pool →
    y.outcome?.isSome = true

theorem worked_append (p q : List Action) : worked (p ++ q) = worked p ++ worked q := by
  simp [worked]

theorem calling_le (pool : List Action) : (calling pool).length ≤ (worked pool).length := by
  induction pool with
  | nil => exact Nat.le_refl 0
  | cons a pool ih =>
    cases a with
    | endResolver r w due => exact Nat.succ_le_succ ih
    | runResolver r => exact Nat.le_succ_of_le ih
    | _ => exact ih

theorem worked_sequel {e : Engine} {a : Action} (begins : ∀ s event, a ≠ .resolve s event)
    (runs : ∀ r, a ≠ .runResolver r) : worked (e.perform a).sequel = [] := by
  apply sequel_silent
  intro b brings
  cases a with
  | resolve s event => exact absurd rfl (begins s event)
  | runResolver r => exact absurd rfl (runs r)
  | offer c f r | enqueue c f due r | join call k s | openSource call k s due =>
    cases b <;> simp_all [Action.Brings, Action.worksAt?]
  | _ => cases b <;> simp_all [Action.Brings, Action.worksAt?]

theorem Permitted.shuffle {pool pool' : List Action} (perm : pool.Perm pool')
    (permitted : Permitted e pool) : Permitted e pool' := by
  have same : (worked pool).Perm (worked pool') := perm.filterMap Action.worksAt?
  constructor
  · rw [← same.length_eq]
    exact permitted.balance
  · exact same.nodup permitted.once
  · intro r member
    obtain ⟨y, found, unfinished, waits⟩ := permitted.attended r (same.mem_iff.mpr member)
    exact ⟨y, found, unfinished, perm.mem_iff.mp waits⟩
  · intro r y found idle
    exact permitted.settled r y found fun member => idle (same.mem_iff.mp member)

theorem resolve_permitted {event : BrokerEvent} (ready : e.ready (.resolve s event) = true)
    (permitted : Permitted e (.resolve s event :: rest)) :
    Permitted (e.beginResolution s event).engine
      (.deliverOutcome s e.resolutions.length :: .runResolver e.resolutions.length :: rest) := by
  have free : 0 < e.permits := by simpa [Engine.ready] using ready
  have old : worked (.resolve s event :: rest) = worked rest := rfl
  have new : worked (.deliverOutcome s e.resolutions.length ::
      .runResolver e.resolutions.length :: rest) = e.resolutions.length :: worked rest := rfl
  have before (r : ResolutionId) (member : r ∈ worked rest) : r < e.resolutions.length := by
    obtain ⟨y, found, -⟩ := permitted.attended r (old ▸ member)
    exact (List.getElem?_eq_some_iff.mp found).1
  constructor
  · have balance := permitted.balance
    rw [old] at balance
    rw [new, List.length_cons]
    simp only [beginResolution]
    omega
  · rw [new, List.nodup_cons]
    exact ⟨fun member => Nat.lt_irrefl _ (before _ member), old ▸ permitted.once⟩
  · intro r member
    rw [new] at member
    rcases List.mem_cons.mp member with rfl | member
    · exact ⟨⟨s, event, none⟩, by simp [beginResolution], rfl, List.mem_cons_self⟩
    · obtain ⟨y, found, unfinished, waits⟩ := permitted.attended r (old ▸ member)
      refine ⟨y, ?_, unfinished, ?_⟩
      · simp [beginResolution, List.getElem?_append_left (before r member), found]
      · have waits : Action.deliverOutcome y.subscriber r ∈ rest := by simpa using waits
        exact List.mem_cons_of_mem _ (List.mem_cons_of_mem _ waits)
  · intro r y found idle
    rw [new, List.mem_cons, not_or] at idle
    obtain ⟨older, idle⟩ := idle
    simp only [beginResolution, List.getElem?_append] at found
    split at found
    · exact permitted.settled r y found (old ▸ idle)
    · rename_i beyond
      have bound : (r - e.resolutions.length : Nat) < 1 := (List.getElem?_eq_some_iff.mp found).1
      have same : r = e.resolutions.length := by
        have least : e.resolutions.length ≤ r := Nat.le_of_not_lt beyond
        exact Nat.le_antisymm (Nat.le_of_sub_eq_zero (Nat.lt_one_iff.mp bound)) least
      exact absurd same older

theorem run_permitted {r : ResolutionId} {y : Resolving} {x : Subscriber}
    (found : e.resolutions[r]? = some y) (here : e.subscribers[y.subscriber]? = some x)
    (permitted : Permitted e (.runResolver r :: rest)) :
    Permitted (e.runResolver r).engine ((e.runResolver r).next ++ rest) := by
  have ran : e.runResolver r =
      ⟨{ e with sent := e.sent ++ (e.setup.resolve x.compiled y.event.payload).sent?.toList },
        [.endResolver r (e.setup.resolve x.compiled y.event.payload)
          (e.now + (e.setup.resolve x.compiled y.event.payload).takesMs)], []⟩ := by
    simp only [runResolver, found, here]
  rw [ran]
  refine ⟨permitted.balance, permitted.once, ?_, permitted.settled⟩
  intro r' member
  obtain ⟨y', found', unfinished, waits⟩ := permitted.attended r' member
  have waits : Action.deliverOutcome y'.subscriber r' ∈ rest := by simpa using waits
  exact ⟨y', found', unfinished, List.mem_cons_of_mem _ waits⟩

theorem end_permitted {r : ResolutionId} {w : Work} {due : Nat}
    (permitted : Permitted e (.endResolver r w due :: rest)) :
    Permitted (e.endResolver r w) rest := by
  have old : worked (.endResolver r w due :: rest) = r :: worked rest := rfl
  have once := permitted.once
  rw [old, List.nodup_cons] at once
  obtain ⟨gone, once⟩ := once
  refine ⟨?_, once, ?_, ?_⟩
  · have balance := permitted.balance
    rw [old, List.length_cons] at balance
    simp only [endResolver]
    omega
  · intro r' member
    obtain ⟨y, found, unfinished, waits⟩ :=
      permitted.attended r' (old ▸ List.mem_cons_of_mem _ member)
    have other : r ≠ r' := fun same => gone (same ▸ member)
    refine ⟨y, ?_, unfinished, by simpa using waits⟩
    simp [endResolver, other, found]
  · intro r' y found idle
    by_cases here : r = r'
    · subst here
      simp only [endResolver, List.getElem?_modify_eq] at found
      obtain ⟨y', -, rfl⟩ := Option.map_eq_some_iff.mp found
      rfl
    · have before : e.resolutions[r']? = some y := by simpa [endResolver, here] using found
      refine permitted.settled r' y before ?_
      rw [old, List.mem_cons, not_or]
      exact ⟨Ne.symm here, idle⟩

theorem other_permitted (ready : e.ready a = true) (begins : ∀ s event, a ≠ .resolve s event)
    (runs : ∀ r, a ≠ .runResolver r) (ends : ∀ r w due, a ≠ .endResolver r w due)
    (permitted : Permitted e (a :: rest)) :
    Permitted (e.perform a).engine ((e.perform a).sequel ++ rest) := by
  have other : a.resolves = false := by
    cases a with
    | resolve s event => exact absurd rfl (begins s event)
    | endResolver r w due => exact absurd rfl (ends r w due)
    | _ => rfl
  have old : worked (a :: rest) = worked rest := by
    refine List.filterMap_cons_none ?_
    cases a with
    | runResolver r => exact absurd rfl (runs r)
    | endResolver r w due => exact absurd rfl (ends r w due)
    | _ => rfl
  have new : worked ((e.perform a).sequel ++ rest) = worked rest := by
    rw [worked_append, worked_sequel begins runs, List.nil_append]
  constructor
  · rw [new, perform_permits e a other, (perform_setup e a).1, ← old]
    exact permitted.balance
  · rw [new, ← old]
    exact permitted.once
  · intro r member
    rw [new] at member
    obtain ⟨y, found, unfinished, waits⟩ := permitted.attended r (old ▸ member)
    refine ⟨y, by rw [perform_resolutions e a other, found], unfinished, ?_⟩
    rcases List.mem_cons.mp waits with rfl | waits
    · simp [Engine.ready, hasOutcome, found, unfinished] at ready
    · exact List.mem_append_right _ waits
  · intro r y found idle
    rw [perform_resolutions e a other] at found
    exact permitted.settled r y found (by rwa [old, ← new])

theorem perform_permitted {ts : List (List Action)} {log : Steps} (ready : e.ready a = true)
    (pending : ts.flatten = a :: rest) (tended : Tended e ts log)
    (permitted : Permitted e (a :: rest)) :
    Permitted (e.perform a).engine
      ((e.perform a).next ++ (e.perform a).started.flatten ++ rest) := by
  cases a with
  | resolve s event => exact resolve_permitted ready permitted
  | runResolver r =>
    obtain ⟨y, found, -, waits⟩ := permitted.attended r List.mem_cons_self
    obtain ⟨x, here, -⟩ := tended_present (s := y.subscriber) tended pending waits
      (by simp [Action.stand?])
    have ran := run_permitted found here permitted
    have alone : (e.runResolver r).started = [] := by simp only [runResolver, found, here]
    simpa only [perform, alone, List.flatten_nil, List.append_nil] using ran
  | endResolver r w due => exact end_permitted permitted
  | _ =>
    apply other_permitted ready _ _ _ permitted
    all_goals simp

theorem input_permitted (i : Input) (permitted : Permitted e pool) :
    Permitted (i.apply e) (i.task e ++ pool) := by
  obtain ⟨-, resolutions, setup⟩ := input_spares e i
  have permits : (i.apply e).permits = e.permits := by
    cases i with
    | take c most =>
      simp only [Input.apply, takeFrames]
      split <;> rfl
    | _ => rfl
  have none : worked (i.task e) = [] := by
    apply List.filterMap_eq_nil_iff.mpr
    intro a member
    cases task_begins member <;> rfl
  have same : worked (i.task e ++ pool) = worked pool := by
    rw [worked_append, none, List.nil_append]
  constructor
  · rw [same, permits, setup]
    exact permitted.balance
  · rw [same]
    exact permitted.once
  · intro r member
    rw [same] at member
    obtain ⟨y, found, unfinished, waits⟩ := permitted.attended r member
    exact ⟨y, by rw [resolutions, found], unfinished, List.mem_append_right _ waits⟩
  · intro r y found idle
    rw [same] at idle
    exact permitted.settled r y (by rwa [← resolutions]) idle

theorem permitted_upheld : Upheld Tended fun e ts _ => Permitted e ts.flatten := by
  apply upheld_pending (P := fun e pool _ => Permitted e pool)
  · intro e p q log perm permitted
    exact permitted.shuffle perm
  · intro e ts log i _ permitted
    exact input_permitted i permitted
  · intro e a rest ts log ready pending tended permitted
    exact perform_permitted ready pending tended permitted

theorem start_permitted (setup : Setup) (hub : Hub) :
    Always (World.start setup hub) fun e ts log => Tended e ts log ∧ Permitted e ts.flatten := by
  apply (start_tended setup hub).and permitted_upheld
  refine ⟨rfl, List.nodup_nil, ?_, ?_⟩
  · intro r member
    cases member
  · intro r y found
    cases found

end Engine

end SubscriptionGateway
