import SubscriptionGateway.Proofs.Engine.Owners
import SubscriptionGateway.Proofs.Engine.Parting

/-!
What waits in the queue of a connection. A frame that is handed over joins a queue at its end and
nothing else adds to one, so what waits there does so in the order in which it has come. The engine
takes nothing out, and but for what a connection owns all that it does to one besides is to close
it.
-/
namespace SubscriptionGateway

open Broker

/-- Nothing of it has changed but what it owns, unless it has been closed. -/
structure Connection.Lasts (z z' : Connection) : Prop where
  transport : z'.transport = z.transport
  queue : z'.queue = z.queue
  state : z'.closed = z.closed ∧ z'.cancelled = z.cancelled ∨ z'.closed = true ∧ z'.cancelled = true

namespace Engine

variable {e e' e'' : Engine} {a : Action} {b : BindingId} {s : SubscriptionId} {c : ConnectionId}
  {f : Frame}

def queueOf (e : Engine) (c : ConnectionId) : List Frame :=
  match e.connections[c]? with
  | some x => x.queue
  | none => []

/-- The frames that have entered the queue of a connection, in their order. -/
def entered (c : ConnectionId) (talk : List Happening) : List Frame :=
  talk.filterMap fun
    | .queued c' f _ => if c' = c then some f else none
    | .found .. => none

theorem entered_append (c : ConnectionId) (talk more : List Happening) :
    entered c (talk ++ more) = entered c talk ++ entered c more := List.filterMap_append

theorem mem_entered {talk : List Happening} :
    f ∈ entered c talk ↔ ∃ r, .queued c f r ∈ talk := by
  constructor
  · intro member
    obtain ⟨h, among, reads⟩ := List.mem_filterMap.mp member
    cases h with
    | found => simp at reads
    | queued c' f' r =>
      obtain ⟨rfl, rfl⟩ : c' = c ∧ f' = f := by simpa using reads
      exact ⟨r, among⟩
  · rintro ⟨r, among⟩
    exact List.mem_filterMap.mpr ⟨_, among, by simp⟩

/-- Queues may have become shorter, and nothing waits in another order. -/
def Drains (e e' : Engine) : Prop := ∀ c, (e'.queueOf c).Sublist (e.queueOf c)

theorem drains_refl (e : Engine) : Drains e e := fun _ => List.Sublist.refl _

theorem drains_trans (first : Drains e e') (second : Drains e' e'') : Drains e e'' :=
  fun c => (second c).trans (first c)

theorem drains_same (same : e'.connections = e.connections) : Drains e e' := by
  intro c
  simp only [queueOf, same]
  exact List.Sublist.refl _

theorem queueOf_update (e : Engine) (c : ConnectionId) (g : Connection → Connection)
    (c' : ConnectionId) : (e.updateConnection c g).queueOf c' =
      match e.connections[c']? with
      | some z => if c = c' then (g z).queue else z.queue
      | none => [] := by
  simp only [queueOf, updateConnection, List.getElem?_modify]
  cases e.connections[c']? with
  | none => rfl
  | some z => by_cases same : c = c' <;> simp [same]

theorem drains_connection {g : Connection → Connection}
    (fewer : ∀ z, (g z).queue.Sublist z.queue) : Drains e (e.updateConnection c g) := by
  intro c'
  rw [queueOf_update, queueOf]
  cases e.connections[c']? with
  | none => exact List.Sublist.refl _
  | some z =>
    by_cases same : c = c'
    · simpa [same] using fewer z
    · simp [same]

/-- What waits goes on waiting, and nothing else does. -/
def QueuesSame (e e' : Engine) : Prop := ∀ c, e'.queueOf c = e.queueOf c

theorem waits_refl (e : Engine) : QueuesSame e e := fun _ => rfl

theorem drains_waits (waits : QueuesSame e e') : Drains e e' := fun c =>
  waits c ▸ List.Sublist.refl _

structure Persists (e e' : Engine) : Prop where
  made : e'.connections.length = e.connections.length
  line : ∀ (c : ConnectionId) (z : Connection), e.connections[c]? = some z →
    ∃ z' : Connection, e'.connections[c]? = some z' ∧ z.Lasts z'

theorem persists_same (same : e'.connections = e.connections) : Persists e e' where
  made := by rw [same]
  line c z found := ⟨z, by rw [same, found], rfl, rfl, .inl ⟨rfl, rfl⟩⟩

theorem persists_refl (e : Engine) : Persists e e := persists_same rfl

theorem persists_trans (first : Persists e e') (second : Persists e' e'') : Persists e e'' where
  made := second.made.trans first.made
  line c z found := by
    obtain ⟨z', found', one⟩ := first.line c z found
    obtain ⟨z'', found'', two⟩ := second.line c z' found'
    refine ⟨z'', found'', two.transport.trans one.transport, two.queue.trans one.queue, ?_⟩
    rcases two.state with ⟨closed, cancelled⟩ | past
    · rw [closed, cancelled]
      exact one.state
    · exact .inr past

theorem persists_after (first : Persists e e') (same : e''.connections = e'.connections) :
    Persists e e'' := persists_trans first (persists_same same)

theorem persists_before (second : Persists e' e'') (same : e'.connections = e.connections) :
    Persists e e'' := persists_trans (persists_same same) second

theorem persists_connection {g : Connection → Connection}
    (lasts : ∀ z : Connection, z.Lasts (g z)) :
    Persists e (e.updateConnection c g) where
  made := List.length_modify ..
  line c' z found := by
    by_cases here : c = c'
    · exact ⟨g z, by simp [updateConnection, here, found], lasts z⟩
    · exact ⟨z, by simp [updateConnection, here, found], rfl, rfl, .inl ⟨rfl, rfl⟩⟩

theorem persists_close (e : Engine) (c : ConnectionId) : Persists e (e.closeConnection c).2 :=
  persists_connection fun _ => ⟨rfl, rfl, .inr ⟨rfl, rfl⟩⟩

theorem Persists.waits (persists : Persists e e') : QueuesSame e e' := by
  intro c
  simp only [queueOf]
  cases found : e.connections[c]? with
  | none =>
    have beyond := List.getElem?_eq_none_iff.mp found
    rw [← persists.made] at beyond
    rw [List.getElem?_eq_none beyond]
  | some z =>
    obtain ⟨z', found', lasts⟩ := persists.line c z found
    rw [found']
    exact lasts.queue

theorem refused_persists {f : Frame} {r : Receipt} (refused : e.takes c = false) :
    Persists e (e.enqueue c f r).engine := by
  obtain ⟨e', fault, same, rfl | rfl⟩ := enqueue_refused (f := f) (r := r) refused
  · exact same ▸ persists_same (receipt_connections ..)
  · exact same ▸ persists_after (persists_close e c) (receipt_connections ..)

theorem enqueue_queueOf (e : Engine) (c : ConnectionId) (f : Frame) (due : Nat) (r : Receipt)
    (c' : ConnectionId) : (e.enqueue c f r).engine.queueOf c' =
      e.queueOf c' ++ entered c' (e.happenings (.enqueue c f due r)) := by
  cases takes : e.takes c with
  | true =>
    obtain ⟨e', same, connections, -⟩ := enqueue_taken (f := f) (r := r) takes
    have told : (e.enqueue c f r).engine.queueOf c' =
        (e.updateConnection c fun x => { x with queue := x.queue ++ [f] }).queueOf c' := by
      simp only [queueOf, same, receipt_connections, connections, updateConnection]
    have entering : e.happenings (.enqueue c f due r) = [.queued c f r] := by
      simp [happenings, takes]
    rw [told, entering, queueOf_update, queueOf]
    cases read : e.connections[c']? with
    | none =>
      have elsewhere : c ≠ c' := fun same => by simp [Engine.takes, same, read] at takes
      simp [elsewhere, entered]
    | some z => by_cases here : c = c' <;> simp [here, entered]
  | false =>
    have kept := refused_persists (f := f) (r := r) takes
    have silent : e.happenings (.enqueue c f due r) = [] := by simp [happenings, takes]
    rw [kept.waits c', silent]
    exact (List.append_nil _).symm

theorem persists_depart (e : Engine) (s : SubscriptionId) (c : ConnectionId)
    (f : Lifecycle → Bool × Lifecycle) :
    Persists e (((e.deregister s).endLife s f).detach c s) := by
  have lists : ((e.deregister s).endLife s f).connections = e.connections :=
    (endLife_lists (e.deregister s) s f).2
  exact persists_trans (persists_same lists)
    (persists_connection fun _ => ⟨rfl, rfl, .inl ⟨rfl, rfl⟩⟩)

theorem persists_register (e : Engine) (b : BindingId) (s : SubscriptionId) :
    Persists e (e.register b s).2 := by
  simp only [register]
  split
  · exact persists_refl e
  rename_i x _
  have enrolled : Persists e (e.enroll b s x) := persists_same (enroll_connections e b s x)
  simp only [attach]
  split
  · rename_i attached
    split at attached
    · simp at attached
    · obtain rfl := (Prod.mk.inj attached).2
      exact persists_trans enrolled (persists_connection fun _ => ⟨rfl, rfl, .inl ⟨rfl, rfl⟩⟩)
  · rename_i attached
    split at attached
    · obtain rfl := (Prod.mk.inj attached).2
      refine persists_trans enrolled (persists_same ?_)
      exact (endLife_lists _ s Lifecycle.cancel).2.trans (leave_connections _ b s)
    · simp at attached

theorem persists_enter (e : Engine) (call : CallId) (b : BindingId) (s : SubscriptionId)
    (started : List (List Action)) : Persists e (e.enter call b s started).engine := by
  obtain ⟨replies, deliveries, more, eq, -⟩ := enter_branches e call b s started
  rw [eq]
  exact persists_after (persists_register e b s) rfl

theorem persists_seek (e : Engine) (call : CallId) (s : SubscriptionId) (key : SourceKey) :
    Persists e (e.seek call s key).engine := by
  rcases seek_cases e call s key with ⟨k, -, eq⟩ | ⟨-, eq⟩ <;> rw [eq] <;> exact persists_same rfl

theorem stopFeeding_connections (ss : List SubscriptionId) (e : Engine) :
    (e.stopFeeding ss).connections = e.connections :=
  stopFeeding_along (R := fun e e' => e'.connections = e.connections) (fun _ => rfl)
    (fun _ _ _ first second => second.trans first) ss (fun _ _ _ => rfl) e

theorem persists_schedule (event : BrokerEvent) (s : SubscriptionId) (e : Engine) :
    Persists e (e.schedule event s).2 := by
  rcases schedule_branches e event s with eq | ⟨c, eq⟩ | eq <;> rw [eq]
  · exact persists_refl e
  · exact persists_close e c
  · exact persists_same rfl

theorem persists_scheduleAll (event : BrokerEvent) (ss : List SubscriptionId) (e : Engine) :
    Persists e (scheduleAll event ss e).2 :=
  scheduleAll_along persists_refl (fun _ _ _ => persists_trans) event ss
    (fun s _ e => persists_schedule event s e) e

theorem persists_clerical (e : Engine) {a : Action} (clerical : a.clerical = true) :
    Persists e (e.perform a).engine := by
  obtain ⟨_, _, _, _, _, eq⟩ := clerical_engine e clerical
  rw [eq]
  exact persists_same rfl

theorem perform_persists (e : Engine) (a : Action) (other : ∀ c f due r, a ≠ .enqueue c f due r) :
    Persists e (e.perform a).engine := by
  cases a with
  | enqueue c f due r => exact absurd rfl (other c f due r)
  | subscribe call c clientId r =>
    rcases subscribe_cases e call c clientId r with ⟨fault, eq⟩ | ⟨compiled, -, -, eq⟩ <;> rw [eq]
    · exact persists_same rfl
    · exact persists_before (persists_seek _ call _ _) rfl
  | join call b s =>
    rcases joinBinding_branches e call b s with eq | ⟨key, eq⟩ | eq | eq | ⟨due, eq⟩ <;>
    rw [perform, eq]
    · exact persists_refl e
    · exact persists_before (persists_seek _ call s _) rfl
    · exact persists_enter e call b s []
    · exact persists_same rfl
    · exact persists_same rfl
  | openSource call b s due =>
    rcases openBinding_branches e call b s with eq | ⟨hub, fault, eq⟩ | ⟨hub, c, eq⟩ <;>
    rw [perform, eq]
    · exact persists_refl e
    · exact persists_same rfl
    · exact persists_before (persists_enter _ call b s _) rfl
  | unsubscribe s =>
    rcases unsubscribe_cases e s with eq | ⟨x, -, -, eq⟩ <;> rw [perform, eq]
    · exact persists_refl e
    · exact persists_depart e s _ Lifecycle.cancel
  | terminate s t =>
    rcases terminate_cases e s t with eq | ⟨x, -, -, eq⟩ <;> rw [perform, eq]
    · exact persists_refl e
    · exact persists_after (persists_depart e s _ Lifecycle.retire) rfl
  | leave b s => exact persists_same (leave_connections e b s)
  | releaseInbox s => exact persists_same (stopFeeding_connections [s] e)
  | fanOut call? b event =>
    obtain ⟨replies, eq⟩ := fanOut_engine e call? b event
    rw [eq]
    exact persists_after (persists_scheduleAll event (e.targets b) e) rfl
  | failBinding b => exact persists_same (empty_connections e b).1
  | sweep b =>
    exact persists_same ((stopFeeding_connections _ _).trans (empty_connections e b).1)
  | deliverNext s =>
    obtain ⟨next, -, eq | ⟨rest, n, eq⟩⟩ := deliverNext_cases e s <;> rw [perform, eq] <;>
    exact persists_same rfl
  | endDelivery s =>
    rcases endDelivery_cases e s with eq | ⟨n, deliveries, eq⟩ <;> rw [perform, eq] <;>
    exact persists_same rfl
  | release c =>
    rcases release_cases e c with ⟨-, eq⟩ | ⟨e', -, rfl, eq⟩ <;> rw [perform, eq]
    · exact persists_refl e
    · exact persists_before (persists_close _ c) rfl
  | resolve | endResolver | connectionReleased => exact persists_same rfl
  | _ => exact persists_clerical e rfl

/-- The engine adds to a queue what it hands over, at the end, and takes nothing out. -/
theorem perform_queueOf (e : Engine) (a : Action) (c : ConnectionId) :
    (e.perform a).engine.queueOf c = e.queueOf c ++ entered c (e.happenings a) := by
  by_cases entering : ∃ c f due r, a = .enqueue c f due r
  · obtain ⟨c', f, due, r, rfl⟩ := entering
    exact enqueue_queueOf e c' f due r c
  · have kept := (perform_persists e a fun c f due r same => entering ⟨c, f, due, r, same⟩).waits
    have silent : entered c (e.happenings a) = [] := by
      cases a with
      | enqueue c f due r => exact absurd ⟨c, f, due, r, rfl⟩ entering
      | fanOut call? b event => simp [happenings, entered]
      | _ => rfl
    rw [kept c, silent]
    exact (List.append_nil _).symm

/-- Of which kind a connection is stays, and told to stop by the engine is only one that is
closed. -/
theorem perform_line (e : Engine) (a : Action) {z : Connection}
    (found : e.connections[c]? = some z) :
    ∃ z', (e.perform a).engine.connections[c]? = some z' ∧ z'.transport = z.transport ∧
      (z.cancelled = z.closed → z'.cancelled = z'.closed) := by
  have lasting {e' : Engine} (persists : Persists e e') : ∃ z', e'.connections[c]? = some z' ∧
      z'.transport = z.transport ∧ (z.cancelled = z.closed → z'.cancelled = z'.closed) := by
    obtain ⟨z', found', lasts⟩ := persists.line c z found
    refine ⟨z', found', lasts.transport, fun even => ?_⟩
    rcases lasts.state with ⟨closed, cancelled⟩ | ⟨closed, cancelled⟩
    · rw [closed, cancelled, even]
    · rw [closed, cancelled]
  by_cases entering : ∃ c f due r, a = .enqueue c f due r
  · obtain ⟨c', f, due, r, rfl⟩ := entering
    cases takes : e.takes c' with
    | true =>
      obtain ⟨e', same, connections, -⟩ := enqueue_taken (f := f) (r := r) takes
      have there : (e.enqueue c' f r).engine.connections[c]? =
          some (if c' = c then { z with queue := z.queue ++ [f] } else z) := by
        rw [same, receipt_connections, connections]
        by_cases here : c' = c <;> simp [here, found]
      refine ⟨_, there, ?_⟩
      split
      · exact ⟨rfl, id⟩
      · exact ⟨rfl, id⟩
    | false => exact lasting (refused_persists takes)
  · exact lasting (perform_persists e a fun c f due r same => entering ⟨c, f, due, r, same⟩)

def Halts (e : Engine) (c : ConnectionId) : Prop :=
  ∃ z, e.connections[c]? = some z ∧ z.cancelled = true

theorem Persists.halts (persists : Persists e e') (halts : e.Halts c) : e'.Halts c := by
  obtain ⟨z, found, cancelled⟩ := halts
  obtain ⟨z', found', lasts⟩ := persists.line c z found
  refine ⟨z', found', ?_⟩
  rcases lasts.state with ⟨-, same⟩ | ⟨-, now⟩
  · exact same.trans cancelled
  · exact now

theorem halts_update {g : Connection → Connection} (c' : ConnectionId)
    (stays : ∀ z, z.cancelled = true → (g z).cancelled = true) (halts : e.Halts c) :
    (e.updateConnection c' g).Halts c := by
  obtain ⟨z, found, cancelled⟩ := halts
  by_cases here : c' = c
  · exact ⟨g z, by simp [updateConnection, here, found], stays z cancelled⟩
  · exact ⟨z, by simp [updateConnection, here, found], cancelled⟩

theorem halts_same (same : e'.connections = e.connections) (halts : e.Halts c) : e'.Halts c := by
  unfold Halts at halts ⊢
  rwa [same]

theorem perform_halts (a : Action) (halts : e.Halts c) : (e.perform a).engine.Halts c := by
  by_cases entering : ∃ c f due r, a = .enqueue c f due r
  · obtain ⟨c', f, due, r, rfl⟩ := entering
    cases takes : e.takes c' with
    | true =>
      obtain ⟨e', same, connections, -⟩ := enqueue_taken (f := f) (r := r) takes
      have longer : (e.updateConnection c' fun z => { z with queue := z.queue ++ [f] }).Halts c :=
        halts_update c' (fun _ cancelled => cancelled) halts
      simp only [perform, same]
      exact halts_same ((receipt_connections ..).trans connections) longer
    | false => exact (refused_persists takes).halts halts
  · exact (perform_persists e a fun c f due r same => entering ⟨c, f, due, r, same⟩).halts halts

theorem input_halts (i : Input) (halts : e.Halts c) : (i.apply e).Halts c := by
  cases i with
  | connect t =>
    obtain ⟨z, found, cancelled⟩ := halts
    have old := (List.getElem?_eq_some_iff.mp found).1
    exact ⟨z, (List.getElem?_append_left old).trans found, cancelled⟩
  | close c' => exact (persists_close e c').halts halts
  | cancel c' => exact halts_update c' (fun _ _ => rfl) halts
  | take c' most =>
    simp only [Input.apply, takeFrames]
    split
    · exact halts_update c' (fun _ cancelled => cancelled) halts
    · exact halts
  | stopReading c' => exact halts_update c' (fun _ cancelled => cancelled) halts
  | call | brokers | pass => exact halts_same rfl halts

def Input.reads : Input → Bool
  | .take .. | .stopReading _ => true
  | _ => false

theorem input_waits (e : Engine) (i : Input) (unread : i.reads = false) :
    QueuesSame e (i.apply e) := by
  cases i with
  | connect t =>
    intro c
    have made : (Input.apply e (.connect t)).connections =
        e.connections ++ [({ transport := t } : Connection)] := rfl
    simp only [queueOf, made]
    rcases Nat.lt_or_ge c e.connections.length with old | new
    · rw [List.getElem?_append_left old]
    · rw [List.getElem?_append_right new, List.getElem?_eq_none new]
      cases c - e.connections.length <;> rfl
  | close c => exact (persists_close e c).waits
  | cancel c => 
    intro c'
    rw [Input.apply, cancelConnection, queueOf_update, queueOf]
    cases e.connections[c']? with
    | none => rfl
    | some z => by_cases same : c = c' <;> simp [same]
  | take | stopReading => simp [Input.reads] at unread
  | _ => exact (persists_same rfl).waits

theorem input_drains (e : Engine) (i : Input) : Drains e (i.apply e) := by
  cases i with
  | stopReading c => exact drains_connection fun _ => List.nil_sublist _
  | take c most =>
    simp only [Input.apply, takeFrames]
    split
    · exact drains_connection fun _ => List.drop_sublist ..
    · exact drains_refl e
  | _ => exact drains_waits (input_waits e _ rfl)

end Engine

end SubscriptionGateway
