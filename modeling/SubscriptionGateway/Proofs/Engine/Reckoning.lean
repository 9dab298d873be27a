import SubscriptionGateway.Proofs.Engine.Parting
import SubscriptionGateway.Proofs.Engine.Tally

/-!
What the counters say. An action makes the same changes to them whatever they stand at, and none
that lowers a number that is nought. A connection that is no longer managed is counted until its
release has ended, and every data and error that a queue has taken has been counted.
-/
namespace SubscriptionGateway

open Broker

namespace Counters

/-- Lowering a number that is nought. -/
def saturates (c : Counters) : Change → Prop
  | .subscriptionRemoved => c.subscriptions = 0
  | .connectionClosed => c.connections = 0
  | _ => False

/-- Changes one after the other that lower no number that is nought. -/
def Exact (c : Counters) : List Change → Prop
  | [] => True
  | change :: rest => ¬ c.saturates change ∧ Exact (c.apply change) rest

end Counters

namespace Engine

variable {e e' : Engine} {a : Action} {s : SubscriptionId} {b : BindingId} {x : Subscriber}
  {rest : List Action}

def accepted (talk : List Happening) : List (ConnectionId × Frame) :=
  talk.filterMap fun
    | .queued c f _ => if f.isMessage then some (c, f) else none
    | .found .. => none

/-! ## Single operations -/

structure Writes (e e' : Engine) (l : List Counters.Change) : Prop where
  counters : e'.counters = l.foldl Counters.apply e.counters
  managed : e'.managed = e.managed

theorem writes_trans {e'' : Engine} {l m : List Counters.Change} (first : Writes e e' l)
    (second : Writes e' e'' m) : Writes e e'' (l ++ m) :=
  ⟨by rw [second.counters, first.counters, List.foldl_append],
    second.managed.trans first.managed⟩

theorem writes_leave (e : Engine) (b : BindingId) (s : SubscriptionId) :
    Writes e (e.leave b s) [] := by
  refine ⟨(leave_registered e b s).2, ?_⟩
  have left := congrArg Books.managed (books_leave e b s)
  exact left.trans (Books.leave_rest e.books b s).2.1

theorem writes_endLife {f : Lifecycle → Bool × Lifecycle} (found : e.subscribers[s]? = some x)
    (active : (f x.life).1 = true) : Writes e (e.endLife s f) [.subscriptionRemoved] := by
  simp only [endLife, found, active, ↓reduceIte]
  exact ⟨rfl, rfl⟩

theorem writes_enroll (b : BindingId) (s : SubscriptionId) (pending : x.life.phase = .pending) :
    Writes e (e.enroll b s x) [.subscriptionAdded] := by
  simp only [enroll, Lifecycle.activate, pending, ↓reduceIte]
  exact ⟨rfl, rfl⟩

theorem writes_refusal (b : BindingId) (found : e.subscribers[s]? = some x)
    (pending : x.life.phase = .pending) :
    Writes e (e.refusal b s x) [.subscriptionAdded, .subscriptionRemoved] := by
  obtain ⟨y, found', alike, -⟩ := leave_starves (enroll_record b found) b s
  have active : (y.life.cancel).1 = true := by
    rw [alike.life]
    simp [Lifecycle.cancel, Lifecycle.isActive, Lifecycle.activate, pending]
  have left : Writes (e.enroll b s x) (((e.enroll b s x).leave b s).deregister s) [] :=
    ⟨(writes_leave _ b s).counters, (writes_leave _ b s).managed⟩
  have ended : Writes (((e.enroll b s x).leave b s).deregister s) (e.refusal b s x)
      [.subscriptionRemoved] := writes_endLife found' active
  exact writes_trans (writes_trans (writes_enroll b s pending) left) ended

/-- Whoever enters a binding is counted, and counted out again when it is refused. -/
def entering (e : Engine) (x : Subscriber) : List Counters.Change :=
  if e.isClosed x.connection then [.subscriptionAdded, .subscriptionRemoved]
  else [.subscriptionAdded]

theorem writes_enter (call : CallId) (b : BindingId) (started : List (List Action))
    (found : e.subscribers[s]? = some x) (pending : x.life.phase = .pending) :
    Writes e (e.enter call b s started).engine (e.entering x) := by
  rcases enter_cases call b started found with ⟨isOpen, admitted⟩ | ⟨closed, refused⟩
  · rw [admitted, entering, isOpen]
    obtain ⟨counters, managed⟩ := writes_enroll (e := e) b s pending
    exact ⟨counters, managed⟩
  · rw [refused, entering, closed]
    obtain ⟨counters, managed⟩ := writes_refusal b found pending
    exact ⟨counters, managed⟩

theorem writes_stopFeeding (ss : List SubscriptionId) (e : Engine) :
    Writes e (e.stopFeeding ss) [] :=
  stopFeeding_along (R := fun e e' => Writes e e' []) (fun _ => ⟨rfl, rfl⟩)
    (fun _ _ _ => writes_trans) ss (fun _ _ _ => ⟨rfl, rfl⟩) e

theorem writes_scheduleAll (event : BrokerEvent) (ss : List SubscriptionId) (e : Engine) :
    Writes e (scheduleAll event ss e).2 [] := by
  refine scheduleAll_along (R := fun e e' => Writes e e' []) (fun _ => ⟨rfl, rfl⟩)
    (fun _ _ _ => writes_trans) event ss (fun s _ e => ?_) e
  rcases schedule_branches e event s with eq | ⟨c, eq⟩ | eq <;> rw [eq] <;> exact ⟨rfl, rfl⟩

theorem writes_empty (e : Engine) (b : BindingId) : Writes e (e.empty b).2 [] := by
  simp only [empty]
  split <;> exact ⟨rfl, rfl⟩

theorem writes_seek {l : List Counters.Change} (before : Writes e e' l) (call : CallId)
    (s : SubscriptionId) (key : SourceKey) : Writes e (e'.seek call s key).engine l := by
  simp only [seek, bindingFor]
  split <;> exact ⟨before.counters, before.managed⟩

theorem writes_receipt {l : List Counters.Change} (before : Writes e e' l)
    (result : Except Fault Unit) (r : Receipt) : Writes e (e'.receipt result r).engine l := by
  cases r <;> cases result <;> exact ⟨before.counters, before.managed⟩

def sending (e : Engine) (c : ConnectionId) (f : Frame) : List Counters.Change :=
  if e.takes c ∧ f.isMessage then [.messageSent] else []

theorem writes_enqueue (e : Engine) (c : ConnectionId) (f : Frame) (r : Receipt) :
    Writes e (e.enqueue c f r).engine (e.sending c f) := by
  rcases enqueue_cases e c f r with ⟨taken, eq⟩ | ⟨refused, e', fault, eq, rfl | rfl⟩ <;>
  rw [eq]
  · refine writes_receipt ?_ _ r
    simp only [sending, taken, true_and]
    cases f.isMessage <;> exact ⟨rfl, rfl⟩
  · refine writes_receipt ?_ _ r
    simp only [sending, refused, Bool.false_eq_true, false_and, ↓reduceIte]
    exact ⟨rfl, rfl⟩
  · refine writes_receipt ?_ _ r
    simp only [sending, refused, Bool.false_eq_true, false_and, ↓reduceIte]
    exact ⟨rfl, rfl⟩

theorem writes_clerical (e : Engine) (clerical : a.clerical = true) :
    Writes e (e.perform a).engine [] := by
  obtain ⟨_, _, _, _, _, eq⟩ := clerical_engine e clerical
  rw [eq]
  exact ⟨rfl, rfl⟩

/-! ## Every action -/

def Action.counting (e : Engine) : Action → List Counters.Change → Prop
  | .join .., l | .openSource .., l =>
    l = [] ∨ l = [.subscriptionAdded] ∨ l = [.subscriptionAdded, .subscriptionRemoved]
  | .unsubscribe s, l | .terminate s _, l =>
    l = if e.isRegistered s then [.subscriptionRemoved] else []
  | .connectionReleased, l => l = [.connectionClosed]
  | .enqueue c f _ _, l => l = e.sending c f
  | _, l => l = []

theorem entering_counting (e : Engine) (x : Subscriber) : e.entering x = [] ∨
    e.entering x = [.subscriptionAdded] ∨
      e.entering x = [.subscriptionAdded, .subscriptionRemoved] := by
  simp only [entering]
  split
  · exact .inr (.inr rfl)
  · exact .inr (.inl rfl)

def Makes (e : Engine) (a : Action) (l : List Counters.Change) : Prop :=
  ∀ c : Counters, (({ e with counters := c } : Engine).perform a).engine.counters =
    l.foldl Counters.apply c

def Action.managing (managed : List ConnectionId) : Action → List ConnectionId
  | .release c => managed.filter (· != c)
  | _ => managed

structure Counts (e : Engine) (a : Action) (l : List Counters.Change) : Prop where
  makes : Makes e a l
  counting : a.counting e l
  managed : (e.perform a).engine.managed = a.managing e.managed

theorem counts_written {l : List Counters.Change} (counting : a.counting e l)
    (same : a.managing e.managed = e.managed)
    (written : ∀ c, Writes { e with counters := c }
      (({ e with counters := c } : Engine).perform a).engine l) : ∃ l, Counts e a l :=
  ⟨l, fun c => (written c).counters, counting, (written e.counters).managed.trans same.symm⟩

theorem join_counts {call : CallId} (sound : e.books.Sound (duties (.join call b s :: rest))) :
    ∃ l, Counts e (.join call b s) l := by
  obtain ⟨y, here, -, -⟩ := seeker_binding sound rfl
  obtain ⟨x, found, pending⟩ := seeker_pending sound rfl
  have cases (c : Counters) := joinBinding_cases (e := { e with counters := c }) call s here
  by_cases enters : y.phase = .opened ∧ e.accepting = true
  · refine counts_written (entering_counting e x) rfl fun c => ?_
    rcases cases c with ⟨closed, -⟩ | ⟨-, -, eq⟩ | ⟨-, refuses, -⟩ | ⟨opening, -⟩
    · simp [enters.1] at closed
    · simp only [perform, eq]
      exact writes_enter (e := { e with counters := c }) call b [] found pending
    · simp [enters.2] at refuses
    · simp [enters.1] at opening
  · refine counts_written (l := []) (.inl rfl) rfl fun c => ?_
    rcases cases c with ⟨-, eq⟩ | ⟨opened, accepts, -⟩ | ⟨-, -, eq⟩ | ⟨-, eq⟩
    · simp only [perform, eq]
      refine writes_seek ?_ call s y.key
      exact ⟨rfl, rfl⟩
    · exact absurd ⟨opened, accepts⟩ enters
    · simp only [perform, eq]
      exact ⟨rfl, rfl⟩
    · simp only [perform, eq]
      exact ⟨rfl, rfl⟩

theorem openSource_counts {call : CallId} {due : Nat}
    (sound : e.books.Sound (duties (.openSource call b s due :: rest))) :
    ∃ l, Counts e (.openSource call b s due) l := by
  obtain ⟨y, here, -, -⟩ := seeker_binding sound rfl
  obtain ⟨x, found, pending⟩ := seeker_pending sound rfl
  have cases (c : Counters) := openBinding_cases (e := { e with counters := c }) call s here
  have opens (c : Counters) : ({ e with counters := c } : Engine).consumerFor? b =
    e.consumerFor? b := rfl
  by_cases enters : e.consumerFor? b ≠ none ∧ e.accepting = true
  · refine counts_written (entering_counting e x) rfl fun c => ?_
    rcases cases c with ⟨_, _, none, -⟩ | ⟨_, hub, -, -, eq⟩ | ⟨_, _, -, refuses, -⟩
    · exact absurd ((opens c).symm.trans none) enters.1
    · simp only [perform, eq]
      let e' : Engine := { e with counters := c, hub := hub }
      obtain ⟨counters, managed⟩ :=
        writes_enter (e := e'.updateBinding b Binding.opened) call b _ found pending
      exact ⟨counters, managed⟩
    · simp [enters.2] at refuses
  · refine counts_written (l := []) (.inl rfl) rfl fun c => ?_
    rcases cases c with ⟨_, _, -, eq⟩ | ⟨_, _, some, accepts, -⟩ | ⟨_, _, -, -, eq⟩
    · simp only [perform, eq]
      exact ⟨rfl, rfl⟩
    · exact absurd ⟨by simp [← opens c, some], accepts⟩ enters
    · simp only [perform, eq]
      exact ⟨rfl, rfl⟩

theorem registered_active {d : Duties} (sound : e.books.Sound d)
    (registered : e.isRegistered s = true) :
    ∃ x, e.subscribers[s]? = some x ∧ x.life.isActive = true := by
  have active := (sound.active_iff s).mp ((isRegistered_iff e s).mp registered)
  obtain ⟨x, found, phase⟩ := subscriber_of_phase e active
  exact ⟨x, found, by simp [Lifecycle.isActive, phase]⟩

theorem writes_end {f : Lifecycle → Bool × Lifecycle} {d : Duties} (sound : e.books.Sound d)
    (ends : ∀ l : Lifecycle, l.isActive = true → (f l).1 = true) (c : Counters)
    (registered : e.isRegistered s = true) :
    ∃ x, e.subscribers[s]? = some x ∧ Writes ({ e with counters := c } : Engine)
      (({ e with counters := c } : Engine).deregister s |>.endLife s f) [.subscriptionRemoved] := by
  obtain ⟨x, found, active⟩ := registered_active sound registered
  obtain ⟨counters, managed⟩ := writes_endLife
    (e := ({ e with counters := c } : Engine).deregister s) found (ends x.life active)
  exact ⟨x, found, counters, managed⟩

def Action.counts : Action → Bool
  | .join .. | .openSource .. | .unsubscribe _ | .terminate .. | .enqueue .. | .release _ => true
  | .connectionReleased => true
  | _ => false

theorem writes_uncounted (e : Engine) (a : Action) (uncounted : a.counts = false) :
    Writes e (e.perform a).engine [] := by
  cases a with
  | join | openSource | unsubscribe | terminate | enqueue | release | connectionReleased =>
    cases uncounted
  | subscribe call c clientId r =>
    rcases subscribe_cases e call c clientId r with ⟨fault, eq⟩ | ⟨compiled, -, -, eq⟩ <;> rw [eq]
    · exact ⟨rfl, rfl⟩
    · refine writes_seek ?_ call _ _
      exact ⟨rfl, rfl⟩
  | leave b s => exact writes_leave e b s
  | releaseInbox s => exact writes_stopFeeding [s] e
  | failBinding b => exact writes_trans (writes_empty e b) ⟨rfl, rfl⟩
  | sweep b =>
    have emptied := writes_trans (writes_empty e b) (writes_stopFeeding (e.empty b).1 _)
    exact writes_trans emptied ⟨rfl, rfl⟩
  | fanOut call? b event =>
    obtain ⟨replies, eq⟩ := fanOut_engine e call? b event
    rw [eq]
    exact writes_trans (writes_scheduleAll event (e.targets b) e) ⟨rfl, rfl⟩
  | deliverNext s =>
    obtain ⟨next, -, eq | ⟨rest, n, eq⟩⟩ := deliverNext_cases e s <;> rw [perform, eq] <;>
    exact ⟨rfl, rfl⟩
  | endDelivery s =>
    rcases endDelivery_cases e s with eq | ⟨n, deliveries, eq⟩ <;> rw [perform, eq] <;>
    exact ⟨rfl, rfl⟩
  | resolve | endResolver => exact ⟨rfl, rfl⟩
  | _ => exact writes_clerical e rfl

theorem release_counts (e : Engine) (k : ConnectionId) : ∃ l, Counts e (.release k) l := by
  by_cases managed : e.managed.contains k = true
  · refine ⟨[], fun c => ?_, rfl, ?_⟩ <;> simp only [perform, release, managed, ↓reduceIte] <;> rfl
  · have all : e.managed.filter (· != k) = e.managed :=
      List.filter_eq_self.mpr fun a member => by
        simp only [List.contains_iff_mem] at managed
        grind
    refine counts_written (l := []) rfl all fun c => ?_
    simp only [perform, release, managed]
    exact ⟨rfl, rfl⟩

theorem perform_counts (sound : e.books.Sound (duties (a :: rest))) : ∃ l, Counts e a l := by
  cases a with
  | join call b s => exact join_counts sound
  | openSource call b s due => exact openSource_counts sound
  | unsubscribe s =>
    refine counts_written rfl rfl fun c => ?_
    simp only [perform, unsubscribe]
    cases registered : e.isRegistered s with
    | true =>
      obtain ⟨x, found, counters, managed⟩ :=
        writes_end sound (f := Lifecycle.cancel) (fun _ active => active) c registered
      have same : ({ e with counters := c } : Engine).isRegistered s = true := registered
      simp only [same, found]
      exact ⟨counters, managed⟩
    | false =>
      have same : ({ e with counters := c } : Engine).isRegistered s = false := registered
      simp only [same]
      exact ⟨rfl, rfl⟩
  | terminate s t =>
    refine counts_written rfl rfl fun c => ?_
    simp only [perform, terminate]
    cases registered : e.isRegistered s with
    | true =>
      obtain ⟨x, found, counters, managed⟩ :=
        writes_end sound (f := Lifecycle.retire) (fun _ active => active) c registered
      have same : ({ e with counters := c } : Engine).isRegistered s = true := registered
      simp only [same, found]
      exact ⟨counters, managed⟩
    | false =>
      have same : ({ e with counters := c } : Engine).isRegistered s = false := registered
      simp only [same]
      exact ⟨rfl, rfl⟩
  | release k => exact release_counts e k
  | enqueue c f due r =>
    exact counts_written rfl rfl fun k => writes_enqueue { e with counters := k } c f r
  | connectionReleased => exact counts_written rfl rfl fun c => ⟨rfl, rfl⟩
  | _ => exact counts_written rfl rfl fun c => writes_uncounted { e with counters := c } _ rfl

/-! ## Throughout -/

def Action.released? : Action → Option Unit
  | .connectionReleased => some ()
  | _ => none

/-- The connections that are counted and not managed any more. -/
def outstanding (pool : List Action) : List Unit := pool.filterMap Action.released?

theorem released_brought {b : Action} (brought : a.Brings b) (ends : b.released? ≠ none) :
    ∃ c, a = .release c := by
  cases b with
  | connectionReleased => cases a <;> simp_all [Action.Brings]
  | _ => exact absurd rfl ends

theorem perform_outstanding (e : Engine) (a : Action) :
    (a.managing e.managed = e.managed ∧ outstanding (e.perform a).sequel = []) ∨
    ∃ c ∈ e.managed, a = .release c ∧ outstanding (e.perform a).sequel = [()] := by
  by_cases releases : ∃ c, a = .release c
  · obtain ⟨c, rfl⟩ := releases
    by_cases managed : e.managed.contains c = true
    · refine .inr ⟨c, List.contains_iff_mem.mp managed, rfl, ?_⟩
      simp only [perform, release, managed, ↓reduceIte, Effect.sequel, List.flatten_nil,
        List.append_nil, outstanding, List.filterMap_append, List.filterMap_map]
      exact congrArg (· ++ [()]) (List.filterMap_eq_nil_iff.mpr fun o _ => rfl)
    · left
      refine ⟨List.filter_eq_self.mpr fun d member => ?_, ?_⟩
      · simp only [List.contains_iff_mem] at managed
        grind
      · simp only [perform, release, managed]
        rfl
  · left
    refine ⟨?_, sequel_silent fun b brought => ?_⟩
    · cases a with
      | release c => exact absurd ⟨c, rfl⟩ releases
      | _ => rfl
    · by_contra ends
      exact releases (released_brought brought ends)

/-- Of one action: connections are counted out by the ends of releases, and messages are counted
when a queue takes them. -/
theorem counting_changes {l : List Counters.Change} (counting : a.counting e l) (c : Counters) :
    (l.foldl Counters.apply c).connections = c.connections - (outstanding [a]).length ∧
    (l.foldl Counters.apply c).messages = c.messages + (accepted (e.happenings a)).length := by
  have entered (none : accepted (e.happenings a) = []) (still : outstanding [a] = [])
      (counted : l = [] ∨ l = [.subscriptionAdded] ∨
        l = [.subscriptionAdded, .subscriptionRemoved] ∨ l = [.subscriptionRemoved]) :
      (l.foldl Counters.apply c).connections = c.connections - (outstanding [a]).length ∧
      (l.foldl Counters.apply c).messages =
        c.messages + (accepted (e.happenings a)).length := by
    rw [none, still]
    rcases counted with rfl | rfl | rfl | rfl <;> exact ⟨rfl, rfl⟩
  cases a with
  | join | openSource =>
    refine entered rfl rfl ?_
    rcases counting with rfl | rfl | rfl <;> simp
  | unsubscribe s | terminate s t =>
    refine entered rfl rfl ?_
    cases counting
    split <;> simp
  | connectionReleased =>
    cases counting
    exact ⟨rfl, rfl⟩
  | enqueue k f due r =>
    cases counting
    have still : outstanding [Action.enqueue k f due r] = [] := rfl
    simp only [still, sending, happenings]
    by_cases taken : e.takes k = true
    · by_cases message : f.isMessage = true
      · simp [taken, message, accepted, Counters.apply]
      · simp [taken, message, accepted]
    · simp [taken, accepted]
  | fanOut call? b event =>
    refine entered ?_ rfl (.inl counting)
    simp [accepted, happenings, List.filterMap_map]
  | _ => exact entered rfl rfl (.inl counting)

theorem counting_exact {l : List Counters.Change} (counting : a.counting e l)
    (tallied : Tallied e) (counted : (outstanding [a]).length ≤ e.counters.connections) :
    e.counters.Exact l := by
  have entered (counts : l = [] ∨ l = [.subscriptionAdded] ∨
      l = [.subscriptionAdded, .subscriptionRemoved]) : e.counters.Exact l := by
    rcases counts with rfl | rfl | rfl <;>
    simp [Counters.Exact, Counters.saturates, Counters.apply]
  have ended (s : SubscriptionId)
      (counts : l = if e.isRegistered s then [.subscriptionRemoved] else []) :
      e.counters.Exact l := by
    subst counts
    split
    · rename_i registered
      have member := List.contains_iff_mem.mp registered
      have some := List.length_pos_of_mem member
      have count := tallied.count
      refine ⟨fun nought : e.counters.subscriptions = 0 => ?_, trivial⟩
      omega
    · trivial
  cases a with
  | join | openSource => exact entered counting
  | unsubscribe s => exact ended s counting
  | terminate s t => exact ended s counting
  | connectionReleased =>
    cases counting
    have one : (outstanding [.connectionReleased]).length = 1 := rfl
    refine ⟨fun nought : e.counters.connections = 0 => ?_, trivial⟩
    omega
  | enqueue k f due r =>
    cases counting
    simp only [sending]
    split
    · exact ⟨id, trivial⟩
    · trivial
  | _ => exact entered (.inl counting)

/-- The connections that are counted are managed, or their release has still to count them out. -/
structure Counted (e : Engine) (pool : List Action) : Prop where
  connections : e.counters.connections = e.managed.length + (outstanding pool).length
  managed_nodup : e.managed.Nodup
  made : ∀ c ∈ e.managed, c < e.connections.length

theorem counted_shuffle {p q : List Action} (perm : p.Perm q) (before : Counted e p) :
    Counted e q := by
  have same : (outstanding p).length = (outstanding q).length := (perm.filterMap _).length_eq
  exact { before with connections := by rw [before.connections, same] }

theorem input_counted {pool : List Action} (i : Input) (sound : e.books.Sound (duties pool))
    (before : Counted e pool) : Counted (i.apply e) (i.task e ++ pool) := by
  obtain ⟨connections, nodup, made⟩ := before
  have opens : outstanding (i.task e) = [] := by
    cases i with
    | call k => cases k <;> rfl
    | _ => rfl
  have outstanding : outstanding (i.task e ++ pool) = outstanding pool := by
    rw [outstanding, List.filterMap_append]
    exact congrArg (· ++ _) opens
  have more : e.connections.length ≤ (i.apply e).connections.length :=
    (input_keeps i sound).2.made
  have same (managed : (i.apply e).managed = e.managed)
      (counters : (i.apply e).counters = e.counters) : Counted (i.apply e) (i.task e ++ pool) :=
    { connections := by rw [counters, managed, outstanding, connections]
      managed_nodup := managed ▸ nodup
      made := fun c member => Nat.lt_of_lt_of_le (made c (managed ▸ member)) more }
  cases i with
  | connect t =>
    refine ⟨?_, ?_, fun c member => ?_⟩
    · have one : (Input.apply e (.connect t)).counters.connections = e.counters.connections + 1 :=
        rfl
      have holder : (Input.apply e (.connect t)).managed = e.managed ++ [e.connections.length] :=
        rfl
      rw [outstanding, one, holder, List.length_append, List.length_singleton, connections]
      omega
    · refine List.nodup_append.mpr ⟨nodup, List.nodup_singleton _, fun c member d last => ?_⟩
      rw [List.mem_singleton.mp last]
      exact Nat.ne_of_lt (made c member)
    · simp only [Input.apply, openConnection, count, List.length_append, List.length_singleton]
      rcases List.mem_append.mp member with old | last
      · exact Nat.lt_succ_of_lt (made c old)
      · rw [List.mem_singleton.mp last]
        exact Nat.lt_succ_self _
  | take c most =>
    refine same ?_ ?_
    · simp only [Input.apply, takeFrames]
      split <;> rfl
    · simp only [Input.apply, takeFrames]
      split <;> rfl
  | _ => exact same rfl rfl

theorem perform_counted (ready : e.ready a = true) (sound : e.books.Sound (duties (a :: rest)))
    (before : Counted e (a :: rest)) : Counted (e.perform a).engine
      ((e.perform a).next ++ (e.perform a).started.flatten ++ rest) := by
  obtain ⟨l, makes, counting, managed⟩ := perform_counts sound
  have connections := (counting_changes counting e.counters).1
  have counters : (e.perform a).engine.counters = l.foldl Counters.apply e.counters :=
    makes e.counters
  have split : outstanding (a :: rest) = outstanding [a] ++ outstanding rest := by
    rw [outstanding, ← List.singleton_append, List.filterMap_append]
    rfl
  have after : outstanding ((e.perform a).next ++ (e.perform a).started.flatten ++ rest) =
      outstanding (e.perform a).sequel ++ outstanding rest := List.filterMap_append
  have counted := before.connections
  rw [split, List.length_append] at counted
  have more : e.connections.length ≤ (e.perform a).engine.connections.length :=
    (perform_keeps ready sound).2.made
  refine ⟨?_, ?_, fun c member => ?_⟩
  · rw [counters, connections, managed, after, List.length_append]
    rcases perform_outstanding e a with ⟨same, none⟩ | ⟨c, member, rfl, one⟩
    · rw [same, none, List.length_nil]
      omega
    · have fewer : (e.managed.filter (· != c)).length = e.managed.length - 1 := by
        rw [← List.Nodup.erase_eq_filter before.managed_nodup, List.length_erase_of_mem member]
      have some := List.length_pos_of_mem member
      have itself : outstanding [Action.release c] = [] := rfl
      rw [itself, List.length_nil] at counted ⊢
      simp only [one, Action.managing, fewer, List.length_singleton]
      omega
  · rw [managed]
    cases a with
    | release c => exact before.managed_nodup.filter _
    | _ => exact before.managed_nodup
  · refine Nat.lt_of_lt_of_le (before.made c ?_) more
    rw [managed] at member
    cases a with
    | release d => exact (List.mem_filter.mp member).1
    | _ => exact member

theorem giveUp_counted (counted : Counted e (a :: rest)) (suspends : a.suspends = true)
    (c : ConnectionId) : Counted ((e.giveUp a).stopReading c) rest := by
  obtain ⟨bindings, given⟩ := giveUp_rest e a
  have none : a.released? = none := by cases a <;> first | rfl | cases suspends
  have same : outstanding (a :: rest) = outstanding rest := List.filterMap_cons_none none
  rw [given]
  refine ⟨same ▸ counted.connections, counted.managed_nodup, fun c' member => ?_⟩
  simpa [stopReading, updateConnection] using counted.made c' member

theorem counted_upheld : Upheld Accounted fun e ts _ => Counted e ts.flatten := by
  refine upheld_pending (P := fun e pool _ => Counted e pool) ?_ ?_ ?_
  · intro e p q log perm before
    exact counted_shuffle perm before
  · intro e ts log i accounted before
    exact input_counted i accounted before
  · intro e a rest ts log ready pending accounted before
    exact perform_counted ready (accounted.sound pending) before

structure Reckoned (e : Engine) (pool : List Action) (log : Steps) : Prop
    extends Counted e pool where
  messages : e.counters.messages = (accepted (log.flatMap fun p => p.1.happenings p.2)).length
  exact : ∀ p ∈ log, ∃ l, Makes p.1 p.2 l ∧ p.1.counters.Exact l

theorem input_messages (e : Engine) (i : Input) :
    (i.apply e).counters.messages = e.counters.messages := by
  cases i with
  | take c most =>
    simp only [Input.apply, takeFrames]
    split <;> rfl
  | _ => rfl

theorem input_reckoned {pool : List Action} {log : Steps} (i : Input)
    (sound : e.books.Sound (duties pool)) (before : Reckoned e pool log) :
    Reckoned (i.apply e) (i.task e ++ pool) log :=
  ⟨input_counted i sound before.toCounted, (input_messages e i).trans before.messages,
    before.exact⟩

theorem perform_reckoned {log : Steps} (ready : e.ready a = true)
    (sound : e.books.Sound (duties (a :: rest))) (tallied : Tallied e)
    (before : Reckoned e (a :: rest) log) :
    Reckoned (e.perform a).engine ((e.perform a).next ++ (e.perform a).started.flatten ++ rest)
      (log ++ [(e, a)]) := by
  obtain ⟨l, makes, counting, -⟩ := perform_counts sound
  refine ⟨perform_counted ready sound before.toCounted, ?_, fun p member => ?_⟩
  · have counters : (e.perform a).engine.counters = l.foldl Counters.apply e.counters :=
      makes e.counters
    rw [counters, (counting_changes counting e.counters).2, before.messages]
    simp [accepted]
  · rcases List.mem_append.mp member with old | last
    · exact before.exact p old
    · obtain rfl := List.mem_singleton.mp last
      refine ⟨l, makes, counting_exact counting tallied ?_⟩
      have counted : e.counters.connections = _ := before.connections
      rw [outstanding, ← List.singleton_append, List.filterMap_append, List.length_append]
        at counted
      simp only [outstanding]
      omega

theorem reckoned_upheld : Upheld (fun e ts log => Accounted e ts log ∧ Tallied e)
    fun e ts log => Reckoned e ts.flatten log := by
  refine upheld_pending (P := Reckoned) ?_ ?_ ?_
  · intro e p q log perm before
    exact { before with toCounted := counted_shuffle perm before.toCounted }
  · intro e ts log i known before
    exact input_reckoned i known.1 before
  · intro e a rest ts log ready pending known before
    exact perform_reckoned ready (known.1.sound pending) known.2 before

theorem start_reckoned (setup : Setup) (hub : Hub) : Always (World.start setup hub)
    fun e ts log => (Accounted e ts log ∧ Tallied e) ∧ Reckoned e ts.flatten log := by
  have begun : Reckoned (Engine.start setup hub) [] [] :=
    ⟨⟨rfl, List.nodup_nil, fun c member => absurd member (List.not_mem_nil)⟩, rfl,
      fun p member => absurd member (List.not_mem_nil)⟩
  exact ((start_accounted setup hub).and tallied_upheld ⟨rfl⟩).and reckoned_upheld begun

theorem rest_outstanding {w : World} (quiet : w.atRest = true) : outstanding w.pending = [] := by
  refine List.filterMap_eq_nil_iff.mpr fun a member => ?_
  have idle : a.inCall = false := by simpa using List.all_eq_true.mp quiet a member
  cases a with
  | connectionReleased => simp [Action.inCall] at idle
  | _ => rfl

/-- The active subscriptions are counted exactly at all times, the connections whenever no call is
on its way, and the messages are all those that queues have taken. No action has ever lowered a
number that was nought. -/
theorem counters_exact (setup : Setup) (hub : Hub) (moves : List Move) :
    let w := (World.start setup hub).play moves
    (w.state.counters.subscriptions = w.state.registered.length ∧ w.state.registered.Nodup) ∧
    (w.atRest = true → w.state.counters.connections = w.state.managed.length) ∧
    w.state.managed.Nodup ∧
    w.state.counters.messages =
      (accepted ((World.start setup hub).record happenings moves)).length ∧
    ∀ p ∈ (World.start setup hub).steps moves, ∃ l, Makes p.1 p.2 l ∧ p.1.counters.Exact l := by
  intro w
  obtain ⟨⟨accounted, tallied⟩, reckoned⟩ := (start_reckoned setup hub).throughout moves
  refine ⟨⟨tallied.count, accounted.registered_nodup⟩, fun quiet => ?_, reckoned.managed_nodup, ?_,
    reckoned.exact⟩
  · have none : outstanding w.tasks.flatten = [] := rest_outstanding quiet
    have counted := reckoned.connections
    rwa [none, List.length_nil, Nat.add_zero] at counted
  · rw [World.record_steps]
    exact reckoned.messages

def staffFarewell : List Move :=
  staffMoves ++ staffAnswer ++ .input (.call (.release 0)) :: staffRelease

theorem staff_counters_exact :
    let w := (World.start staffSetup staffHub).play staffFarewell
    w.atRest = true ∧ w.state.registered.length = 0 ∧ w.state.managed.length = 0 ∧
    (accepted ((World.start staffSetup staffHub).record happenings staffFarewell)).length = 1 := by
  intro w
  have quiet : w.atRest = true := by decide +kernel
  have counted : w.state.counters = ⟨0, 0, 1⟩ := by decide +kernel
  obtain ⟨⟨subscriptions, -⟩, connections, -, messages, -⟩ :=
    counters_exact staffSetup staffHub staffFarewell
  refine ⟨quiet, ?_, ?_, ?_⟩
  · rw [← subscriptions, counted]
  · rw [← connections quiet, counted]
  · rw [← messages, counted]

end Engine

end SubscriptionGateway
