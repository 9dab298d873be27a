import SubscriptionGateway.Engine.Machine
import Mathlib.Data.List.Forall2

/-!
What went wrong, worded in one way or another. A fault that is not the client's to know becomes the
same outcome however it is worded. The engine keeps what it has answered and never looks at it
again: whatever stands among its answers, an action does the same, and adds the same answers. What
brokers report comes to such answers and to nothing else.
-/
namespace SubscriptionGateway

open Broker

namespace Fault

/-- Whether its text tells what brokers, servers, sources or decoders have reported. -/
def isInternal : Fault → Bool
  | .transport _ | .decode _ | .sourceUnavailable _ | .source _ | .fatal _ => true
  | .notFound _ | .config _ | .serialization | .internal _ => true
  | .resolution _ _ | .invalidOperation _ | .subscriptionsBlocked | .shuttingDown => false

def SameToClients (f g : Fault) : Prop := f = g ∨ (f.isInternal = true ∧ g.isInternal = true)

theorem alike_refl (f : Fault) : SameToClients f f := .inl rfl

variable {f g h : Fault}

theorem alike_symm (alike : SameToClients f g) : SameToClients g f := by
  rcases alike with rfl | ⟨one, other⟩
  · exact alike_refl f
  · exact .inr ⟨other, one⟩

theorem alike_trans (first : SameToClients f g) (second : SameToClients g h) :
    SameToClients f h := by
  rcases first with rfl | ⟨one, _⟩
  · exact second
  rcases second with rfl | ⟨_, other⟩
  · exact .inr ⟨one, ‹_›⟩
  · exact .inr ⟨one, other⟩

theorem clientMessage_internal (internal : f.isInternal = true) : f.clientMessage = concealed := by
  cases f <;> first | rfl | cases internal

theorem clientMessage_alike (alike : SameToClients f g) : f.clientMessage = g.clientMessage := by
  rcases alike with rfl | ⟨one, other⟩
  · rfl
  · rw [clientMessage_internal one, clientMessage_internal other]

theorem outcome_internal (internal : f.isInternal = true) :
    Outcome.ofFault f = .errors [.concealed] := by
  cases f <;> first | rfl | cases internal

theorem outcome_alike (alike : SameToClients f g) : Outcome.ofFault f = Outcome.ofFault g := by
  rcases alike with rfl | ⟨one, other⟩
  · rfl
  · rw [outcome_internal one, outcome_internal other]

end Fault

/-! ## Resolutions -/

namespace Resolver

/-- What a resolution comes to before it is told: when it breaks down, with what last words. -/
structure Result where
  takesMs : Nat
  result : Except String (Except Fault Json)
  sent? : Option EntityRequest

structure Result.SameToClients (r r' : Result) : Prop where
  takesMs : r.takesMs = r'.takesMs
  sent : r.sent? = r'.sent?
  result : r.result = r'.result ∨
    (∃ last last', r.result = .error last ∧ r'.result = .error last') ∨
    ∃ f g, f.SameToClients g ∧ r.result = .ok (.error f) ∧ r'.result = .ok (.error g)

def Result.work (r : Result) : Work :=
  ⟨r.takesMs, r.result.toOption.map Resolution.outcome, r.sent?⟩

def ofResults (results : CompiledSubscription → List UInt8 → Result) : Resolver :=
  fun s payload => (results s payload).work

def results (last : String) (source? : Option EntitySource) (s : CompiledSubscription)
    (payload : List UInt8) : Result :=
  match Resolution.start s source?.isSome payload with
  | .error fault => ⟨0, .ok (.error fault), none⟩
  | .ok started =>
    match source?, started.wanted with
    | some source, some wanted =>
      let e := source wanted
      ⟨e.takesMs, match e.answer? with
        | none => .error last
        | some (.error fault) => .ok (.error fault)
        | some (.ok entity) =>
            .ok (Resolution.finish s (Resolution.complete started.object entity)),
        if e.sent then some wanted else none⟩
    | _, _ => ⟨0, .ok (Resolution.finish s started.object), none⟩

theorem ofSource_eq (last : String) (source? : Option EntitySource) :
    ofSource source? = ofResults (results last source?) := by
  funext s payload
  unfold ofSource ofResults results
  cases Resolution.start s source?.isSome payload with
  | error fault => rfl
  | ok started =>
    obtain ⟨object, wanted⟩ := started
    cases source? with
    | none => rfl
    | some source =>
      cases wanted with
      | none => rfl
      | some wanted =>
        dsimp only [Result.work, completed]
        cases (source wanted).answer? with
        | none => rfl
        | some answer => cases answer <;> rfl

theorem work_alike {r r' : Result} (alike : r.SameToClients r') : r.work = r'.work := by
  unfold Result.work
  rw [alike.takesMs, alike.sent]
  rcases alike.result with same | ⟨last, last', one, other⟩ | ⟨f, g, faults, one, other⟩
  · rw [same]
  · rw [one, other]
    rfl
  · rw [one, other]
    have outcome := Fault.outcome_alike faults
    simp [Except.toOption, Resolution.outcome, outcome]

/-- However the faults are worded that resolutions come to, what is told of them is the same. -/
theorem ofResults_alike {results results' : CompiledSubscription → List UInt8 → Result}
    (alike : ∀ s payload, (results s payload).SameToClients (results' s payload)) :
    ofResults results = ofResults results' := by
  funext s payload
  exact work_alike (alike s payload)

end Resolver

/-! ## Answers -/

namespace Reply

/-- The same answer, or one failure for another like it. -/
def SameToClients (r r' : Reply) : Prop :=
  r = r' ∨ ∃ f g : Fault, f.SameToClients g ∧ r = .failed f ∧ r' = .failed g

theorem alike_refl (r : Reply) : SameToClients r r := .inl rfl

theorem alike_symm {r r' : Reply} (alike : SameToClients r r') : SameToClients r' r := by
  rcases alike with rfl | ⟨f, g, faults, one, other⟩
  · exact alike_refl r
  · exact .inr ⟨g, f, Fault.alike_symm faults, other, one⟩

theorem alike_trans {r r' r'' : Reply} (first : SameToClients r r')
    (second : SameToClients r' r'') : SameToClients r r'' := by
  rcases first with rfl | ⟨f, g, faults, one, other⟩
  · exact second
  rcases second with rfl | ⟨g', h, more, same, last⟩
  · exact .inr ⟨f, g, faults, one, other⟩
  · obtain rfl : g = g' := by simpa using other.symm.trans same
    exact .inr ⟨f, h, Fault.alike_trans faults more, one, last⟩

end Reply

namespace Engine

def retell (e : Engine) (rs : List (CallId × Reply)) : Engine := { e with replies := rs }

namespace Effect

def retell (f : Effect) (rs : List (CallId × Reply)) : Effect :=
  { f with engine := f.engine.retell rs }

end Effect

/-- What comes of some answers, for every such list, is one effect with answers of its own added. -/
def AddsAnswers (all : List (CallId × Reply) → Effect) (f : Effect) : Prop :=
  ∃ more, ∀ rs, all rs = f.retell (rs ++ more)

variable {e : Engine} {rs : List (CallId × Reply)}

theorem tells_nothing {all : List (CallId × Reply) → Effect} {f : Effect}
    (silent : ∀ rs, all rs = f.retell rs) :
    AddsAnswers all f :=
  ⟨[], fun rs => by rw [silent, List.append_nil]⟩

theorem tells_reply (e : Engine) (call : CallId) (r : Reply) (next : List Action)
    (started : List (List Action)) :
    AddsAnswers (fun rs => ⟨(e.retell rs).reply call r, next, started⟩)
      ⟨e.reply call r, next, started⟩ :=
  ⟨[(call, r)], fun _ => rfl⟩

theorem tells_ite {c : Prop} [Decidable c] {all others : List (CallId × Reply) → Effect}
    {f g : Effect}
    (one : AddsAnswers all f) (other : AddsAnswers others g) :
    AddsAnswers (fun rs => if c then all rs else others rs) (if c then f else g) := by
  by_cases holds : c
  · simpa only [if_pos holds] using one
  · simpa only [if_neg holds] using other

theorem retell_bindings : (e.retell rs).bindings = e.bindings := rfl
theorem retell_subscribers : (e.retell rs).subscribers = e.subscribers := rfl
theorem retell_hub : (e.retell rs).hub = e.hub := rfl
theorem retell_accepting : (e.retell rs).accepting = e.accepting := rfl

/-! ## The parts of actions -/

theorem retell_attach (c : ConnectionId) (s : SubscriptionId) (id : String) :
    (e.retell rs).attach c s id = ((e.attach c s id).1, (e.attach c s id).2.retell rs) := by
  have same : (e.retell rs).isClosed c = e.isClosed c := rfl
  unfold attach
  rw [same]
  split <;> rfl

theorem retell_takeFrames (c : ConnectionId) (most : Nat) :
    (e.retell rs).takeFrames c most = ((e.takeFrames c most).1,
      (e.takeFrames c most).2.retell rs) := by
  unfold takeFrames retell
  dsimp only
  cases e.connections[c]? <;> rfl

theorem retell_bindingFor (key : SourceKey) :
    (e.retell rs).bindingFor key = ((e.bindingFor key).1, (e.bindingFor key).2.retell rs) := by
  have same : (e.retell rs).bindingFor? key = e.bindingFor? key := rfl
  unfold bindingFor
  rw [same]
  cases e.bindingFor? key <;> rfl

theorem retell_closeIfIdle (b : BindingId) :
    (e.retell rs).closeIfIdle b = (e.closeIfIdle b).retell rs := by
  unfold closeIfIdle retell
  dsimp only
  cases e.bindings[b]? with
  | none => rfl
  | some x => dsimp only; split <;> rfl

theorem retell_dropMember (b : BindingId) (s : SubscriptionId) :
    (e.retell rs).dropMember b s = (e.dropMember b s).retell rs := by
  have same : (e.retell rs).isMember b s = e.isMember b s := rfl
  unfold dropMember
  rw [same]
  dsimp only
  split <;> rfl

theorem retell_leave (b : BindingId) (s : SubscriptionId) :
    (e.retell rs).leave b s = (e.leave b s).retell rs := by
  unfold leave
  rw [retell_dropMember, retell_closeIfIdle]

theorem retell_endLife (s : SubscriptionId) (f : Lifecycle → Bool × Lifecycle) :
    (e.retell rs).endLife s f = (e.endLife s f).retell rs := by
  unfold endLife retell
  dsimp only
  cases e.subscribers[s]? with
  | none => rfl
  | some x => dsimp only; split <;> rfl

theorem retell_enroll (b : BindingId) (s : SubscriptionId) (x : Subscriber) :
    (e.retell rs).enroll b s x = (e.enroll b s x).retell rs := by
  unfold enroll
  dsimp only
  split <;> rfl

theorem retell_register (b : BindingId) (s : SubscriptionId) :
    (e.retell rs).register b s = ((e.register b s).1, (e.register b s).2.retell rs) := by
  have same : (e.retell rs).subscribers = e.subscribers := rfl
  unfold register
  rw [same]
  cases e.subscribers[s]? with
  | none => rfl
  | some x =>
    dsimp only
    rw [retell_enroll, retell_attach]
    generalize (e.enroll b s x).attach x.connection s x.clientId = attached
    obtain ⟨_ | _, e⟩ := attached
    · dsimp only
      rw [retell_leave]
      exact congrArg (Prod.mk _) (retell_endLife (e := (e.leave b s).deregister s) s _)
    · rfl

theorem retell_schedule (event : BrokerEvent) (s : SubscriptionId) :
    (e.retell rs).schedule event s =
      ((e.schedule event s).1, (e.schedule event s).2.retell rs) := by
  unfold schedule retell
  dsimp only
  cases e.subscribers[s]? with
  | none => rfl
  | some x =>
    dsimp only
    split
    · rfl
    · split <;> rfl

theorem retell_scheduleAll (event : BrokerEvent) (ss : List SubscriptionId) :
    scheduleAll event ss (e.retell rs) =
      ((scheduleAll event ss e).1, (scheduleAll event ss e).2.retell rs) := by
  induction ss generalizing e with
  | nil => rfl
  | cons s ss ih => simp only [scheduleAll, retell_schedule, ih]

theorem retell_fanOut (b : BindingId) (event : BrokerEvent) :
    (e.retell rs).fanOut b event = ((e.fanOut b event).1, (e.fanOut b event).2.retell rs) := by
  have active : (e.retell rs).isActive = e.isActive := rfl
  have same : (e.retell rs).bindings = e.bindings := rfl
  unfold fanOut
  rw [same, active]
  cases e.bindings[b]? with
  | none => rfl
  | some x =>
    dsimp only
    split
    · exact retell_scheduleAll event _
    · rfl

theorem retell_empty (b : BindingId) :
    (e.retell rs).empty b = ((e.empty b).1, (e.empty b).2.retell rs) := by
  unfold empty retell
  dsimp only
  cases e.bindings[b]? <;> rfl

theorem retell_stopFeeding (ss : List SubscriptionId) :
    (e.retell rs).stopFeeding ss = (e.stopFeeding ss).retell rs := by
  unfold stopFeeding
  induction ss generalizing e with
  | nil => rfl
  | cons s ss ih => exact ih (e := e.updateSubscriber s fun x => { x with fed := false })

theorem retell_endDelivery (s : SubscriptionId) :
    (e.retell rs).endDelivery s = (e.endDelivery s).retell rs := by
  unfold endDelivery retell
  dsimp only
  cases e.subscribers[s]? <;> rfl

theorem retell_prepare (c : ConnectionId) (id : String) (r : Request) :
    (e.retell rs).prepare c id r =
      (e.prepare c id r).map fun prepared =>
        (prepared.1, prepared.2.1, prepared.2.2.retell rs) := by
  have closed : (e.retell rs).isClosed c = e.isClosed c := rfl
  unfold prepare
  rw [closed]
  unfold retell
  dsimp only
  split
  · rfl
  split
  · rfl
  cases e.setup.catalog.compile r with
  | error err => rfl
  | ok compiled =>
    dsimp only
    cases e.hub.find compiled.sourceKey.provider <;> rfl

/-! ## Actions -/

theorem retell_seek (call : CallId) (s : SubscriptionId) (key : SourceKey) :
    (e.retell rs).seek call s key = (e.seek call s key).retell rs := by
  unfold seek
  rw [retell_bindingFor]
  rfl

theorem tells_enter (e : Engine) (call : CallId) (b : BindingId) (s : SubscriptionId)
    (started : List (List Action)) :
    AddsAnswers (fun rs => (e.retell rs).enter call b s started) (e.enter call b s started) := by
  unfold enter
  simp only [retell_register]
  generalize e.register b s = registered
  obtain ⟨_ | _, e⟩ := registered
  · exact ⟨_, fun _ => rfl⟩
  · exact ⟨_, fun _ => rfl⟩

theorem tells_join (e : Engine) (call : CallId) (b : BindingId) (s : SubscriptionId) :
    AddsAnswers (fun rs => (e.retell rs).joinBinding call b s) (e.joinBinding call b s) := by
  unfold joinBinding
  simp only [retell_bindings, retell_accepting]
  cases e.bindings[b]? with
  | none => exact tells_nothing fun _ => rfl
  | some x =>
    dsimp only
    cases x.phase with
    | closed => exact tells_nothing fun rs => retell_seek (e := e.unlist b) call s x.key
    | opened =>
      exact tells_ite (c := e.accepting = true) (tells_enter e call b s [])
        (tells_reply e call _ [] [])
    | opening => exact tells_nothing fun _ => rfl

theorem tells_open (e : Engine) (call : CallId) (b : BindingId) (s : SubscriptionId) :
    AddsAnswers (fun rs => (e.retell rs).openBinding call b s) (e.openBinding call b s) := by
  unfold openBinding
  simp only [retell_bindings, retell_hub]
  cases e.bindings[b]? with
  | none => exact tells_nothing fun _ => rfl
  | some x =>
    dsimp only
    cases e.hub.find x.key.provider with
    | error f => exact ⟨_, fun _ => rfl⟩
    | ok p =>
      dsimp only
      cases e.hub.openConsumer p x.key with
      | mk opened hub =>
        cases opened with
        | error err => exact ⟨_, fun _ => rfl⟩
        | ok consumer =>
          refine tells_ite (c := e.accepting = true) (tells_enter
            (Engine.updateBinding { e with hub := hub } b fun x =>
              { x with phase := .opened, locked := false })
            call b s _) ?_
          exact ⟨_, fun _ => rfl⟩

theorem tells_subscribe (e : Engine) (call : CallId) (c : ConnectionId) (id : String)
    (r : Request) :
    AddsAnswers (fun rs => (e.retell rs).perform (.subscribe call c id r))
      (e.perform (.subscribe call c id r)) := by
  unfold perform
  simp only [retell_prepare]
  cases e.prepare c id r with
  | error f => exact tells_reply e call _ [] []
  | ok prepared =>
    obtain ⟨s, key, e⟩ := prepared
    exact tells_nothing fun rs => retell_seek call s key

theorem retell_unsubscribe (s : SubscriptionId) :
    (e.retell rs).unsubscribe s = (e.unsubscribe s).retell rs := by
  have same : (e.retell rs).isRegistered s = e.isRegistered s := rfl
  unfold unsubscribe
  rw [same, retell_subscribers]
  cases e.isRegistered s with
  | false => rfl
  | true =>
    cases e.subscribers[s]? with
    | none => rfl
    | some x =>
      have ended : ((e.deregister s).retell rs).endLife s Lifecycle.cancel =
          ((e.deregister s).endLife s Lifecycle.cancel).retell rs := retell_endLife s _
      dsimp only
      rw [show (e.retell rs).deregister s = (e.deregister s).retell rs from rfl, ended]
      rfl

theorem retell_terminate (s : SubscriptionId) (t : Termination) :
    (e.retell rs).terminate s t = (e.terminate s t).retell rs := by
  have same : (e.retell rs).isRegistered s = e.isRegistered s := rfl
  unfold terminate
  rw [same, retell_subscribers]
  cases e.isRegistered s with
  | false => rfl
  | true =>
    cases e.subscribers[s]? with
    | none => rfl
    | some x =>
      have ended : ((e.deregister s).retell rs).endLife s Lifecycle.retire =
          ((e.deregister s).endLife s Lifecycle.retire).retell rs := retell_endLife s _
      dsimp only
      rw [show (e.retell rs).deregister s = (e.deregister s).retell rs from rfl, ended]
      rfl

theorem retell_consumeNext (b : BindingId) (c : ConsumerId) (a : Hub.Awaiting) :
    (e.retell rs).consumeNext b c a = (e.consumeNext b c a).retell rs := by
  unfold consumeNext
  rw [retell_bindings, retell_hub]
  cases e.bindings[b]? with
  | none => rfl
  | some x =>
    dsimp only
    split
    · rfl
    · have same : (e.retell rs).now = e.now := rfl
      rw [same]
      generalize e.hub.poll e.now c a = polled
      obtain ⟨p, hub⟩ := polled
      cases p <;> rfl

theorem retell_failBinding (b : BindingId) :
    (e.retell rs).failBinding b = (e.failBinding b).retell rs := by
  unfold failBinding
  rw [retell_empty]
  rfl

theorem retell_sweep (b : BindingId) : (e.retell rs).sweep b = (e.sweep b).retell rs := by
  unfold sweep
  rw [retell_empty]
  dsimp only
  rw [retell_stopFeeding]
  rfl

theorem retell_deliverNext (s : SubscriptionId) :
    (e.retell rs).deliverNext s = (e.deliverNext s).retell rs := by
  unfold deliverNext
  rw [retell_subscribers]
  cases e.subscribers[s]? with
  | none => rfl
  | some x =>
    dsimp only
    split
    · rfl
    cases x.termination? with
    | some t => rfl
    | none =>
      dsimp only
      cases x.inbox <;> dsimp only <;> split <;> rfl

theorem retell_runResolver (r : ResolutionId) :
    (e.retell rs).runResolver r = (e.runResolver r).retell rs := by
  unfold runResolver retell
  dsimp only
  cases e.resolutions[r]? with
  | none => rfl
  | some x =>
    dsimp only
    cases e.subscribers[x.subscriber]? <;> rfl

theorem retell_deliverOutcome (s : SubscriptionId) (r : ResolutionId) :
    (e.retell rs).deliverOutcome s r = (e.deliverOutcome s r).retell rs := by
  unfold deliverOutcome retell
  dsimp only
  cases e.subscribers[s]? with
  | none => rfl
  | some x =>
    cases e.resolutions[r]? with
    | none => rfl
    | some y =>
      dsimp only
      cases x.life.isActive <;> cases y.outcome? <;> rfl

theorem tells_receipt (e : Engine) (r : Except Fault Unit) (receipt : Receipt) :
    AddsAnswers (fun rs => (e.retell rs).receipt r receipt) (e.receipt r receipt) := by
  cases receipt with
  | ending s => exact tells_nothing fun _ => rfl
  | event s => cases r <;> exact tells_nothing fun _ => rfl
  | call call => cases r <;> exact ⟨_, fun _ => rfl⟩

theorem tells_offer (e : Engine) (c : ConnectionId) (f : Frame) (r : Receipt) :
    AddsAnswers (fun rs => (e.retell rs).offer c f r) (e.offer c f r) :=
  tells_ite (c := e.isClosed c = true) (tells_receipt e _ r) (tells_nothing fun _ => rfl)

theorem tells_enqueue (e : Engine) (c : ConnectionId) (f : Frame) (r : Receipt) :
    AddsAnswers (fun rs => (e.retell rs).enqueue c f r) (e.enqueue c f r) := by
  have same : ∀ rs, (e.retell rs).connections = e.connections := fun _ => rfl
  unfold enqueue
  simp only [same]
  cases e.connections[c]? with
  | none => exact tells_receipt e _ r
  | some x =>
    refine tells_ite (c := (!x.read) = true) (tells_receipt (e.closeConnection c).2 _ r) ?_
    refine tells_ite (c := e.hasRoom x = true) ?_ (tells_receipt (e.closeConnection c).2 _ r)
    cases f.isMessage with
    | true =>
      exact tells_receipt (Engine.count (e.updateConnection c fun x =>
        { x with queue := x.queue ++ [f] }) .messageSent) _ r
    | false =>
        exact tells_receipt (e.updateConnection c fun x => { x with queue := x.queue ++ [f] }) _ r

theorem retell_release (c : ConnectionId) : (e.retell rs).release c = (e.release c).retell rs := by
  unfold release retell
  dsimp only
  split <;> rfl

theorem perform_retell (e : Engine) (a : Action) :
    AddsAnswers (fun rs => (e.retell rs).perform a) (e.perform a) := by
  cases a with
  | subscribe call c id r => exact tells_subscribe e call c id r
  | join call b s => exact tells_join e call b s
  | openSource call b s due => exact tells_open e call b s
  | unsubscribe s => exact tells_nothing fun _ => retell_unsubscribe s
  | terminate s t => exact tells_nothing fun _ => retell_terminate s t
  | leave b s => exact tells_nothing fun rs => congrArg (Effect.mk · [] []) (retell_leave b s)
  | releaseInbox s =>
    exact tells_nothing fun rs => congrArg (Effect.mk · [] []) (retell_stopFeeding [s])
  | dispatch call event =>
    unfold perform
    have same : ∀ rs, (e.retell rs).bindingFor? event.key = e.bindingFor? event.key := fun _ => rfl
    simp only [same]
    cases e.bindingFor? event.key with
    | none => exact tells_reply e call _ [] []
    | some b => exact tells_nothing fun _ => rfl
  | fanOut call? b event =>
    unfold perform
    simp only [retell_fanOut]
    cases call? with
    | none => exact tells_nothing fun _ => rfl
    | some call => exact tells_reply (e.fanOut b event).2 call _ [] []
  | consume b c a => exact tells_nothing fun _ => retell_consumeNext b c a
  | closeConsumer c => exact tells_nothing fun _ => rfl
  | failBinding b => exact tells_nothing fun _ => retell_failBinding b
  | deliverNext s => exact tells_nothing fun _ => retell_deliverNext s
  | resolve s event => exact tells_nothing fun _ => rfl
  | runResolver r => exact tells_nothing fun _ => retell_runResolver r
  | endResolver r w due => exact tells_nothing fun _ => rfl
  | deliverOutcome s r => exact tells_nothing fun _ => retell_deliverOutcome s r
  | offer c f r => exact tells_offer e c f r
  | enqueue c f due r => exact tells_enqueue e c f r
  | endDelivery s =>
    exact tells_nothing fun rs => congrArg (Effect.mk · [] []) (retell_endDelivery s)
  | release c => exact tells_nothing fun _ => retell_release c
  | connectionReleased => exact tells_nothing fun _ => rfl
  | releaseAll => exact tells_nothing fun _ => rfl
  | shutdown drainMs => exact tells_nothing fun _ => rfl
  | awaitDrain deadline due =>
    exact tells_ite (c := e.inFlight = 0 ∨ deadline ≤ e.now) (tells_nothing fun _ => rfl)
      (tells_nothing fun _ => rfl)
  | terminateAll => exact tells_nothing fun _ => rfl
  | sweepAll => exact tells_nothing fun _ => rfl
  | sweep b => exact tells_nothing fun _ => retell_sweep b
  | awaitDeliveries => exact tells_nothing fun _ => rfl
  | pollDeliveries deadline due =>
    exact tells_ite (c := e.deliveries = 0 ∨ deadline ≤ e.now) (tells_nothing fun _ => rfl)
      (tells_nothing fun _ => rfl)
  | answer call r => exact tells_reply e call r [] []

theorem ready_retell (a : Action) : (e.retell rs).ready a = e.ready a := by
  cases a <;> rfl

def SameAnswers (rs rs' : List (CallId × Reply)) : Prop :=
  List.Forall₂ (fun p q => p.1 = q.1 ∧ p.2.SameToClients q.2) rs rs'

theorem sameAnswers_refl (rs : List (CallId × Reply)) : SameAnswers rs rs :=
  List.forall₂_same.mpr fun p _ => ⟨rfl, Reply.alike_refl p.2⟩

theorem sameAnswers_symm {rs rs' : List (CallId × Reply)} (same : SameAnswers rs rs') :
    SameAnswers rs' rs :=
  same.flip.imp fun _ _ pair => ⟨pair.1.symm, Reply.alike_symm pair.2⟩

theorem sameAnswers_trans {rs rs' rs'' : List (CallId × Reply)} (first : SameAnswers rs rs')
    (second : SameAnswers rs' rs'') : SameAnswers rs rs'' := by
  induction first generalizing rs'' with
  | nil => exact second
  | cons head _ ih =>
    cases second with
    | cons next tail => exact .cons ⟨head.1.trans next.1, Reply.alike_trans head.2 next.2⟩ (ih tail)

theorem sameAnswers_append {rs rs' more more' : List (CallId × Reply)} (same : SameAnswers rs rs')
    (others : SameAnswers more more') : SameAnswers (rs ++ more) (rs' ++ more') :=
  List.rel_append same others

theorem reply?_retell (same : SameAnswers e.replies rs) (call : CallId) :
    (∃ f g : Fault, f.SameToClients g ∧ e.reply? call = some (.failed f) ∧
      (e.retell rs).reply? call = some (.failed g)) ∨
    (e.retell rs).reply? call = e.reply? call := by
  unfold reply? retell
  dsimp only
  revert same
  generalize e.replies = answers
  intro same
  induction same with
  | nil => exact .inr rfl
  | @cons p q ps qs head _ ih =>
    obtain ⟨named, alike⟩ := head
    rw [List.find?_cons, List.find?_cons, ← named]
    cases p.1 == call with
    | false => exact ih
    | true =>
      rcases alike with same | ⟨f, g, faults, one, other⟩
      · exact .inr (by simp [same])
      · exact .inl ⟨f, g, faults, by simp [one], by simp [other]⟩

/-! ## What brokers report -/

def afterOpening (e : Engine) (call : CallId) (b : BindingId) (s : SubscriptionId) :
    Except BrokerError ConsumerId → Effect
  | .error err => ((e.closeBinding b).unlist b).fail call err.fault
  | .ok c =>
    if e.accepting then
      (e.updateBinding b fun x => { x with phase := .opened, locked := false }).enter call b s
        [[.consume b c .news]]
    else
      let e := (e.closeBinding b).unlist b
      { e with hub := e.hub.closeConsumer c }.fail call .shuttingDown

def afterPoll (e : Engine) (b : BindingId) (c : ConsumerId) : Hub.Polled → Effect
  | .event event => ⟨e, [.fanOut none b event, .consume b c .news], []⟩
  | .ended => ⟨e, [.closeConsumer c, .failBinding b], []⟩
  | .failed _ => ⟨e, [.closeConsumer c, .failBinding b], []⟩
  | .pending a => ⟨e, [.consume b c a], []⟩

/-- Brokers that put what they report in words of their own. -/
abbrev Parlance := BrokerError → BrokerError

def Parlance.polled (t : Parlance) : Hub.Polled → Hub.Polled
  | .failed err => .failed (t err)
  | p => p

def performIn (t : Parlance) (e : Engine) (a : Action) : Effect :=
  match a with
  | .openSource call b s _ =>
    match e.bindings[b]? with
    | none => ⟨e, [], []⟩
    | some x =>
      match e.hub.find x.key.provider with
      | .error f => ((e.closeBinding b).unlist b).fail call f
      | .ok p =>
        let (opened, hub) := e.hub.openConsumer p x.key
        { e with hub := hub }.afterOpening call b s (opened.mapError t)
  | .consume b c a =>
    match e.bindings[b]? with
    | none => ⟨e, [], []⟩
    | some x =>
      if x.cancelled then ⟨e, [.closeConsumer c], []⟩
      else
        let (p, hub) := e.hub.poll e.now c a
        { e with hub := hub }.afterPoll b c (t.polled p)
  | a => e.perform a

theorem performIn_id (e : Engine) (a : Action) : e.performIn id a = e.perform a := by
  cases a with
  | openSource call b s due =>
    unfold performIn perform openBinding
    dsimp only
    cases e.bindings[b]? with
    | none => rfl
    | some x =>
      dsimp only
      cases e.hub.find x.key.provider with
      | error f => rfl
      | ok p =>
        dsimp only
        generalize e.hub.openConsumer p x.key = answer
        obtain ⟨_ | _, hub⟩ := answer <;> rfl
  | consume b c a =>
    unfold performIn perform consumeNext
    dsimp only
    cases e.bindings[b]? with
    | none => rfl
    | some x =>
      dsimp only
      split
      · rfl
      generalize e.hub.poll e.now c a = answer
      obtain ⟨p, hub⟩ := answer
      cases p <;> rfl
  | _ => rfl

theorem brokerError_internal (err : BrokerError) : err.fault.isInternal = true := by
  cases err <;> rfl

def SameDeed (f g : Effect) : Prop := ∃ rs, SameAnswers f.engine.replies rs ∧ g = f.retell rs

theorem sameDeed_refl (f : Effect) : SameDeed f f := ⟨_, sameAnswers_refl _, rfl⟩

/-- The words of brokers come to answers and to nothing else. -/
theorem performIn_deed (t : Parlance) (e : Engine) (a : Action) :
    SameDeed (e.perform a) (e.performIn t a) := by
  rw [← performIn_id]
  cases a with
  | openSource call b s due =>
    unfold performIn
    dsimp only
    cases e.bindings[b]? with
    | none => exact sameDeed_refl _
    | some x =>
      dsimp only
      cases e.hub.find x.key.provider with
      | error f => exact sameDeed_refl _
      | ok p =>
        dsimp only
        generalize e.hub.openConsumer p x.key = answer
        obtain ⟨err | c, hub⟩ := answer
        · refine ⟨e.replies ++ [(call, .failed (t err).fault)], ?_, rfl⟩
          have faults : err.fault.SameToClients (t err).fault :=
            .inr ⟨brokerError_internal err, brokerError_internal _⟩
          exact sameAnswers_append (sameAnswers_refl _)
            (List.Forall₂.cons ⟨rfl, .inr ⟨_, _, faults, rfl, rfl⟩⟩ .nil)
        · exact sameDeed_refl _
  | consume b c a =>
    unfold performIn
    dsimp only
    cases e.bindings[b]? with
    | none => exact sameDeed_refl _
    | some x =>
      dsimp only
      split
      · exact sameDeed_refl _
      generalize e.hub.poll e.now c a = answer
      obtain ⟨p, hub⟩ := answer
      cases p <;> exact sameDeed_refl _
  | _ => exact sameDeed_refl _

end Engine

end SubscriptionGateway
