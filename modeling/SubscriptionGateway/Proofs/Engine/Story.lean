import SubscriptionGateway.Proofs.Engine.Faithful

/-!
The story of one subscription. Of the events for which dispatches have found it, those that its
delivery has answered are the first ones; the invariant says what of the others is still in the
inbox or in hand, as long as the subscription is active and its connection open. Its own actions
carry the story on, up to its end.
-/
namespace SubscriptionGateway

open Broker

namespace Engine

def answerFrame (setup : Setup) (x : Subscriber) (event : BrokerEvent) : ConnectionId × Frame :=
  (x.connection, .ofOutcome x.clientId (answer setup x event))

def farewellFrame (x : Subscriber) : ConnectionId × Frame :=
  (x.connection, .error x.clientId [sourceFailed])

def waiting (x : Subscriber) : List (BrokerEvent × Bool) := x.inbox.map (·, true)

/-- What has been found for a subscription and not been answered, by where its delivery stands. -/
def Ahead (s : SubscriptionId) (e : Engine) (x : Subscriber) (ahead : List (BrokerEvent × Bool)) :
    Stand → Prop
  | .next => x.life.isActive = true → e.isClosed x.connection = false → ahead = waiting x
  | .resolve event => x.life.isActive = true → e.isClosed x.connection = false →
    ahead = (event, true) :: waiting x
  | .outcome r => ∃ y, e.resolutions[r]? = some y ∧ y.subscriber = s ∧
    (x.life.isActive = true → e.isClosed x.connection = false →
      ahead = (y.event, true) :: waiting x)
  | .offer c f => ∃ event, (c, f) = answerFrame e.setup x event ∧
    (e.isClosed x.connection = false → ahead = (event, true) :: waiting x)
  | .enqueue c f => ∃ event later, (c, f) = answerFrame e.setup x event ∧
    ahead = (event, true) :: later ∧ (e.isClosed x.connection = false → later = waiting x)
  | .done => True

/-- What has been found falls into what is answered and what is ahead; after the answers there may
be farewells. -/
def Told (s : SubscriptionId) (setup : Setup) (x : Subscriber) (log : List Happening)
    (ahead : List (BrokerEvent × Bool)) (bye : List (ConnectionId × Frame)) : Prop :=
  ∃ done, found s log = done ++ ahead ∧
    messages s log = done.map (fun d => answerFrame setup x d.1) ++ bye ∧ ∀ d ∈ done, d.2 = true

structure Story (s : SubscriptionId) (e : Engine) (pool : List Action) (log : List Happening)
    (x : Subscriber) : Prop where
  connected : x.connection < e.connections.length
  single : (stands s pool).length ≤ 1
  delivering : stands s pool ≠ [] → x.delivering = true
  termination : ∀ t, x.termination? = some t →
    (t = none ∨ t = some sourceFailed) ∧ x.life.phase = .cancelled
  /-- Before it is registered there is nothing to tell. -/
  begins : x.life.phase = .pending → Mute s pool ∧ found s log = [] ∧ messages s log = [] ∧
    x.inbox = [] ∧ x.delivering = true
  told : ∃ ahead bye, Told s e.setup x log ahead bye ∧
    (∀ t ∈ stands s pool, Ahead s e x ahead t ∧ (t = .done ∨ bye ++ farewells s pool = [])) ∧
    (bye ++ farewells s pool).length ≤ 1 ∧
    ∀ m ∈ bye ++ farewells s pool, m = farewellFrame x ∧ x.termination? = some (some sourceFailed)

variable {s : SubscriptionId} {e e' : Engine} {a : Action} {x x' : Subscriber}
  {pool pool' rest : List Action} {log log' : List Happening}

theorem answerFrame_same (same : x.Same x') (setup : e'.setup = e.setup) (event : BrokerEvent) :
    answerFrame e'.setup x' event = answerFrame e.setup x event := by
  simp only [answerFrame, answer, same.clientId, same.connection, same.compiled, setup]

theorem found_append (log log' : List Happening) :
    found s (log ++ log') = found s log ++ found s log' := by
  simp [found, List.filterMap_append]

theorem messages_append (log log' : List Happening) :
    messages s (log ++ log') = messages s log ++ messages s log' := by
  simp [messages, List.filterMap_append]

theorem stands_append (p q : List Action) : stands s (p ++ q) = stands s p ++ stands s q := by
  simp [stands, List.filterMap_append]

theorem farewells_append (p q : List Action) :
    farewells s (p ++ q) = farewells s p ++ farewells s q := by
  simp [farewells, List.filterMap_append]

/-- What is ahead stays ahead while the subscription is left alone. -/
theorem ahead_steady {ahead : List (BrokerEvent × Bool)} {t : Stand} (same : x.Same x')
    (inbox : x'.inbox = x.inbox) (active : x'.life.isActive = true → x.life.isActive = true)
    (connected : x.connection < e.connections.length) (onward : Onward e e')
    (before : Ahead s e x ahead t) : Ahead s e' x' ahead t := by
  have waits : waiting x' = waiting x := by rw [waiting, waiting, inbox]
  have isOpen (here : e'.isClosed x'.connection = false) : e.isClosed x.connection = false :=
    onward.closed _ connected (same.connection ▸ here)
  cases t with
  | next =>
    intro act here
    rw [waits]
    exact before (active act) (isOpen here)
  | resolve event =>
    intro act here
    rw [waits]
    exact before (active act) (isOpen here)
  | outcome r =>
    obtain ⟨y, read, who, before⟩ := before
    obtain ⟨y', read', who', event⟩ := onward.outlives r y read
    refine ⟨y', read', who'.trans who, fun act here => ?_⟩
    rw [waits, event]
    exact before (active act) (isOpen here)
  | offer c f =>
    obtain ⟨event, frame, before⟩ := before
    refine ⟨event, frame.trans (answerFrame_same same onward.setup event).symm, fun here => ?_⟩
    rw [waits]
    exact before (isOpen here)
  | enqueue c f =>
    obtain ⟨event, later, frame, split, before⟩ := before
    refine ⟨event, later, frame.trans (answerFrame_same same onward.setup event).symm, split,
      fun here => ?_⟩
    rw [waits]
    exact before (isOpen here)
  | done => trivial

theorem told_same {ahead : List (BrokerEvent × Bool)} {bye : List (ConnectionId × Frame)}
    (same : x.Same x') (setup : e'.setup = e.setup) (foundSame : found s log' = found s log)
    (messagesSame : messages s log' = messages s log) (told : Told s e.setup x log ahead bye) :
    Told s e'.setup x' log' ahead bye := by
  obtain ⟨done, split, answered, taken⟩ := told
  refine ⟨done, foundSame.trans split, messagesSame.trans ?_, taken⟩
  simpa only [answerFrame_same same setup] using answered

theorem Story.spared (story : Story s e pool log x) (same : x.Same x') (steady : x.SameButEnded x')
    (onward : Onward e e') (standsSame : stands s pool' = stands s pool)
    (farewellsSame : farewells s pool' = farewells s pool) (foundSame : found s log' = found s log)
    (messagesSame : messages s log' = messages s log) : Story s e' pool' log' x' where
  connected := by rw [same.connection]; exact Nat.lt_of_lt_of_le story.connected onward.made
  single := standsSame ▸ story.single
  delivering := by rw [standsSame, steady.delivering]; exact story.delivering
  termination t ended := by
    obtain ⟨known, past⟩ := story.termination t (steady.termination ▸ ended)
    refine ⟨known, ?_⟩
    rcases steady.phase with still | ended
    · rw [still, past]
    · exact ended
  begins pending := by
    have before : x.life.phase = .pending := by
      rcases steady.phase with still | ended
      · rw [← still, pending]
      · simp [pending] at ended
    obtain ⟨mute, nothing, silent, empty, ready⟩ := story.begins before
    refine ⟨⟨standsSame.trans mute.1, farewellsSame.trans mute.2⟩, foundSame.trans nothing,
      messagesSame.trans silent, steady.inbox.trans empty, steady.delivering.trans ready⟩
  told := by
    obtain ⟨ahead, bye, told, stand, few, byes⟩ := story.told
    have active (act : x'.life.isActive = true) : x.life.isActive = true := by
      rcases steady.phase with still | ended
      · simpa only [Lifecycle.isActive, still] using act
      · simp [Lifecycle.isActive, ended] at act
    refine ⟨ahead, bye, told_same same onward.setup foundSame messagesSame told, ?_, ?_, ?_⟩
    · rw [standsSame, farewellsSame]
      intro t member
      exact ⟨ahead_steady same steady.inbox active story.connected onward (stand t member).1,
        (stand t member).2⟩
    · rw [farewellsSame]
      exact few
    · rw [farewellsSame, farewellFrame, same.clientId, same.connection, steady.termination]
      exact byes

/-! ## A delivery goes on -/

def Continues (s : SubscriptionId) (f : Effect) (rest : List Action) (log : List Happening) :
    Prop :=
  ∃ x, f.engine.subscribers[s]? = some x ∧
    Story s f.engine (f.next ++ f.started.flatten ++ rest) log x

theorem Story.alone {t : Stand} (story : Story s e (a :: rest) log x)
    (stand : a.stand? s = some t) :
    stands s rest = [] ∧ x.delivering = true ∧ x.life.phase ≠ .pending := by
  have here : stands s (a :: rest) = t :: stands s rest := by simp [stands, stand]
  have single := story.single
  have delivering := story.delivering
  refine ⟨?_, delivering (by simp [here]), fun pending => ?_⟩
  · simpa [here] using single
  · have mute := (story.begins pending).1.1
    simp [here] at mute

theorem Story.unfinished {t : Stand} (story : Story s e (a :: rest) log x)
    (stand : a.stand? s = some t) (ongoing : t ≠ .done) :
    farewells s rest = [] ∧ ∃ ahead, Told s e.setup x log ahead [] ∧ Ahead s e x ahead t := by
  obtain ⟨ahead, bye, told, all, -, -⟩ := story.told
  obtain ⟨here, none⟩ := all t (by simp [stands, stand])
  have none := none.resolve_left ongoing
  simp only [List.append_eq_nil_iff] at none
  obtain ⟨rfl, quiet⟩ := none
  refine ⟨?_, ahead, told, here⟩
  cases farewell : a.farewell? s with
  | none => simpa [farewells, farewell] using quiet
  | some m => simp [farewells, farewell] at quiet

theorem Story.goes_on {t : Stand} (t' : Stand) {next : List Action}
    (story : Story s e (a :: rest) log x) (stand : a.stand? s = some t) (ongoing : t ≠ .done)
    (same : x.Same x') (onward : Onward e e') (delivering : x'.delivering = true)
    (phase : x'.life.phase = x.life.phase) (termination : x'.termination? = x.termination?)
    (stands' : stands s next = [t'])
    (told : ∃ ahead, Told s e'.setup x' log' ahead [] ∧ Ahead s e' x' ahead t')
    (few : (farewells s next).length ≤ 1) (last : t' = .done ∨ farewells s next = [])
    (byes : ∀ m ∈ farewells s next,
      m = farewellFrame x ∧ x.termination? = some (some sourceFailed)) :
    Story s e' (next ++ rest) log' x' := by
  obtain ⟨nowhere, -, begun⟩ := story.alone stand
  obtain ⟨quiet, -⟩ := story.unfinished stand ongoing
  have standsAll : stands s (next ++ rest) = [t'] := by simp [stands_append, stands', nowhere]
  have farewellsAll : farewells s (next ++ rest) = farewells s next := by
    simp [farewells_append, quiet]
  obtain ⟨ahead, told, here⟩ := told
  exact {
    connected := by rw [same.connection]; exact Nat.lt_of_lt_of_le story.connected onward.made
    single := by simp [standsAll]
    delivering := fun _ => delivering
    termination := fun t ended => by
      rw [phase]
      exact story.termination t (termination ▸ ended)
    begins := fun pending => absurd (phase ▸ pending) begun
    told := by
      refine ⟨ahead, [], told, ?_, ?_, ?_⟩
      · rw [standsAll, farewellsAll]
        intro u member
        obtain rfl := List.mem_singleton.mp member
        exact ⟨here, last⟩
      · simpa [farewellsAll] using few
      · simpa [farewellsAll, farewellFrame, same.clientId, same.connection,
          termination] using byes }

theorem Story.moves_on {t : Stand} (t' : Stand) {f : Effect} {l : List (BrokerEvent × Bool)}
    (story : Story s e (a :: rest) log x) (stand : a.stand? s = some t) (ongoing : t ≠ .done)
    (found : f.engine.subscribers[s]? = some x') (onward : Onward e f.engine)
    (same : x.Same x' ∧ x'.delivering = x.delivering ∧ x'.life = x.life ∧
      x'.termination? = x.termination?)
    (next : stands s (f.next ++ f.started.flatten) = [t'] ∧
      farewells s (f.next ++ f.started.flatten) = [])
    (told : Told s f.engine.setup x' log' l []) (here : Ahead s f.engine x' l t') :
    Continues s f rest log' := by
  obtain ⟨-, delivering, -⟩ := story.alone stand
  obtain ⟨same, delivers, life, termination⟩ := same
  exact ⟨x', found, story.goes_on t' stand ongoing same onward (delivers.trans delivering)
    (congrArg Lifecycle.phase life) termination next.1 ⟨l, told, here⟩ (by simp [next.2])
    (.inr next.2) (by simp [next.2])⟩

theorem lastFrames_farewells (x : Subscriber) {t : Termination}
    (known : t = none ∨ t = some sourceFailed) (ended : x.termination? = some t) :
    (farewells s ((lastFrames x.clientId t).map (fun f => .offer x.connection f (.ending s)) ++
        [.endDelivery s])).length ≤ 1 ∧
      ∀ m ∈ farewells s ((lastFrames x.clientId t).map
          (fun f => .offer x.connection f (.ending s)) ++ [.endDelivery s]),
        m = farewellFrame x ∧ x.termination? = some (some sourceFailed) := by
  rcases known with rfl | rfl
  · simp [lastFrames, farewells, Action.farewell?, List.filterMap_cons, Frame.isMessage,
      Frame.complete]
  · simp [lastFrames, farewells, Action.farewell?, List.filterMap_cons, Frame.isMessage,
      Frame.complete, Frame.error, farewellFrame, ended]

theorem deliverNext_continues (found : e.subscribers[s]? = some x)
    (story : Story s e (.deliverNext s :: rest) log x) :
    Continues s (e.deliverNext s) rest log := by
  have stand : (Action.deliverNext s).stand? s = some .next := by simp [Action.stand?]
  obtain ⟨-, delivering, -⟩ := story.alone stand
  obtain ⟨-, ahead, told, before⟩ := story.unfinished stand (by simp)
  simp only [deliverNext, found]
  split
  · refine story.moves_on .done stand (by simp) found ?_ ⟨⟨rfl, rfl, rfl⟩, rfl, rfl, rfl⟩
      ⟨by simp [stands, Action.stand?], rfl⟩ told trivial
    exact onward_same rfl rfl rfl
  split
  · rename_i t ended
    obtain ⟨few, byes⟩ := lastFrames_farewells (s := s) x (story.termination t ended).1 ended
    refine ⟨x, found, ?_⟩
    rw [List.flatten_nil, List.append_nil]
    refine story.goes_on .done stand (by simp) ⟨rfl, rfl, rfl⟩ (onward_same rfl rfl rfl)
      delivering rfl rfl ?_ ⟨ahead, told, trivial⟩ few (.inl rfl) byes
    cases t <;> simp [lastFrames, stands, Action.stand?, List.filterMap_cons]
  split
  · rename_i event more inbox
    let x' : Subscriber := { x with inbox := more }
    have found' : (e.updateSubscriber s fun x => { x with inbox := more }).subscribers[s]? =
        some x' := by simp [updateSubscriber, found, x']
    split
    · rename_i active
      refine story.moves_on (.resolve event) stand (by simp) found' ?_
        ⟨⟨rfl, rfl, rfl⟩, rfl, rfl, rfl⟩ ⟨by simp [stands, Action.stand?], rfl⟩ told ?_
      · exact onward_same rfl rfl rfl
      · intro _ isOpen
        rw [before active isOpen, waiting, inbox]
        rfl
    · rename_i idle
      refine story.moves_on .next stand (by simp) found' ?_
        ⟨⟨rfl, rfl, rfl⟩, rfl, rfl, rfl⟩ ⟨by simp [stands, Action.stand?], rfl⟩ told ?_
      · exact onward_same rfl rfl rfl
      · exact fun active => absurd active idle
  · split
    · refine story.moves_on .next stand (by simp) found ?_
        ⟨⟨rfl, rfl, rfl⟩, rfl, rfl, rfl⟩ ⟨by simp [stands, Action.stand?], rfl⟩ told before
      exact onward_same rfl rfl rfl
    · refine story.moves_on .done stand (by simp) found ?_
        ⟨⟨rfl, rfl, rfl⟩, rfl, rfl, rfl⟩ ⟨by simp [stands, Action.stand?], rfl⟩ told trivial
      exact onward_same rfl rfl rfl

theorem resolve_continues {event : BrokerEvent} (found : e.subscribers[s]? = some x)
    (story : Story s e (.resolve s event :: rest) log x) :
    Continues s (e.beginResolution s event) rest log := by
  have stand : (Action.resolve s event).stand? s = some (.resolve event) := by
    simp [Action.stand?]
  obtain ⟨-, ahead, told, before⟩ := story.unfinished stand (by simp)
  refine story.moves_on (.outcome e.resolutions.length) stand (by simp) found
    (perform_onward e (.resolve s event)) ⟨⟨rfl, rfl, rfl⟩, rfl, rfl, rfl⟩ ⟨?_, ?_⟩ told ?_
  · simp [beginResolution, stands, Action.stand?, List.filterMap_cons]
  · simp [beginResolution, farewells, Action.farewell?, List.filterMap_cons]
  · exact ⟨⟨s, event, none⟩, by simp [beginResolution], rfl, before⟩

theorem deliverOutcome_continues {r : ResolutionId} {pool : List Action}
    (found : e.subscribers[s]? = some x) (faithful : Faithful e pool)
    (ready : e.ready (.deliverOutcome s r) = true)
    (story : Story s e (.deliverOutcome s r :: rest) log x) :
    Continues s (e.deliverOutcome s r) rest log := by
  have stand : (Action.deliverOutcome s r).stand? s = some (.outcome r) := by simp [Action.stand?]
  obtain ⟨-, ahead, told, y, read, who, before⟩ := story.unfinished stand (by simp)
  obtain ⟨o, outcome⟩ : ∃ o, y.outcome? = some o := by
    simpa [Engine.ready, hasOutcome, read, Option.isSome_iff_exists] using ready
  obtain ⟨x', who', is⟩ := faithful.resolved r y o read outcome
  obtain rfl : x = x' := by simpa [who, found] using who'
  simp only [deliverOutcome, found, read, outcome]
  cases active : x.life.isActive with
  | true =>
    refine story.moves_on (.offer x.connection (.ofOutcome x.clientId o)) stand (by simp)
      found ?_ ⟨⟨rfl, rfl, rfl⟩, rfl, rfl, rfl⟩ ⟨by simp [stands, Action.stand?], rfl⟩ told ?_
    · exact onward_same rfl rfl rfl
    · exact ⟨y.event, by rw [answerFrame, is], before active⟩
  | false =>
    refine story.moves_on .next stand (by simp) found ?_
      ⟨⟨rfl, rfl, rfl⟩, rfl, rfl, rfl⟩ ⟨by simp [stands, Action.stand?], rfl⟩ told ?_
    · exact onward_same rfl rfl rfl
    · exact fun act => by simp [active] at act

theorem offer_continues {c : ConnectionId} {f : Frame}
    (found : e.subscribers[s]? = some x) (story : Story s e (.offer c f (.event s) :: rest) log x) :
    Continues s (e.offer c f (.event s)) rest log := by
  have stand : (Action.offer c f (.event s)).stand? s = some (.offer c f) := by
    simp [Action.stand?]
  obtain ⟨-, ahead, told, event, frame, before⟩ := story.unfinished stand (by simp)
  obtain rfl : c = x.connection := congrArg Prod.fst frame
  simp only [offer]
  split
  · refine story.moves_on .done stand (by simp) found ?_
      ⟨⟨rfl, rfl, rfl⟩, rfl, rfl, rfl⟩ ⟨by simp [receipt, stands, Action.stand?], rfl⟩ told trivial
    exact onward_same rfl rfl rfl
  · rename_i isOpen
    refine story.moves_on (.enqueue x.connection f) stand (by simp) found ?_
      ⟨⟨rfl, rfl, rfl⟩, rfl, rfl, rfl⟩ ⟨by simp [stands, Action.stand?], rfl⟩ told ?_
    · exact onward_same rfl rfl rfl
    · exact ⟨event, waiting x, frame, before (by simpa using isOpen), fun _ => rfl⟩

theorem ofOutcome_isMessage (clientId : String) (o : Outcome) :
    (Frame.ofOutcome clientId o).isMessage = true := by
  cases o <;> rfl

/-- An answer that enters the queue is the one of the first event ahead. -/
theorem enqueue_continues {c : ConnectionId} {f : Frame} {due : Nat}
    (found : e.subscribers[s]? = some x)
    (story : Story s e (.enqueue c f due (.event s) :: rest) log x) :
    Continues s (e.enqueue c f (.event s)) rest
      (log ++ e.happenings (.enqueue c f due (.event s))) := by
  have stand : (Action.enqueue c f due (.event s)).stand? s = some (.enqueue c f) := by
    simp [Action.stand?]
  obtain ⟨-, ahead, told, event, later, frame, rfl, before⟩ := story.unfinished stand (by simp)
  have onward : Onward e (e.enqueue c f (.event s)).engine :=
    perform_onward e (.enqueue c f due (.event s))
  cases takes : e.takes c with
  | true =>
    obtain ⟨e', same, -, subscribers⟩ := enqueue_taken (f := f) (r := .event s) takes
    rw [same] at onward ⊢
    have message : f.isMessage = true := by
      have is : f = .ofOutcome x.clientId (answer e.setup x event) := congrArg Prod.snd frame
      exact is ▸ ofOutcome_isMessage ..
    refine story.moves_on .next (l := later) stand (by simp)
      ((congrArg (·[s]?) subscribers).trans found) onward ⟨⟨rfl, rfl, rfl⟩, rfl, rfl, rfl⟩
      ⟨by simp [receipt, stands, Action.stand?], rfl⟩ ?_ ?_
    · obtain ⟨done, split, answered, taken⟩ := told
      refine ⟨done ++ [(event, true)], ?_, ?_, ?_⟩
      · rw [found_append, split]
        simp [happenings, takes, Engine.found]
      · rw [messages_append, answered, onward.setup]
        simp [happenings, takes, messages, message, ← frame]
      · intro d member
        rcases List.mem_append.mp member with old | new
        · exact taken d old
        · rw [List.mem_singleton.mp new]
    · exact fun _ isOpen => before (onward.closed _ story.connected isOpen)
  | false =>
    obtain ⟨e', fault, same, which⟩ := enqueue_refused (f := f) (r := .event s) takes
    have subscribers : e'.subscribers = e.subscribers := by rcases which with rfl | rfl <;> rfl
    rw [same] at onward ⊢
    refine story.moves_on .done (l := (event, true) :: later) stand (by simp)
      ((congrArg (·[s]?) subscribers).trans found) onward ⟨⟨rfl, rfl, rfl⟩, rfl, rfl, rfl⟩
      ⟨by simp [receipt, stands, Action.stand?], rfl⟩ ?_ trivial
    rw [onward.setup]
    simpa [happenings, takes] using told

/-! ## A delivery ends -/

theorem endDelivery_continues (found : e.subscribers[s]? = some x)
    (story : Story s e (.endDelivery s :: rest) log x) :
    Continues s ⟨e.endDelivery s, [], []⟩ rest log := by
  have stand : (Action.endDelivery s).stand? s = some .done := by simp [Action.stand?]
  obtain ⟨nowhere, -, begun⟩ := story.alone stand
  obtain ⟨ahead, bye, told, -, few, byes⟩ := story.told
  have quiet : farewells s (.endDelivery s :: rest) = farewells s rest := rfl
  refine ⟨{ x with delivering := false, inbox := [] }, ?_, ?_⟩
  · simp [endDelivery, found, doneWith, updateSubscriber]
  · have setup : (e.endDelivery s).setup = e.setup := perform_setup e (.endDelivery s) |>.1
    exact {
      connected := by
        have made := (perform_setup e (.endDelivery s)).2
        exact made ▸ story.connected
      single := by simp [nowhere]
      delivering := by simp [nowhere]
      termination := story.termination
      begins := fun pending => absurd pending begun
      told := by
        refine ⟨ahead, bye, setup ▸ told, ?_, quiet ▸ few, quiet ▸ byes⟩
        simp [nowhere] }

theorem Story.drops {m : ConnectionId × Frame} (story : Story s e (a :: rest) log x)
    (stand : a.stand? s = none) (farewell : a.farewell? s = some m) : Story s e rest log x := by
  have standsSame : stands s (a :: rest) = stands s rest := by simp [stands, stand]
  have farewellsAll : farewells s (a :: rest) = m :: farewells s rest := by
    simp [farewells, farewell]
  obtain ⟨ahead, bye, told, all, few, byes⟩ := story.told
  rw [standsSame, farewellsAll] at all
  rw [farewellsAll] at few byes
  exact {
    connected := story.connected
    single := standsSame ▸ story.single
    delivering := standsSame ▸ story.delivering
    termination := story.termination
    begins := fun pending => by
      have mute := (story.begins pending).1.2
      simp [farewellsAll] at mute
    told := by
      refine ⟨ahead, bye, told, fun t member => ⟨(all t member).1, ?_⟩, ?_, fun n member => ?_⟩
      · exact .inl ((all t member).2.resolve_right (by simp))
      · simp only [List.length_append, List.length_cons] at few ⊢
        omega
      · refine byes n ?_
        simp only [List.mem_append, List.mem_cons] at member ⊢
        exact member.imp_right .inr }

theorem Story.bids {m : ConnectionId × Frame} (story : Story s e (a :: rest) log x)
    (stand : a.stand? s = none) (farewell : a.farewell? s = some m)
    (foundSame : found s log' = found s log)
    (messagesMore : messages s log' = messages s log ++ [m]) :
    Story s e rest log' x := by
  have standsSame : stands s (a :: rest) = stands s rest := by simp [stands, stand]
  have farewellsAll : farewells s (a :: rest) = m :: farewells s rest := by
    simp [farewells, farewell]
  obtain ⟨ahead, bye, told, all, few, byes⟩ := story.told
  rw [standsSame, farewellsAll] at all
  rw [farewellsAll] at few byes
  obtain ⟨rfl, alone⟩ : bye = [] ∧ farewells s rest = [] := by
    simp only [List.length_append, List.length_cons] at few
    exact ⟨List.eq_nil_of_length_eq_zero (by omega), List.eq_nil_of_length_eq_zero (by omega)⟩
  rw [alone] at byes
  exact {
    connected := story.connected
    single := standsSame ▸ story.single
    delivering := standsSame ▸ story.delivering
    termination := story.termination
    begins := fun pending => by
      have mute := (story.begins pending).1.2
      simp [farewellsAll] at mute
    told := by
      refine ⟨ahead, [m], ?_, fun t member => ⟨(all t member).1, ?_⟩, by simp [alone], ?_⟩
      · obtain ⟨done, split, answered, taken⟩ := told
        refine ⟨done, foundSame.trans split, ?_, taken⟩
        rw [messagesMore, answered, List.append_nil]
      · exact .inl ((all t member).2.resolve_right (by simp))
      · simpa [alone] using byes }

theorem Story.lasts (story : Story s e pool log x) (onward : Onward e e') :
    Story s e' pool log x :=
  story.spared ⟨rfl, rfl, rfl⟩ ⟨rfl, rfl, rfl, .inl rfl⟩ onward rfl rfl rfl rfl

theorem farewell_offer_continues {c : ConnectionId} {f : Frame} (message : f.isMessage = true)
    (found : e.subscribers[s]? = some x)
    (story : Story s e (.offer c f (.ending s) :: rest) log x) :
    Continues s (e.offer c f (.ending s)) rest log := by
  simp only [offer]
  split
  · exact ⟨x, found, story.drops (m := (c, f)) rfl (by simp [Action.farewell?, message])⟩
  · refine ⟨x, found, story.spared ⟨rfl, rfl, rfl⟩ ⟨rfl, rfl, rfl, .inl rfl⟩
      (onward_same rfl rfl rfl) rfl ?_ rfl rfl⟩
    simp [farewells, Action.farewell?, message]

theorem farewell_enqueue_continues {c : ConnectionId} {f : Frame} {due : Nat}
    (message : f.isMessage = true) (found : e.subscribers[s]? = some x)
    (story : Story s e (.enqueue c f due (.ending s) :: rest) log x) :
    Continues s (e.enqueue c f (.ending s)) rest
      (log ++ e.happenings (.enqueue c f due (.ending s))) := by
  have onward : Onward e (e.enqueue c f (.ending s)).engine :=
    perform_onward e (.enqueue c f due (.ending s))
  have farewell : (Action.enqueue c f due (.ending s)).farewell? s = some (c, f) := by
    simp [Action.farewell?, message]
  cases takes : e.takes c with
  | true =>
    obtain ⟨e', same, -, subscribers⟩ := enqueue_taken (f := f) (r := .ending s) takes
    rw [same] at onward ⊢
    refine ⟨x, (congrArg (·[s]?) subscribers).trans found,
      (story.bids rfl farewell ?_ ?_).lasts onward⟩
    · rw [found_append]
      simp [happenings, takes, Engine.found]
    · rw [messages_append]
      simp [happenings, takes, messages, message]
  | false =>
    obtain ⟨e', fault, same, which⟩ := enqueue_refused (f := f) (r := .ending s) takes
    have subscribers : e'.subscribers = e.subscribers := by rcases which with rfl | rfl <;> rfl
    rw [same] at onward ⊢
    refine ⟨x, (congrArg (·[s]?) subscribers).trans found, ?_⟩
    simpa [happenings, takes, receipt] using (story.drops rfl farewell).lasts onward

theorem terminate_continues {t : Termination} (found : e.subscribers[s]? = some x)
    (known : t = none ∨ t = some sourceFailed)
    (registered : e.isRegistered s = true → x.life.phase = .active)
    (story : Story s e (.terminate s t :: rest) log x) :
    Continues s (e.terminate s t) rest log := by
  have onward : Onward e (e.terminate s t).engine := perform_onward e (.terminate s t)
  have mute : Mute s ((e.terminate s t).next ++ (e.terminate s t).started.flatten) :=
    perform_mute e (.terminate s t) rfl rfl (by simp [Action.enters?])
  cases counted : e.isRegistered s with
  | false =>
    have nothing : e.terminate s t = ⟨e, [], []⟩ := by simp [terminate, counted]
    rw [nothing]
    exact ⟨x, found, story.spared ⟨rfl, rfl, rfl⟩ ⟨rfl, rfl, rfl, .inl rfl⟩
      (onward_same rfl rfl rfl) rfl rfl rfl rfl⟩
  | true =>
    have active := registered counted
    obtain ⟨ahead, bye, told, all, few, byes⟩ := story.told
    have silent : bye ++ farewells s rest = [] := by
      refine List.eq_nil_iff_forall_not_mem.mpr fun m member => ?_
      have past := (story.termination _ (byes m member).2).2
      simp [active] at past
    let x' : Subscriber := { x with life := x.life.retire.2, termination? := some t }
    have found' : (e.terminate s t).engine.subscribers[s]? = some x' := by
      simp only [terminate, counted, found, endLife, deregister]
      split <;> simp [updateSubscriber, detach, updateConnection, count, found, x']
    have standsSame : stands s ((e.terminate s t).next ++ (e.terminate s t).started.flatten ++
        rest) = stands s rest := by rw [stands_append, mute.1, List.nil_append]
    have farewellsSame : farewells s ((e.terminate s t).next ++
        (e.terminate s t).started.flatten ++ rest) = farewells s rest := by
      rw [farewells_append, mute.2, List.nil_append]
    refine ⟨x', found', ?_⟩
    exact {
      connected := Nat.lt_of_lt_of_le story.connected onward.made
      single := standsSame ▸ story.single
      delivering := standsSame ▸ story.delivering
      termination := fun t' ended => by
        injection ended with ended
        exact ⟨ended ▸ known, rfl⟩
      begins := fun pending => by simp [x', Lifecycle.retire] at pending
      told := by
        refine ⟨ahead, bye, by rw [onward.setup]; exact told, ?_, ?_, ?_⟩
        · rw [standsSame, farewellsSame]
          intro u member
          refine ⟨?_, .inr silent⟩
          refine ahead_steady (x := x) ⟨rfl, rfl, rfl⟩ rfl (fun act => ?_) story.connected onward
            (all u member).1
          simp [x', Lifecycle.retire, Lifecycle.isActive] at act
        · rw [farewellsSame]
          exact few
        · rw [farewellsSame, silent]
          simp }

end Engine

end SubscriptionGateway
