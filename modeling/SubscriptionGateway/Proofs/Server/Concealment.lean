import SubscriptionGateway.Proofs.Engine.Wording
import SubscriptionGateway.Proofs.Server.Closing

/-!
Clients are not told what went wrong inside. In a play that is told, brokers report in words of
their own, and every internal failure among the answers of the engine is worded anew after each
move. Such a play is the plain one with other answers, so what clients see of it does not depend on
the words.
-/
namespace SubscriptionGateway

namespace Server

def retell (s : Server) (rs : List (CallId × Reply)) : Server := s.mapEngine (·.retell rs)

def Effect.retell (f : Effect) (rs : List (CallId × Reply)) : Effect :=
  { f with server := f.server.retell rs }

variable {s : Server} {rs : List (CallId × Reply)} {k : PeerId}

theorem retell_peers : (s.retell rs).peers = s.peers := rfl
theorem retell_streams : (s.retell rs).streams = s.streams := rfl

/-! ## The parts of actions -/

theorem retell_readOn : (s.retell rs).readOn k = (s.readOn k).retell rs := by
  unfold readOn
  rw [retell_peers]
  cases s.peers[k]? <;> rfl

theorem retell_readOn_next : ((s.retell rs).readOn k).next = (s.readOn k).next := by
  rw [retell_readOn]
  rfl

theorem retell_hangUp : (s.retell rs).hangUp k = (s.hangUp k).retell rs := by
  unfold hangUp
  rw [retell_peers]
  cases s.peers[k]? with
  | none => rfl
  | some p =>
    dsimp only
    cases p.connection? <;> rfl

theorem retell_closeWith (code : Nat) (reason : String) :
    (s.retell rs).closeWith k code reason = (s.closeWith k code reason).retell rs :=
  retell_hangUp (s := s.tell k [.close code reason])

theorem retell_react (c : ConnectionId) (r : WebSocket.Reaction) :
    (s.retell rs).react k c r = (s.react k c r).retell rs := by
  cases r with
  | reply ms => exact retell_readOn (s := s.tell k ms)
  | acknowledge ms =>
    exact retell_readOn (s := (s.tell k ms).updatePeer k fun p => { p with acknowledged := true })
  | close code reason => exact retell_closeWith code reason
  | subscribe id r => rfl
  | unsubscribe id sub => rfl
  | leave => exact retell_hangUp

theorem retell_onItem (p : Peer) (c : ConnectionId) (i : Incoming) :
    (s.retell rs).onItem k p c i = (s.onItem k p c i).retell rs := by
  cases i with
  | text t => exact retell_react c _
  | binary => exact retell_closeWith _ _
  | ping payload =>
    unfold onItem
    dsimp only
    split
    · exact retell_hangUp
    · exact retell_readOn (s := s.updatePeer k (·.answerPing payload))
  | pong payload =>
    unfold onItem
    dsimp only
    split
    · exact retell_hangUp
    · exact retell_readOn
  | close => exact retell_hangUp (s := s.updatePeer k fun p => { p with closing := true })
  | lost => exact retell_hangUp

theorem retell_readNext (since : Nat) (before : Bool) :
    (s.retell rs).readNext k since before = (s.readNext k since before).retell rs := by
  have same : ∀ p, (s.retell rs).look p since before = s.look p since before := fun _ => rfl
  unfold readNext
  rw [retell_peers]
  cases s.peers[k]? with
  | none => rfl
  | some p =>
    dsimp only
    rw [same]
    cases s.look p since before with
    | none => cases p.connection? <;> exact retell_closeWith _ _
    | some seen =>
      cases seen with
      | item i =>
        cases p.connection? with
        | none => exact retell_hangUp
        | some c =>
          exact retell_onItem
            (s := s.updatePeer k fun p => { p with incoming := p.incoming.tail }) p c i
      | idle => cases p.connection? <;> exact retell_readOn
      | closed => cases p.connection? <;> exact retell_hangUp
      | cancelled => cases p.connection? <;> exact retell_hangUp

theorem retell_stopWriting : (s.retell rs).stopWriting k = (s.stopWriting k).retell rs := by
  unfold stopWriting
  dsimp only
  rw [show (s.retell rs).updatePeer k (fun p => { p with writing := false }) =
    (s.updatePeer k fun p => { p with writing := false }).retell rs from rfl, retell_peers]
  cases ((s.updatePeer k fun p => { p with writing := false }).peers[k]?).bind (·.connection?) <;>
    rfl

theorem retell_finishSocket : (s.retell rs).finishSocket k = (s.finishSocket k).retell rs := by
  unfold finishSocket
  rw [retell_stopWriting]
  rfl

theorem retell_sendMessage (p : Peer) (m : WebSocket.ServerMessage) :
    (s.retell rs).sendMessage k p m = (s.sendMessage k p m).retell rs := by
  unfold sendMessage
  cases itemOf? p.protocol m <;> rfl

theorem retell_pickNext : (s.retell rs).pickNext k = (s.pickNext k).retell rs := by
  have taken : ∀ c, (s.retell rs).engine.takeFrames c 1 =
      ((s.engine.takeFrames c 1).1, (s.engine.takeFrames c 1).2.retell rs) :=
    fun c => Engine.retell_takeFrames c 1
  unfold pickNext
  rw [retell_peers]
  cases s.peers[k]? with
  | none => rfl
  | some p =>
    dsimp only
    split
    · rfl
    cases p.control with
    | cons m rest =>
        exact retell_sendMessage (s := s.updatePeer k fun p => { p with control := rest }) p m
    | nil =>
      dsimp only
      cases p.connection? with
      | none => rfl
      | some c =>
        dsimp only
        rw [taken]
        generalize s.engine.takeFrames c 1 = frames
        obtain ⟨_ | ⟨f, fs⟩, e⟩ := frames
        · rfl
        · exact retell_sendMessage (s := { s with engine := e }) p (.ofFrame f)

theorem retell_writeItem (i : Item) :
    (s.retell rs).writeItem k i = (s.writeItem k i).retell rs := by
  unfold writeItem
  rw [retell_peers]
  cases s.peers[k]? with
  | none => rfl
  | some p =>
    dsimp only
    split
    · rfl
    split
    · split
      · exact congrArg (Effect.mk · [] []) retell_stopWriting
      · rfl
    · rfl

theorem retell_flush (isLast : Bool) :
    (s.retell rs).flush k isLast = (s.flush k isLast).retell rs := by
  have stops : ∀ s : Server, (⟨(s.retell rs).stopWriting k, [], []⟩ : Effect) =
      Effect.retell ⟨s.stopWriting k, [], []⟩ rs :=
        fun s => congrArg (Effect.mk · [] []) retell_stopWriting
  unfold flush
  rw [retell_peers]
  cases s.peers[k]? with
  | none => rfl
  | some p =>
    dsimp only
    split
    · rfl
    split
    · split
      · exact stops s
      · rfl
    split
    · split
      · exact stops (s.updatePeer k (·.flush))
      · rfl
    split
    · exact stops s
    · cases p.connection? with
      | none => exact stops s
      | some c => exact stops (s.mapEngine (·.cancelConnection c))

theorem retell_readBlocked : (s.retell rs).readBlocked k = (s.readBlocked k).retell rs := by
  unfold readBlocked
  rw [retell_peers]
  cases s.peers[k]? with
  | none => rfl
  | some p =>
    dsimp only
    cases p.incoming with
    | nil => rfl
    | cons i rest =>
      cases i with
      | text t =>
        dsimp only
        cases WebSocket.Session.onTextBlocked p.protocol t <;> rfl
      | ping payload => dsimp only; split <;> rfl
      | pong payload => dsimp only; split <;> rfl
      | close => rfl
      | lost => rfl
      | binary => rfl

theorem retell_endStream (x : Streaming) :
    (s.retell rs).endStream k x = (s.endStream k x).retell rs := by
  unfold endStream
  cases x.connection? <;> rfl

theorem retell_streamNext : (s.retell rs).streamNext k = (s.streamNext k).retell rs := by
  have taken : ∀ c, (s.retell rs).engine.takeFrames c 1 =
      ((s.engine.takeFrames c 1).1, (s.engine.takeFrames c 1).2.retell rs) :=
    fun c => Engine.retell_takeFrames c 1
  have cancelled : ∀ c?, (s.retell rs).isCancelled c? = s.isCancelled c? := fun _ => rfl
  unfold streamNext
  rw [retell_streams]
  cases s.streams[k]? with
  | none => rfl
  | some x =>
    dsimp only
    split
    · exact retell_endStream x
    cases x.pending with
    | cons chunk rest => rfl
    | nil =>
      dsimp only
      split
      · exact retell_endStream x
      cases connection : x.connection? with
      | none => exact retell_endStream x
      | some c =>
        dsimp only
        rw [taken, cancelled]
        generalize s.engine.takeFrames c 1 = frames
        obtain ⟨_ | ⟨f, fs⟩, e⟩ := frames
        · dsimp only
          split
          · exact retell_endStream x
          · rfl
        · rfl

/-! ## Where an answer is looked at -/

theorem retell_answerStream (same : Engine.SameAnswers s.engine.replies rs) (call : CallId) :
    (s.retell rs).answerStream k call = (s.answerStream k call).retell rs := by
  have answer := Engine.reply?_retell same call
  have engine : (s.retell rs).engine = s.engine.retell rs := rfl
  unfold answerStream
  rw [retell_streams, engine]
  rcases answer with ⟨f, g, faults, one, other⟩ | both
  · rw [one, other]
    cases s.streams[k]? with
    | none => rfl
    | some x =>
      dsimp only
      rw [Fault.clientMessage_alike faults]
      cases x.connection? <;> rfl
  · rw [both]
    cases s.engine.reply? call with
    | none => rfl
    | some r =>
      cases s.streams[k]? with
      | none => cases r <;> rfl
      | some x =>
        cases r with
        | failed f => dsimp only; cases x.connection? <;> rfl
        | _ => rfl

theorem retell_subscribed (same : Engine.SameAnswers s.engine.replies rs) (id : String)
    (call : CallId) :
    (s.retell rs).perform (.subscribed k id call) =
      (s.perform (.subscribed k id call)).retell rs := by
  have answer := Engine.reply?_retell same call
  have engine : (s.retell rs).engine = s.engine.retell rs := rfl
  have refused : ∀ text, ((s.retell rs).tell k (WebSocket.Session.rejection id text)).readOn k =
      ((s.tell k (WebSocket.Session.rejection id text)).readOn k).retell rs :=
    fun text => retell_readOn (s := s.tell k (WebSocket.Session.rejection id text))
  unfold perform
  dsimp only
  rw [engine]
  rcases answer with ⟨f, g, faults, one, other⟩ | both
  · rw [one, other]
    dsimp only
    rw [Fault.clientMessage_alike faults]
    exact refused _
  · rw [both]
    cases s.engine.reply? call with
    | none => exact retell_readOn
    | some r =>
      cases r with
      | failed f => exact refused _
      | _ => exact retell_readOn

theorem perform_retell (s : Server) (a : Action) :
    ∃ more, ∀ rs, Engine.SameAnswers s.engine.replies rs →
    (s.retell rs).perform a = (s.perform a).retell (rs ++ more) := by
  have silent {a : Action} (alike : ∀ rs, Engine.SameAnswers s.engine.replies rs →
      (s.retell rs).perform a = (s.perform a).retell rs) : ∃ more, ∀ rs,
      Engine.SameAnswers s.engine.replies rs →
        (s.retell rs).perform a = (s.perform a).retell (rs ++ more) :=
    ⟨[], fun rs same => by rw [alike rs same, List.append_nil]⟩
  cases a with
  | engine a =>
    obtain ⟨more, tells⟩ := Engine.perform_retell s.engine a
    exact ⟨more, fun rs _ => congrArg s.ofEngine (tells rs)⟩
  | read k since before due? => exact silent fun _ _ => retell_readNext since before
  | subscribed k id call => exact silent fun _ same => retell_subscribed same id call
  | unsubscribed k id =>
    refine silent fun rs _ => ?_
    unfold perform
    dsimp only
    rw [retell_peers]
    cases s.peers[k]? with
    | none => rfl
    | some p => exact retell_readOn (s := s.tell k (WebSocket.Session.unsubscribed p.protocol id))
  | waitForWriter k => exact silent fun _ _ => rfl
  | endSocket k due => exact silent fun _ _ => congrArg (Effect.mk · [] []) retell_finishSocket
  | pick k => exact silent fun _ _ => retell_pickNext
  | write k i => exact silent fun _ _ => retell_writeItem i
  | writeClose k => exact silent fun _ _ => rfl
  | flush k isLast due => exact silent fun _ _ => retell_flush isLast
  | readBlocked k => exact silent fun _ _ => retell_readBlocked
  | writeBlocked k i => exact silent fun _ _ => rfl
  | writeCloseBlocked k => exact silent fun _ _ => rfl
  | flushBlocked k => exact silent fun _ _ => rfl
  | endBlocked k => exact silent fun _ _ => congrArg (Effect.mk · [] []) retell_finishSocket
  | answerStream k call => exact silent fun _ same => retell_answerStream same call
  | refuseStream k payload => exact silent fun _ _ => rfl
  | stream k due => exact silent fun _ _ => retell_streamNext

theorem ready_retell (a : Action) : (s.retell rs).ready a = s.ready a := by
  cases a with
  | engine a => exact Engine.ready_retell a
  | _ => rfl

theorem perform_told (s : Server) (a : Action) (rs : List (CallId × Reply))
    (same : Engine.SameAnswers s.engine.replies rs) :
    ∃ rs', Engine.SameAnswers (s.perform a).server.engine.replies rs' ∧
      (s.retell rs).perform a = (s.perform a).retell rs' := by
  obtain ⟨more, tells⟩ := perform_retell s a
  have itself : s.perform a = (s.perform a).retell (s.engine.replies ++ more) :=
    tells s.engine.replies (Engine.sameAnswers_refl _)
  have replies : (s.perform a).server.engine.replies = s.engine.replies ++ more := by
    rw [itself]
    rfl
  refine ⟨rs ++ more, ?_, tells rs same⟩
  rw [replies]
  exact Engine.sameAnswers_append same (Engine.sameAnswers_refl more)

/-! ## Plays that are told -/

def performIn (t : Engine.Parlance) (s : Server) (a : Action) : Effect :=
  match a with
  | .engine a => s.ofEngine (s.engine.performIn t a)
  | a => s.perform a

def machineIn (t : Engine.Parlance) : Machine Server Action :=
  { machine with
    perform := fun s a => let r := s.performIn t a; (r.server, r.next, r.started) }

theorem performIn_told (t : Engine.Parlance) (s : Server) (a : Action) :
    ∃ rs, Engine.SameAnswers (s.perform a).server.engine.replies rs ∧
      s.performIn t a = (s.perform a).retell rs := by
  cases a with
  | engine a =>
    obtain ⟨rs, same, deed⟩ := Engine.performIn_deed t s.engine a
    exact ⟨rs, same, congrArg s.ofEngine deed⟩
  | _ => exact ⟨_, Engine.sameAnswers_refl _, rfl⟩

/-- How it is worded what goes wrong inside: what brokers report, and every failure that is
answered. -/
structure Wording where
  brokers : Engine.Parlance
  fault : Fault → Fault
  /-- What clients are to know is not touched. -/
  alike : ∀ f : Fault, f.SameToClients (fault f)

namespace Wording

def reply (t : Wording) : Reply → Reply
  | .failed f => .failed (t.fault f)
  | r => r

def answers (t : Wording) (rs : List (CallId × Reply)) : List (CallId × Reply) :=
  rs.map fun p => (p.1, t.reply p.2)

theorem sameAnswers (t : Wording) (rs : List (CallId × Reply)) :
    Engine.SameAnswers rs (t.answers rs) := by
  induction rs with
  | nil => exact .nil
  | cons p rs ih =>
    obtain ⟨call, r⟩ := p
    refine List.Forall₂.cons ⟨rfl, ?_⟩ ih
    cases r with
    | failed f => exact .inr ⟨f, t.fault f, t.alike f, rfl, rfl⟩
    | _ => exact Reply.alike_refl _

end Wording

namespace World

def retell (w : World) (rs : List (CallId × Reply)) : World := w.map (·.retell rs)

def moveIn (w : World) (v : Move) (t : Wording) : World :=
  let w := match v with
    | .input i => i.act w
    | .step place => (w.step? (machineIn t.brokers) place).getD w
  w.retell (t.answers w.state.engine.replies)

/-- A play with its words, which may change at every move. -/
def playIn (w : World) (script : List (Move × Wording)) : World :=
  script.foldl (fun w m => w.moveIn m.1 m.2) w

/-- Worlds whose servers differ in how they word their answers. -/
def SameButAnswers (w w' : World) : Prop :=
  ∃ rs, Engine.SameAnswers w.state.engine.replies rs ∧ w' = w.retell rs

theorem alike_refl (w : World) : SameButAnswers w w := ⟨_, Engine.sameAnswers_refl _, rfl⟩

theorem alike_trans {u v w : World} (first : SameButAnswers u v) (second : SameButAnswers v w) :
    SameButAnswers u w := by
  obtain ⟨rs, same, rfl⟩ := first
  obtain ⟨rs', more, rfl⟩ := second
  exact ⟨rs', Engine.sameAnswers_trans same more, rfl⟩

theorem alike_symm {w w' : World} (alike : SameButAnswers w w') : SameButAnswers w' w := by
  obtain ⟨rs, same, rfl⟩ := alike
  exact ⟨w.state.engine.replies, Engine.sameAnswers_symm same, rfl⟩

variable {w : World}

theorem act_retell (i : Input) : i.act (w.retell rs) = (i.act w).retell rs ∧
    (i.act w).state.engine.replies = w.state.engine.replies := by
  cases i with
  | join header capacity stalled =>
    unfold Input.act openSocket
    dsimp only
    rw [show (w.retell rs).state.blocked = w.state.blocked from rfl]
    split
    · exact ⟨rfl, rfl⟩
    · exact ⟨congrArg (Running.spawn _) (retell_readOn_next
        (s := { w.state with
          engine := (w.state.engine.openConnection .webSocket).2, peers := w.state.peers ++ [_] })),
            rfl⟩
  | say k i =>
    unfold Input.act send
    dsimp only
    rw [show (w.retell rs).canSend k = w.canSend k from rfl]
    split <;> exact ⟨rfl, rfl⟩
  | request accept body =>
    unfold Input.act requestStream
    dsimp only
    rw [show (w.retell rs).state.blocked = w.state.blocked from rfl]
    split
    · exact ⟨rfl, rfl⟩
    split
    · exact ⟨rfl, rfl⟩
    split <;> exact ⟨rfl, rfl⟩
  | receive k =>
    unfold Input.act received
    dsimp only
    rw [show (w.retell rs).state.peers = w.state.peers from rfl]
    cases w.state.peers[k]? <;> exact ⟨rfl, rfl⟩
  | receiveChunks k =>
    unfold Input.act receivedChunks
    dsimp only
    rw [show (w.retell rs).state.streams = w.state.streams from rfl]
    cases w.state.streams[k]? <;> exact ⟨rfl, rfl⟩
  | drop | resume | abandon | shutdown | brokers | pass => exact ⟨rfl, rfl⟩

/-- A step with brokers that report in some words is the plain one with other answers. -/
theorem step_alike (t : Engine.Parlance) (place : Nat)
    (same : Engine.SameAnswers w.state.engine.replies rs) :
    SameButAnswers ((w.step? machine place).getD w)
      (((w.retell rs).step? (machineIn t) place).getD (w.retell rs)) := by
  have steps (rs' : List (CallId × Reply)) (deed : ∀ a, w.actionAt machine place = some a →
      (w.state.retell rs).performIn t a = (w.state.perform a).retell rs') :
      (w.retell rs).step? (machineIn t) place = (w.step? machine place).map (retell · rs') :=
    Running.step?_map w (w.state.retell rs) place (·.retell rs') ready_retell
      (fun _ => ready_retell) rfl fun a found => by
        have done := deed a found
        simp only [machineIn, done]
        rfl
  cases found : w.actionAt machine place with
  | none =>
    rw [steps rs (by simp [found]), (Running.step_eq_none_iff w place).mpr found]
    exact ⟨rs, same, rfl⟩
  | some a =>
    obtain ⟨rs', kept, told⟩ := perform_told w.state a rs same
    obtain ⟨rs'', alike, worded⟩ := performIn_told t (w.state.retell rs) a
    rw [told] at alike worded
    rw [steps rs'' fun b here => by
      obtain rfl : a = b := by simpa [found] using here
      exact worded]
    cases stepped : w.step? machine place with
    | none => simp [(Running.step_eq_none_iff w place).mp stepped] at found
    | some w' =>
      obtain ⟨b, todo, others, here, turn⟩ := Running.step_turn stepped
      obtain rfl : a = b := by simpa [found] using here
      refine ⟨rs'', ?_, rfl⟩
      rw [Option.getD_some, turn.state]
      exact Engine.sameAnswers_trans kept alike

theorem moveIn_alike {w' : World} (alike : SameButAnswers w w') (v : Move) (t : Wording) :
    SameButAnswers (w.move v) (w'.moveIn v t) := by
  refine alike_trans ?_ ⟨_, t.sameAnswers _, rfl⟩
  obtain ⟨rs, same, rfl⟩ := alike
  cases v with
  | input i =>
    have act : i.act (w.retell rs) = (i.act w).retell rs ∧
        (i.act w).state.engine.replies = w.state.engine.replies := act_retell i
    obtain ⟨told, kept⟩ := act
    refine ⟨rs, ?_, told⟩
    rwa [← kept] at same
  | step place => exact step_alike t.brokers place same

theorem playIn_alike {w' : World} (alike : SameButAnswers w w') (script : List (Move × Wording)) :
    SameButAnswers (w.play (script.map Prod.fst)) (w'.playIn script) := by
  induction script generalizing w w' with
  | nil => exact alike
  | cons m script ih => exact ih (moveIn_alike alike m.1 m.2)

end World

/-- The words that everything has by itself. -/
def plain : Wording := ⟨id, id, Fault.alike_refl⟩

/-- Two servers that are one but for words: those of what their resolutions come to, and those in
which they have answered. -/
structure Twins (s s' : Server) : Prop where
  answers : Engine.SameAnswers s.engine.replies s'.engine.replies
  resolutions :
    ∃ results results', (∀ x payload, (results x payload).SameToClients (results' x payload)) ∧
    s.engine.setup.resolve = Resolver.ofResults results ∧
      s'.engine.setup.resolve = Resolver.ofResults results'
  rest : s' = { s with engine := { s.engine with
    replies := s'.engine.replies
    setup := { s.engine.setup with resolve := s'.engine.setup.resolve } } }

theorem twins_retell {s s' : Server} (twins : Twins s s') : s' = s.retell s'.engine.replies := by
  obtain ⟨results, results', alike, one, other⟩ := twins.resolutions
  have same : s'.engine.setup.resolve = s.engine.setup.resolve := by
    rw [one, other]
    exact (Resolver.ofResults_alike alike).symm
  have rest := twins.rest
  rw [same] at rest
  exact rest

theorem twins_alike {w w' : World} (twins : Twins w.state w'.state) (tasks : w'.tasks = w.tasks) :
    w.SameButAnswers w' := by
  refine ⟨w'.state.engine.replies, twins.answers, ?_⟩
  obtain ⟨s', ts'⟩ := w'
  obtain rfl : ts' = w.tasks := tasks
  exact congrArg (Running.mk · w.tasks) (twins_retell twins)

/-- Two worlds that are one but for words, in which the same is done and the same tasks go on, come
to the same sockets and the same streams, whatever words brokers, resolutions and answers are in at
any time in the one and in the other. All that a client reads then is the same, and so is what
somebody who asks for a stream is told at once. -/
theorem words_stay_inside (w w' : World) (twins : Twins w.state w'.state)
    (tasks : w'.tasks = w.tasks)
    (script script' : List (Move × Wording)) (same : script.map Prod.fst = script'.map Prod.fst) :
    let v := w.playIn script
    let v' := w'.playIn script'
    v.state.peers = v'.state.peers ∧ v.state.streams = v'.state.streams ∧
      (∀ k, (v.received k).1 = (v'.received k).1) ∧
      (∀ k, (v.receivedChunks k).1 = (v'.receivedChunks k).1) ∧
      ∀ accept body, (v.requestStream accept body).1 = (v'.requestStream accept body).1 := by
  intro v v'
  have one : World.SameButAnswers (w.play (script.map Prod.fst)) v :=
    World.playIn_alike (World.alike_refl w) script
  have other : World.SameButAnswers (w.play (script.map Prod.fst)) v' := by
    rw [same]
    exact World.playIn_alike (twins_alike twins tasks) script'
  obtain ⟨rs, -, told⟩ := World.alike_trans (World.alike_symm one) other
  rw [told]
  refine ⟨rfl, rfl, fun k => ?_, fun k => ?_, fun accept body => ?_⟩
  · unfold World.received
    rw [show (v.retell rs).state.peers = v.state.peers from rfl]
    cases v.state.peers[k]? <;> rfl
  · unfold World.receivedChunks
    rw [show (v.retell rs).state.streams = v.state.streams from rfl]
    cases v.state.streams[k]? <;> rfl
  · unfold World.requestStream
    dsimp only
    rw [show (v.retell rs).state.blocked = v.state.blocked from rfl]
    split
    · rfl
    split
    · rfl
    split <;> rfl

def frank : Wording where
  brokers := fun _ => .memoryDown "10.0.0.1"
  fault := fun f => if f.isInternal then .internal "at 10.0.0.1" else f
  alike := fun f => by
    cases internal : f.isInternal with
    | true => exact .inr ⟨internal, rfl⟩
    | false => exact .inl rfl

def outage : Server :=
  { settings := {},
    engine := Engine.start Engine.staffSetup (Engine.staffHub.setAvailable "p" false) }

def staffRefused : List Move := staffStart ++ List.replicate 11 (.step 0)

def failure? (s : Server) (call : CallId) : Option String :=
  match s.engine.reply? call with
  | some (.failed f) => some f.message
  | _ => none

theorem outage_words_stay_inside :
    let v := (World.start outage).playIn (staffRefused.map fun v => (v, plain))
    let v' := (World.start outage).playIn (staffRefused.map fun v => (v, frank))
    v.state.failure? 0 ≠ v'.state.failure? 0 ∧ (v.received 0).1.length = 4 ∧
      (v.received 0).1 = (v'.received 0).1 := by
  have twins : Twins (World.start outage).state (World.start outage).state :=
    ⟨Engine.sameAnswers_refl _, ⟨Resolver.results "" none, Resolver.results "" none,
      fun _ _ => ⟨rfl, rfl, .inl rfl⟩, Resolver.ofSource_eq "" none, Resolver.ofSource_eq "" none⟩,
        rfl⟩
  obtain ⟨-, -, seen, -⟩ := words_stay_inside (World.start outage) (World.start outage) twins rfl
    (staffRefused.map fun v => (v, plain)) (staffRefused.map fun v => (v, frank)) (by simp)
  exact ⟨by decide +kernel, by decide +kernel, seen 0⟩

end Server

end SubscriptionGateway
