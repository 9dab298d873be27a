import SubscriptionGateway.Proofs.Engine.Steps
import SubscriptionGateway.Proofs.Server.Play

/-!
The engine within a server. Of every task the server leaves the engine's actions to the engine,
and sessions do nothing to it but call it, take frames and end connections. So the engine within a
play of a server has been played itself, and what always holds of engines holds of it.
-/
namespace SubscriptionGateway

open Broker

namespace Engine

def Call.isEnding : Call → Bool
  | .unsubscribe _ | .release _ | .shutdownAll _ => true
  | _ => false

end Engine

namespace Server

/-! ## The engine's part of tasks and steps -/

def Action.engine? : Action → Option Engine.Action
  | .engine a => some a
  | _ => none

def Action.reads? : Action → Option PeerId
  | .read k _ _ _ | .subscribed k _ _ | .unsubscribed k _ => some k
  | _ => none

/-- Neither something for the engine nor for a reader. -/
def aside (task : List Action) : Bool := task.all fun a => a.engine?.isNone && a.reads?.isNone

/-- What a task has still to do in the engine. -/
def inner (task : List Action) : List Engine.Action := task.filterMap Action.engine?

def busy {α : Type} (ts : List (List α)) : List (List α) := ts.filter fun task => !task.isEmpty

def innerTasks (ts : List (List Action)) : List (List Engine.Action) := busy (ts.map inner)

def innerSteps (log : Steps) : Engine.Steps :=
  log.filterMap fun p => p.2.engine?.map fun a => (p.1.engine, a)

/-- What a task does in the engine comes before what it does in its session. -/
def Fronted (task : List Action) : Prop :=
  ∃ (es : List Engine.Action) (rest : List Action),
    task = es.map Action.engine ++ rest ∧ inner rest = []

variable {s s' : Server} {a : Action} {task todo rest : List Action} {ts us : List (List Action)}
  {log : Steps} {e e' : Engine} {k : PeerId}

theorem inner_append (p q : List Action) : inner (p ++ q) = inner p ++ inner q :=
  List.filterMap_append

theorem inner_map (es : List Engine.Action) : inner (es.map Action.engine) = es := by
  simp [inner, List.filterMap_map, Function.comp_def, Action.engine?]

theorem eq_engine {b : Engine.Action} (own : a.engine? = some b) : a = .engine b := by
  cases a <;> simp_all [Action.engine?]

theorem inner_pending (b : Engine.Action) (todo : List Action) (others : List (List Action)) :
    inner ((.engine b :: todo) :: others).flatten = b :: (inner todo ++ inner others.flatten) := by
  simp [inner, Action.engine?]

theorem inner_session (session : a.engine? = none) : inner (a :: todo) = inner todo := by
  simp [inner, session]

theorem inner_aside (apart : aside task = true) : inner task = [] :=
  List.filterMap_eq_nil_iff.mpr fun a member => by
    have both := List.all_eq_true.mp apart a member
    simp_all

theorem aside_reads (apart : aside task = true) (member : a ∈ task) : a.reads? = none := by
  have both := List.all_eq_true.mp apart a member
  simp_all

theorem innerSteps_append (log more : Steps) :
    innerSteps (log ++ more) = innerSteps log ++ innerSteps more := List.filterMap_append

theorem mem_innerSteps {p : Engine × Engine.Action} :
    p ∈ innerSteps log ↔ ∃ q ∈ log, q.1.engine = p.1 ∧ q.2 = .engine p.2 := by
  constructor
  · intro member
    obtain ⟨q, there, inside⟩ := List.mem_filterMap.mp member
    obtain ⟨b, own, rfl⟩ := Option.map_eq_some_iff.mp inside
    exact ⟨q, there, rfl, eq_engine own⟩
  · rintro ⟨q, there, state, own⟩
    exact List.mem_filterMap.mpr ⟨q, there, by simp [own, state, Action.engine?]⟩

section Busy

variable {α : Type} {t : List α} {l m : List (List α)}

theorem busy_append (l m : List (List α)) : busy (l ++ m) = busy l ++ busy m :=
  List.filter_append ..

theorem busy_idle (l : List (List α)) : busy ([] :: l) = busy l := rfl

theorem busy_cons (x : α) (t : List α) (l : List (List α)) :
    busy ((x :: t) :: l) = (x :: t) :: busy l := rfl

theorem busy_perm (perm : l.Perm m) : (busy l).Perm (busy m) := perm.filter _

theorem busy_busy (l : List (List α)) : busy (busy l) = busy l := by
  simp [busy, List.filter_filter]

theorem busy_flatten (l : List (List α)) : (busy l).flatten = l.flatten := by
  induction l with
  | nil => rfl
  | cons t l ih =>
    cases t with
    | nil => simpa [busy_idle] using ih
    | cons x t => simp [busy_cons, ih]

end Busy

theorem innerTasks_perm (perm : ts.Perm us) : (innerTasks ts).Perm (innerTasks us) :=
  busy_perm (perm.map inner)

theorem innerTasks_append (ts us : List (List Action)) :
    innerTasks (ts ++ us) = innerTasks ts ++ innerTasks us := by
  simp only [innerTasks, List.map_append, busy_append]

theorem innerTasks_idle (nothing : inner task = []) :
    innerTasks (task :: ts) = innerTasks ts := by
  simp [innerTasks, nothing, busy_idle]

theorem innerTasks_single (es : List Engine.Action) :
    innerTasks [es.map Action.engine] = busy [es] := by
  simp [innerTasks, inner_map]

/-! ## What sessions do to the engine -/

inductive Quiet (e : Engine) : Engine → Prop where
  | same : Quiet e e
  | input {e' : Engine} (i : Engine.Input) (silent : ∀ e, i.task e = []) :
    Quiet e e' → Quiet e (i.apply e')

inductive Conduct (s : Server) (a : Action) (f : Effect) : Prop where
  | alone (engine : Quiet s.engine f.server.engine) (next : aside f.next = true)
      (started : f.started = [])
  | waits (k : PeerId) (since : Nat) (before : Bool) (due? : Option Nat)
      (whose : a.reads? = some k) (engine : f.server.engine = s.engine)
      (next : f.next = [.read k since before due?]) (started : f.started = [])
  | asks (call : Engine.Call) (ending : call.isEnding = true) (rest : List Action)
      (engine : f.server.engine = s.engine.newCall.2)
      (next : f.next = (call.task s.engine.calls).map Action.engine ++ rest)
      (session : aside rest = true) (started : f.started = [])
  | subscribes (k : PeerId) (since : Nat) (before : Bool) (due? : Option Nat) (p : Peer)
      (c : ConnectionId) (t id : String) (r : Request) (reads : a = .read k since before due?)
      (peer : s.peers[k]? = some p) (connection : p.connection? = some c)
      (message : s.look p since before = some (.item (.text t)))
      (decoded : p.protocol.decode t = .ok (.subscribe id r))
      (vacant : ∀ x ∈ s.engine.owned c, x.2 ≠ id)
      (engine : f.server.engine = s.engine.newCall.2)
      (next : f.next = [.engine (.subscribe s.engine.calls c id r),
        .subscribed k id s.engine.calls])
      (started : f.started = [])
  | unsubscribes (k : PeerId) (p : Peer) (c : ConnectionId) (id : String) (sub : SubscriptionId)
      (whose : a.reads? = some k) (peer : s.peers[k]? = some p)
      (connection : p.connection? = some c) (owned : (sub, id) ∈ s.engine.owned c)
      (engine : f.server.engine = s.engine.newCall.2)
      (next : f.next = [.engine (.unsubscribe sub), .engine (.answer s.engine.calls .done),
        .unsubscribed k id])
      (started : f.started = [])
  /-- It has a task of its own give a connection back. -/
  | sends (c : ConnectionId) (engine : f.server.engine = s.engine.newCall.2)
      (next : f.next = [])
      (started : f.started = [((Engine.Call.release c).task s.engine.calls).map Action.engine])

theorem quiet_of_eq (same : e' = e) : Quiet e e' := same ▸ .same

theorem updatePeer_engine (same : s'.engine = s.engine) (k : PeerId) (f : Peer → Peer) :
    (s'.updatePeer k f).engine = s.engine := same

theorem conduct_readOn (same : s'.engine = s.engine) (whose : a.reads? = some k) :
    Conduct s a (s'.readOn k) := by
  simp only [readOn]
  split
  · exact .alone (quiet_of_eq same) rfl rfl
  · exact .waits k _ _ _ whose same rfl rfl

theorem conduct_hangUp (same : s'.engine = s.engine) (k : PeerId) :
    Conduct s a (s'.hangUp k) := by
  simp only [hangUp]
  split
  · exact .alone (quiet_of_eq same) rfl rfl
  split
  · exact .alone (quiet_of_eq same) rfl rfl
  · rename_i c _
    exact .asks (.release c) rfl [.waitForWriter k] (by rw [← same]; rfl)
      (by rw [← same]; rfl) rfl rfl

theorem conduct_closeWith (same : s'.engine = s.engine) (k : PeerId) (code : Nat)
    (reason : String) : Conduct s a (s'.closeWith k code reason) :=
  conduct_hangUp (updatePeer_engine same k _) k

theorem conduct_endStream (same : s'.engine = s.engine) (k : StreamId) (x : Streaming) :
    Conduct s a (s'.endStream k x) := by
  simp only [endStream]
  split
  · exact .alone (quiet_of_eq same) rfl rfl
  · rename_i c _
    exact .sends c (by rw [← same]; rfl) rfl (by rw [← same]; rfl)

theorem take_quiet (e : Engine) (c : ConnectionId) (most : Nat) :
    Quiet e (e.takeFrames c most).2 := .input (.take c most) (fun _ => rfl) .same

theorem stopWriting_quiet (s : Server) (k : PeerId) : Quiet s.engine (s.stopWriting k).engine := by
  simp only [stopWriting]
  split
  · rename_i c _
    exact .input (.stopReading c) (fun _ => rfl) .same
  · exact .same

theorem conduct_sendMessage (quiet : Quiet s.engine s'.engine) (k : PeerId) (p : Peer)
    (m : WebSocket.ServerMessage) : Conduct s a (s'.sendMessage k p m) := by
  simp only [sendMessage]
  split
  · exact .alone quiet rfl rfl
  · exact .alone quiet rfl rfl

theorem onText_subscribe {p : WebSocket.Protocol} {acknowledged : Bool}
    {owned : List (SubscriptionId × String)} {most : Nat} {text id : String} {r : Request}
    (reaction : WebSocket.Session.onText p acknowledged owned most text = .subscribe id r) :
    p.decode text = .ok (.subscribe id r) ∧ ∀ x ∈ owned, x.2 ≠ id := by
  simp only [WebSocket.Session.onText] at reaction
  split at reaction
  · rename_i m decoded
    cases m with
    | subscribe id' r' =>
      simp only [WebSocket.Session.onMessage, WebSocket.Session.onSubscribe,
        WebSocket.Session.existing] at reaction
      split at reaction
      · split at reaction
        · split at reaction <;> simp at reaction
        · rename_i vacant
          split at reaction
          · simp at reaction
          · obtain ⟨rfl, rfl⟩ : id' = id ∧ r' = r := by simpa using reaction
            exact ⟨decoded, fun x member same =>
              vacant (List.any_eq_true.mpr ⟨x, member, by simp [same]⟩)⟩
      · simp at reaction
    | init | complete =>
      simp only [WebSocket.Session.onMessage] at reaction
      split at reaction <;> simp at reaction
    | ping | pong | terminate => simp [WebSocket.Session.onMessage] at reaction
  · simp at reaction

theorem onText_unsubscribe {p : WebSocket.Protocol} {acknowledged : Bool}
    {owned : List (SubscriptionId × String)} {most : Nat} {text id : String} {sub : SubscriptionId}
    (reaction : WebSocket.Session.onText p acknowledged owned most text = .unsubscribe id sub) :
    (sub, id) ∈ owned := by
  simp only [WebSocket.Session.onText] at reaction
  split at reaction
  · rename_i m decoded
    cases m with
    | complete id' =>
      simp only [WebSocket.Session.onMessage] at reaction
      split at reaction
      · rename_i s' label found
        obtain ⟨rfl, rfl⟩ : id' = id ∧ s' = sub := by simpa using reaction
        have same : label = id' := by simpa using List.find?_some found
        exact same ▸ List.mem_of_find?_eq_some found
      · simp at reaction
    | subscribe id' r' =>
      simp only [WebSocket.Session.onMessage, WebSocket.Session.onSubscribe,
        WebSocket.Session.existing] at reaction
      split at reaction
      · split at reaction
        · split at reaction <;> simp at reaction
        · split at reaction <;> simp at reaction
      · simp at reaction
    | init =>
      simp only [WebSocket.Session.onMessage] at reaction
      split at reaction <;> simp at reaction
    | ping | pong | terminate => simp [WebSocket.Session.onMessage] at reaction
  · simp at reaction

theorem conduct_react (same : s'.engine = s.engine) {since : Nat} {before : Bool}
    {due? : Option Nat} {p : Peer} {c : ConnectionId} {t : String} (peer : s.peers[k]? = some p)
    (connection : p.connection? = some c)
    (message : s.look p since before = some (.item (.text t))) :
    Conduct s (.read k since before due?) (s'.react k c (WebSocket.Session.onText p.protocol
      p.acknowledged (s.engine.owned c) s.settings.maxSubscriptions t)) := by
  cases reaction : WebSocket.Session.onText p.protocol p.acknowledged (s.engine.owned c)
    s.settings.maxSubscriptions t with
  | reply ms => exact conduct_readOn (updatePeer_engine same k _) rfl
  | acknowledge ms =>
    exact conduct_readOn (updatePeer_engine (updatePeer_engine same k _) k _) rfl
  | close code reason => exact conduct_closeWith same k code reason
  | subscribe id r =>
    obtain ⟨decoded, vacant⟩ := onText_subscribe reaction
    exact .subscribes k since before due? p c t id r rfl peer connection message decoded vacant
      (by rw [← same]; rfl) (by rw [← same]; rfl) rfl
  | unsubscribe id sub =>
    exact .unsubscribes k p c id sub rfl peer connection (onText_unsubscribe reaction)
      (by rw [← same]; rfl) (by rw [← same]; rfl) rfl
  | leave => exact conduct_hangUp same k

theorem conduct_readNext (s : Server) (k : PeerId) (since : Nat) (before : Bool)
    (due? : Option Nat) : Conduct s (.read k since before due?) (s.readNext k since before) := by
  simp only [readNext]
  split
  · exact .alone .same rfl rfl
  rename_i p peer
  split
  · rename_i c i connection message
    have popped : (s.updatePeer k fun p => { p with incoming := p.incoming.tail }).engine =
        s.engine := rfl
    cases i with
    | text t => exact conduct_react popped peer connection message
    | binary => exact conduct_closeWith popped k _ _
    | ping payload =>
      simp only [onItem]
      split
      · exact conduct_hangUp popped k
      · exact conduct_readOn (updatePeer_engine popped k _) rfl
    | pong payload =>
      simp only [onItem]
      split
      · exact conduct_hangUp popped k
      · exact conduct_readOn popped rfl
    | close => exact conduct_hangUp (updatePeer_engine popped k _) k
    | lost => exact conduct_hangUp popped k
  · exact conduct_readOn rfl rfl
  · exact conduct_hangUp rfl k
  · exact conduct_closeWith rfl k _ _

theorem conduct_pickNext (s : Server) (k : PeerId) : Conduct s a (s.pickNext k) := by
  simp only [pickNext]
  split
  · exact .alone .same rfl rfl
  split
  · exact .alone .same rfl rfl
  split
  · rename_i rest _
    have popped : Quiet s.engine
        (s.updatePeer k fun p => { p with control := rest }).engine := .same
    exact conduct_sendMessage popped k _ _
  split
  · exact .alone .same rfl rfl
  · rename_i c _
    have taken := take_quiet s.engine c 1
    split
    · rename_i taking
      rw [taking] at taken
      exact conduct_sendMessage taken k _ _
    · exact .alone .same rfl rfl

theorem conduct_flush (s : Server) (k : PeerId) (isLast : Bool) :
    Conduct s a (s.flush k isLast) := by
  have stops {s' : Server} (quiet : Quiet s.engine s'.engine) :
      Conduct s a ⟨s'.stopWriting k, [], []⟩ := by
    refine .alone ?_ rfl rfl
    simp only [stopWriting]
    split
    · rename_i c _
      exact .input (.stopReading c) (fun _ => rfl) quiet
    · exact quiet
  simp only [flush]
  split
  · exact .alone .same rfl rfl
  split
  · exact .alone .same rfl rfl
  split
  · split
    · exact stops .same
    · exact .alone .same rfl rfl
  split
  · split
    · exact stops (quiet_of_eq (updatePeer_engine rfl k _))
    · exact .alone .same rfl rfl
  split
  · exact stops .same
  · split
    · rename_i c _
      have cancelled : Quiet s.engine (s.mapEngine (·.cancelConnection c)).engine :=
        .input (.cancel c) (fun _ => rfl) .same
      exact stops cancelled
    · exact stops .same

theorem conduct_readBlocked (s : Server) (k : PeerId) : Conduct s a (s.readBlocked k) := by
  have sends (p : WebSocket.Protocol) (ms : List WebSocket.ServerMessage) :
      aside (((ms.filterMap (itemOf? p)).flatMap fun i =>
        [.writeBlocked k i, .flushBlocked k]) ++ [.readBlocked k]) = true := by
    refine List.all_eq_true.mpr fun b member => ?_
    rcases List.mem_append.mp member with reply | last
    · obtain ⟨i, -, here⟩ := List.mem_flatMap.mp reply
      have either : b = .writeBlocked k i ∨ b = .flushBlocked k := by simpa using here
      rcases either with rfl | rfl <;> rfl
    · rw [List.mem_singleton.mp last]
      rfl
  simp only [readBlocked]
  split
  · exact .alone .same rfl rfl
  split
  · exact .alone .same rfl rfl
  · split
    · exact .alone .same rfl rfl
    · exact .alone .same (sends _ _) rfl
  · split <;> exact .alone .same rfl rfl
  · split <;> exact .alone .same rfl rfl
  · exact .alone .same rfl rfl
  · exact .alone .same rfl rfl
  · exact .alone .same rfl rfl

theorem conduct_streamNext (s : Server) (k : StreamId) : Conduct s a (s.streamNext k) := by
  simp only [streamNext]
  split
  · exact .alone .same rfl rfl
  rename_i x _
  split
  · exact conduct_endStream rfl k x
  split
  · exact .alone .same rfl rfl
  split
  · exact conduct_endStream rfl k x
  split
  · exact conduct_endStream rfl k x
  · rename_i c _
    have taken := take_quiet s.engine c 1
    split
    · rename_i taking
      rw [taking] at taken
      exact .alone taken rfl rfl
    · split
      · exact conduct_endStream rfl k x
      · exact .alone .same rfl rfl

theorem conduct_answerStream (s : Server) (k : StreamId) (call : CallId) :
    Conduct s a (s.answerStream k call) := by
  simp only [answerStream]
  split
  · split
    · exact .alone .same rfl rfl
    · rename_i c _
      exact .asks (.release c) rfl [.refuseStream k _] rfl rfl rfl rfl
  · exact .alone .same rfl rfl

theorem perform_conduct (s : Server) (a : Action) (session : a.engine? = none) :
    Conduct s a (s.perform a) := by
  cases a with
  | engine a => simp [Action.engine?] at session
  | read k since before due? => exact conduct_readNext s k since before due?
  | subscribed k id call =>
    simp only [perform]
    split
    · exact conduct_readOn (updatePeer_engine rfl k _) rfl
    · exact conduct_readOn rfl rfl
  | unsubscribed k id =>
    simp only [perform]
    split
    · exact conduct_readOn (updatePeer_engine rfl k _) rfl
    · exact .alone .same rfl rfl
  | waitForWriter k => exact .alone .same rfl rfl
  | endSocket k due => exact .alone (stopWriting_quiet s k) rfl rfl
  | pick k => exact conduct_pickNext s k
  | write k i =>
    simp only [perform, writeItem]
    split
    · exact .alone .same rfl rfl
    split
    · exact .alone .same rfl rfl
    split
    · split
      · exact .alone (stopWriting_quiet s k) rfl rfl
      · exact .alone .same rfl rfl
    · exact .alone .same rfl rfl
  | writeClose k => exact .alone .same rfl rfl
  | flush k isLast due => exact conduct_flush s k isLast
  | readBlocked k => exact conduct_readBlocked s k
  | writeBlocked k i => exact .alone .same rfl rfl
  | writeCloseBlocked k => exact .alone .same rfl rfl
  | flushBlocked k => exact .alone .same rfl rfl
  | endBlocked k => exact .alone (stopWriting_quiet s k) rfl rfl
  | answerStream k call => exact conduct_answerStream s k call
  | refuseStream k payload => exact .alone .same rfl rfl
  | stream k due => exact conduct_streamNext s k

/-! ## What comes from outside -/

inductive Arrival (s : Server) (w : World) : Prop where
  | quiet (engine : Quiet s.engine w.state.engine) (tasks : ∀ task ∈ w.tasks, aside task = true)
  | joins (engine : w.state.engine = (s.engine.openConnection .webSocket).2) (since : Nat)
      (before : Bool) (due? : Option Nat) (tasks : w.tasks =
        [[.pick s.peers.length], [.read s.peers.length since before due?]])
  | requests (c : ConnectionId) (r : Request) (x : StreamId)
      (connection : c = s.engine.connections.length)
      (engine : w.state.engine = (s.engine.openConnection .eventStream).2.newCall.2)
      (tasks : w.tasks = [[.engine (.subscribe s.engine.calls c EventStream.clientId r),
        .answerStream x s.engine.calls]])
  | calls (call : Engine.Call) (ending : call.isEnding = true)
      (engine : w.state.engine = s.engine.newCall.2)
      (tasks : w.tasks = [(call.task s.engine.calls).map Action.engine])

theorem input_arrival (s : Server) (i : Input) : Arrival s (i.act ⟨s, []⟩) := by
  have nothing {w : World} (engine : Quiet s.engine w.state.engine) (none : w.tasks = []) :
      Arrival s w := .quiet engine (by simp [none])
  have alone {task : List Action} (apart : aside task = true) :
      ∀ u ∈ [] ++ [task], aside u = true := by simpa using apart
  cases i with
  | join header capacity stalled =>
    simp only [Input.act, World.openSocket]
    split
    · exact .quiet .same (alone rfl)
    · refine .joins rfl ?_ ?_ ?_ ?tasks
      case tasks =>
        simp only [Running.spawn, List.nil_append, readOn, List.getElem?_concat_length]
        rfl
  | say k i =>
    simp only [Input.act, World.send]
    split
    · exact nothing .same rfl
    · exact nothing .same rfl
  | request accept body =>
    simp only [Input.act, World.requestStream]
    split
    · exact nothing .same rfl
    split
    · exact nothing .same rfl
    split
    · exact .quiet .same (alone rfl)
    · rename_i r _ _
      exact .requests _ r s.streams.length rfl rfl rfl
  | shutdown drainMs => exact .calls (.shutdownAll drainMs) rfl rfl rfl
  | receive k =>
    simp only [Input.act, World.received]
    split <;> exact nothing .same rfl
  | receiveChunks k =>
    simp only [Input.act, World.receivedChunks]
    split <;> exact nothing .same rfl
  | drop k => exact nothing .same rfl
  | resume k => exact nothing .same rfl
  | abandon k => exact nothing .same rfl
  | brokers hub => exact nothing (.input (.brokers hub) (fun _ => rfl) .same) rfl
  | pass ms => exact nothing (.input (.pass ms) (fun _ => rfl) .same) rfl

/-! ## The engine has been played -/

open Engine.World in
theorem quiet_moves {w : Engine.World} (quiet : Quiet w.state e') :
    ∃ moves : List Engine.Move, (w.play moves).state = e' ∧ (w.play moves).tasks = w.tasks ∧
      w.steps moves = [] := by
  induction quiet with
  | same => exact ⟨[], rfl, rfl, rfl⟩
  | input i silent _ ih =>
    obtain ⟨moves, state, tasks, steps⟩ := ih
    have none : i.task (w.play moves).state = [] := silent _
    refine ⟨moves ++ [.input i], ?_, ?_, ?_⟩
    · rw [play_append, ← state]
      exact input_state ..
    · rw [play_append, ← tasks]
      change ((w.play moves).input i).tasks = _
      simp [Engine.World.input, none, Engine.World.map]
    · rw [steps_append, steps]
      rfl

/-- A call of the engine is a move of it. -/
theorem call_move (w : Engine.World) (call : Engine.Call) :
    (w.move (.input (.call call))).state = w.state.newCall.2 ∧
      busy (w.move (.input (.call call))).tasks =
        busy w.tasks ++ busy [call.task w.state.calls] := by
  refine ⟨Engine.World.input_state .., ?_⟩
  rcases Engine.World.input_tasks w (.call call) with more | ⟨none, same⟩
  · rw [show w.move (.input (.call call)) = w.input (.call call) from rfl, more, busy_append]
    rfl
  · have none : call.task w.state.calls = [] := none
    rw [show w.move (.input (.call call)) = w.input (.call call) from rfl, same, none]
    simp [busy]

theorem task_move {w : Engine.World} {a : Engine.Action} {todo : List Engine.Action}
    {others : List (List Engine.Action)} (there : (busy w.tasks).Perm ((a :: todo) :: others))
    (ready : w.state.ready a = true) :
    ∃ place, (w.move (.step place)).state = (w.state.perform a).engine ∧
      (busy (w.move (.step place)).tasks).Perm (busy
        (((w.state.perform a).next ++ todo) :: ((w.state.perform a).started ++ others))) ∧
      w.steps [.step place] = [(w.state, a)] := by
  have member : (a :: todo) ∈ w.tasks :=
    List.mem_of_mem_filter (there.mem_iff.mpr (List.mem_cons_self ..))
  obtain ⟨place, bound, here⟩ := List.getElem_of_mem member
  have found : w.tasks[place]? = some (a :: todo) := by rw [List.getElem?_eq_getElem bound, here]
  have rest : (busy (w.tasks.eraseIdx place)).Perm (busy others) := by
    have whole := (List.getElem_cons_eraseIdx_perm bound).symm
    rw [here] at whole
    have both := (busy_perm whole).symm.trans there
    have rest : (busy (w.tasks.eraseIdx place)).Perm others := List.Perm.cons_inv both
    have all := busy_perm rest
    rwa [busy_busy] at all
  have stepped : w.step? Engine.machine place =
      some (Running.proceed Engine.machine w.state a todo (w.tasks.eraseIdx place)) := by
    simp only [Running.step?, found]
    exact if_pos ready
  refine ⟨place, ?_, ?_, ?_⟩
  · rw [Engine.World.move, Running.move, stepped]
    exact Running.proceed_state ..
  · rw [Engine.World.move, Running.move, stepped, Option.getD_some]
    have after : (busy (((w.state.perform a).next ++ todo) ::
        ((w.state.perform a).started ++ w.tasks.eraseIdx place))).Perm (busy
          (((w.state.perform a).next ++ todo) :: ((w.state.perform a).started ++ others))) := by
      rw [← List.cons_append, ← List.cons_append, busy_append, busy_append _ others]
      exact rest.append_left _
    rcases Running.proceed_tasks (m := Engine.machine) w.state a todo (w.tasks.eraseIdx place) with
      all | ⟨finished, all⟩
    · exact (busy_perm all).trans after
    · have finished : (w.state.perform a).next ++ todo = [] := finished
      rw [finished, busy_idle] at after ⊢
      exact (busy_perm all).trans after
  · simp [Engine.World.steps, Running.steps, Running.record, Running.noted, Running.actionAt, found,
      show Engine.machine.ready w.state a = true from ready]

/-- The engine of a server, what tasks do in it and what they have done, as they are in a world that
has been played. -/
structure Mirrored (w : Engine.World) (moves : List Engine.Move) (s : Server)
    (ts : List (List Action)) (log : Steps) : Prop where
  state : (w.play moves).state = s.engine
  tasks : (busy (w.play moves).tasks).Perm (innerTasks ts)
  steps : w.steps moves = innerSteps log

variable {w : Engine.World} {moves more : List Engine.Move} {others : List (List Action)}

theorem Mirrored.onward (mirrored : Mirrored w moves s ts log) {log' : Steps}
    (state : ((w.play moves).play more).state = s'.engine)
    (tasks : (busy ((w.play moves).play more).tasks).Perm (innerTasks us))
    (steps : (w.play moves).steps more = innerSteps log') :
    Mirrored w (moves ++ more) s' us (log ++ log') where
  state := by rw [Engine.World.play_append, state]
  tasks := by
    rw [Engine.World.play_append]
    exact tasks
  steps := by rw [Engine.World.steps_append, mirrored.steps, steps, innerSteps_append]

theorem mirrored_quiet (mirrored : Mirrored w moves s ts log) {log' : Steps}
    (quiet : Quiet s.engine s'.engine) (tasks : innerTasks us = innerTasks ts)
    (steps : innerSteps log' = []) :
    ∃ moves, Mirrored w moves s' us (log ++ log') := by
  rw [← mirrored.state] at quiet
  obtain ⟨more, state, same, none⟩ := quiet_moves quiet
  refine ⟨moves ++ more, mirrored.onward state ?_ (none.trans steps.symm)⟩
  rw [same, tasks]
  exact mirrored.tasks

theorem mirrored_call (mirrored : Mirrored w moves s ts log) {log' : Steps} (call : Engine.Call)
    (engine : s'.engine = s.engine.newCall.2)
    (tasks : (innerTasks us).Perm
      (innerTasks [(call.task s.engine.calls).map Action.engine] ++ innerTasks ts))
    (steps : innerSteps log' = []) : ∃ moves, Mirrored w moves s' us (log ++ log') := by
  obtain ⟨state, more⟩ := call_move (w.play moves) call
  refine ⟨moves ++ [.input (.call call)], mirrored.onward ?_ ?_ (steps ▸ rfl)⟩
  · rw [engine, ← mirrored.state]
    exact state
  · change (busy ((w.play moves).move (.input (.call call))).tasks).Perm _
    rw [more, mirrored.state, ← innerTasks_single]
    exact (List.perm_append_comm.trans (mirrored.tasks.append_left _)).trans tasks.symm

/-! ### Fronted tasks -/

theorem fronted_session (session : inner task = []) : Fronted task := ⟨[], task, rfl, session⟩

theorem fronted_prefix (es : List Engine.Action) (fronted : Fronted todo) :
    Fronted (es.map Action.engine ++ todo) := by
  obtain ⟨fs, rest, rfl, session⟩ := fronted
  exact ⟨es ++ fs, rest, by simp, session⟩

theorem fronted_map (es : List Engine.Action) : Fronted (es.map Action.engine) :=
  ⟨es, [], (List.append_nil _).symm, rfl⟩

theorem fronted_tail {a : Engine.Action} (fronted : Fronted (.engine a :: todo)) :
    Fronted todo := by
  obtain ⟨es, rest, same, session⟩ := fronted
  cases es with
  | nil =>
    rw [List.map_nil, List.nil_append] at same
    rw [← same] at session
    simp [inner, Action.engine?] at session
  | cons b es =>
    obtain ⟨-, rfl⟩ : Action.engine a = .engine b ∧ todo = es.map Action.engine ++ rest := by
      simpa using same
    exact ⟨es, rest, rfl, session⟩

theorem fronted_after (session : a.engine? = none) (fronted : Fronted (a :: todo)) :
    inner todo = [] := by
  obtain ⟨es, rest, same, outside⟩ := fronted
  cases es with
  | nil =>
    rw [List.map_nil, List.nil_append] at same
    rwa [← same, inner_session session] at outside
  | cons b es =>
    obtain ⟨rfl, -⟩ : a = .engine b ∧ todo = es.map Action.engine ++ rest := by simpa using same
    simp [Action.engine?] at session

theorem arrival_fronted {w' : World} (arrival : Arrival s w') :
    ∀ task ∈ w'.tasks, Fronted task := by
  cases arrival with
  | quiet _ tasks =>
    exact fun task member => fronted_session (inner_aside (tasks task member))
  | joins _ since before due? tasks =>
    intro task member
    have either : task = [.pick s.peers.length] ∨
        task = [.read s.peers.length since before due?] := by simpa [tasks] using member
    rcases either with rfl | rfl <;> exact fronted_session rfl
  | requests c r x _ _ tasks =>
    intro task member
    obtain rfl : task = _ := by simpa [tasks] using member
    exact fronted_prefix [.subscribe s.engine.calls c EventStream.clientId r] (fronted_session rfl)
  | calls call ending _ tasks =>
    intro task member
    obtain rfl : task = _ := by simpa [tasks] using member
    exact fronted_map _

theorem conduct_fronted {f : Effect} (conduct : Conduct s a f) (session : inner todo = []) :
    Fronted (f.next ++ todo) ∧ ∀ task ∈ f.started, Fronted task := by
  have outside {rest : List Action} (nothing : inner rest = []) : Fronted (rest ++ todo) :=
    fronted_session (by rw [inner_append, nothing, session]; rfl)
  cases conduct with
  | alone _ next started => exact ⟨outside (inner_aside next), by simp [started]⟩
  | waits k since before due? _ _ next started =>
    rw [next]
    exact ⟨outside rfl, by simp [started]⟩
  | asks call _ rest _ next calm started =>
    refine ⟨?_, by simp [started]⟩
    rw [next, List.append_assoc]
    exact fronted_prefix _ (outside (inner_aside calm))
  | unsubscribes k p c id sub _ _ _ _ _ next started =>
    refine ⟨?_, by simp [started]⟩
    have after : Fronted ([.unsubscribed k id] ++ todo) := outside rfl
    rw [next]
    exact fronted_prefix [.unsubscribe sub, .answer s.engine.calls .done] after
  | subscribes k _ _ _ _ c _ id r _ _ _ _ _ _ _ next started =>
    refine ⟨?_, by simp [started]⟩
    have after : Fronted ([.subscribed k id s.engine.calls] ++ todo) := outside rfl
    rw [next]
    exact fronted_prefix [.subscribe s.engine.calls c id r] after
  | sends c _ next started =>
    refine ⟨next ▸ outside rfl, fun task member => ?_⟩
    obtain rfl : task = _ := by simpa [started] using member
    exact fronted_map _

theorem reached_fronted {w₀ : World} (front : ∀ task ∈ w₀.tasks, Fronted task)
    (reached : Reached w₀ s ts log) : ∀ task ∈ ts, Fronted task := by
  induction reached with
  | start => exact front
  | shuffle perm _ ih => exact fun task member => ih task (perm.mem_iff.mpr member)
  | idle _ ih => exact fun task member => ih task (List.mem_cons_of_mem _ member)
  | @outside s ts _ i _ ih =>
    intro task member
    rcases List.mem_append.mp member with new | old
    · exact arrival_fronted (input_arrival s i) task new
    · exact ih task old
  | @inside s a todo others _ _ _ ih =>
    have head := ih _ (List.mem_cons_self ..)
    have others (task : List Action) (member : task ∈ others) : Fronted task :=
      ih task (List.mem_cons_of_mem _ member)
    cases session : a.engine? with
    | none =>
      obtain ⟨first, started⟩ :=
        conduct_fronted (perform_conduct s a session) (fronted_after session head)
      intro task member
      rcases List.mem_cons.mp member with rfl | member
      · exact first
      · exact (List.mem_append.mp member).elim (started task) (others task)
    | some b =>
      obtain rfl := eq_engine session
      intro task member
      rcases List.mem_cons.mp member with rfl | member
      · exact fronted_prefix _ (fronted_tail head)
      rcases List.mem_append.mp member with new | old
      · obtain ⟨es, -, rfl⟩ := List.mem_map.mp new
        exact fronted_map es
      · exact others task old

/-! ### Every reached server -/

variable {setup : Setup} {hub : Hub} {first : Server} {w₀ : World}

theorem conduct_mirrored {f : Effect} (conduct : Conduct s a f) (session : a.engine? = none)
    (calm : inner todo = [])
    (mirrored : Mirrored w moves s ((a :: todo) :: others) log) :
    ∃ moves, Mirrored w moves f.server ((f.next ++ todo) :: (f.started ++ others))
      (log ++ [(s, a)]) := by
  have steps : innerSteps [(s, a)] = [] := by simp [innerSteps, session]
  have before : innerTasks ((a :: todo) :: others) = innerTasks others :=
    innerTasks_idle (by rw [inner_session session, calm])
  have after {rest : List Action} (nothing : inner rest = []) :
      innerTasks ((rest ++ todo) :: others) = innerTasks others :=
    innerTasks_idle (by rw [inner_append, nothing, calm]; rfl)
  have called (es : List Engine.Action) (rest : List Action) (nothing : inner rest = []) :
      (innerTasks ((es.map Action.engine ++ rest ++ todo) :: others)).Perm
        (innerTasks [es.map Action.engine] ++ innerTasks ((a :: todo) :: others)) := by
    have front : inner (es.map Action.engine ++ rest ++ todo) = es := by
      rw [inner_append, inner_append, inner_map, nothing, calm]
      simp
    rw [before, ← innerTasks_append]
    simp only [innerTasks, List.map_cons, List.map_append, front, inner_map]
    exact List.Perm.refl _
  cases conduct with
  | alone engine next started =>
    rw [started]
    exact mirrored_quiet mirrored engine ((after (inner_aside next)).trans before.symm) steps
  | waits k since _ due? _ engine next started =>
    rw [started, next]
    exact mirrored_quiet mirrored (quiet_of_eq engine) ((after rfl).trans before.symm) steps
  | asks call ending rest engine next outside started =>
    rw [started, next]
    exact mirrored_call mirrored call engine (called _ rest (inner_aside outside)) steps
  | unsubscribes k p c id sub _ _ _ _ engine next started =>
    rw [started, next]
    exact mirrored_call mirrored (.unsubscribe sub) engine
      (called [.unsubscribe sub, .answer s.engine.calls .done] [.unsubscribed k id] rfl) steps
  | subscribes k _ _ _ _ c _ id r _ _ _ _ _ _ engine next started =>
    rw [started, next]
    exact mirrored_call mirrored (.subscribe c id r) engine
      (called [.subscribe s.engine.calls c id r] [.subscribed k id s.engine.calls] rfl) steps
  | sends c engine next started =>
    rw [started, next]
    refine mirrored_call mirrored (.release c) engine ?_ steps
    have nothing : inner ([] ++ todo) = [] := calm
    rw [innerTasks_idle nothing, innerTasks_append, before]

theorem arrival_mirrored {w' : World} (arrival : Arrival s w')
    (mirrored : Mirrored w moves s ts log) :
    ∃ moves, Mirrored w moves w'.state (w'.tasks ++ ts) log := by
  have quietly {tasks : List (List Action)} (calm : ∀ task ∈ tasks, inner task = []) :
      innerTasks (tasks ++ ts) = innerTasks ts := by
    induction tasks with
    | nil => rfl
    | cons task tasks ih =>
      rw [List.cons_append, innerTasks_idle (calm task (List.mem_cons_self ..))]
      exact ih fun task member => calm task (List.mem_cons_of_mem _ member)
  rw [← List.append_nil log]
  cases arrival with
  | quiet engine tasks =>
    exact mirrored_quiet mirrored engine
      (quietly fun task member => inner_aside (tasks task member)) rfl
  | joins engine since before due? tasks =>
    rw [tasks]
    refine mirrored_quiet mirrored ?_ (quietly (by simp [inner, Action.engine?])) rfl
    exact engine ▸ .input (.connect .webSocket) (fun _ => rfl) .same
  | requests c r x connection engine tasks =>
    have joined : Quiet s.engine (s.engine.openConnection .eventStream).2 :=
      .input (.connect .eventStream) (fun _ => rfl) .same
    let there : Server := { s with engine := (s.engine.openConnection .eventStream).2 }
    obtain ⟨moves, meanwhile⟩ : ∃ moves, Mirrored w moves there ts (log ++ []) :=
      mirrored_quiet mirrored joined rfl rfl
    rw [List.append_nil] at meanwhile
    rw [tasks]
    refine mirrored_call meanwhile (.subscribe c EventStream.clientId r) engine ?_ rfl
    rw [innerTasks_append]
    exact List.Perm.refl _
  | calls call ending engine tasks =>
    rw [tasks]
    refine mirrored_call mirrored call engine ?_ rfl
    rw [innerTasks_append]

theorem engine_mirrored {b : Engine.Action} (ready : s.ready (.engine b) = true)
    (mirrored : Mirrored w moves s ((.engine b :: todo) :: others) log) :
    ∃ moves, Mirrored w moves (s.perform (.engine b)).server
      (((s.perform (.engine b)).next ++ todo) :: ((s.perform (.engine b)).started ++ others))
      (log ++ [(s, .engine b)]) := by
  have there : (busy (w.play moves).tasks).Perm
      ((b :: inner todo) :: busy (others.map inner)) := mirrored.tasks
  have goes : (w.play moves).state.ready b = true := by
    rw [mirrored.state]
    exact ready
  obtain ⟨place, state, tasks, steps⟩ := task_move there goes
  rw [mirrored.state] at state tasks steps
  have there : ((w.play moves).play [.step place]).state =
      (s.perform (.engine b)).server.engine := state
  refine ⟨moves ++ [.step place], mirrored.onward there ?_ steps⟩
  refine List.Perm.trans tasks ?_
  have same : innerTasks (((s.perform (.engine b)).next ++ todo) ::
      ((s.perform (.engine b)).started ++ others)) =
        busy (((s.engine.perform b).next ++ inner todo) ::
          ((s.engine.perform b).started ++ others.map inner)) := by
    simp only [innerTasks, perform, ofEngine, List.map_cons, List.map_append, inner_append,
      inner_map, List.map_map]
    congr 3
    exact (List.map_congr_left fun es _ => inner_map es).trans (List.map_id _)
  rw [same, ← List.cons_append, ← List.cons_append, busy_append, busy_append _ (others.map inner),
    busy_busy]

/-- Of every reached server the engine has been played, with the tasks and the steps that the
server has had for it. -/
theorem reached_mirrored (front : ∀ task ∈ w₀.tasks, Fronted task)
    (begun : Mirrored w [] w₀.state w₀.tasks []) (reached : Reached w₀ s ts log) :
    ∃ moves, Mirrored w moves s ts log := by
  induction reached with
  | start => exact ⟨[], begun⟩
  | shuffle perm _ ih =>
    obtain ⟨moves, state, tasks, steps⟩ := ih
    exact ⟨moves, state, tasks.trans (innerTasks_perm perm), steps⟩
  | idle _ ih =>
    obtain ⟨moves, mirrored⟩ := ih
    exact ⟨moves, mirrored.state, mirrored.tasks, mirrored.steps⟩
  | outside i _ ih =>
    obtain ⟨moves, mirrored⟩ := ih
    exact arrival_mirrored (input_arrival _ i) mirrored
  | @inside s a todo others log ready before ih =>
    obtain ⟨moves, mirrored⟩ := ih
    cases session : a.engine? with
    | none =>
      have calm := fronted_after session (reached_fronted front before _ (List.mem_cons_self ..))
      exact conduct_mirrored (perform_conduct s a session) session calm mirrored
    | some b =>
      obtain rfl := eq_engine session
      exact engine_mirrored ready mirrored

theorem start_mirrored (begun : first.engine = Engine.start setup hub) :
    Mirrored (Engine.World.start setup hub) [] (World.start first).state (World.start first).tasks
      [] := ⟨begun.symm, List.Perm.refl _, rfl⟩

/-- What always holds of an engine holds of the engine of a server. -/
theorem mirrored_always {fact : Engine.Fact} (front : ∀ task ∈ w₀.tasks, Fronted task)
    (begun : Mirrored w [] w₀.state w₀.tasks []) (always : Engine.Always w fact)
    (reached : Reached w₀ s ts log) :
    ∃ us, (busy us).Perm (innerTasks ts) ∧ fact s.engine us (innerSteps log) := by
  obtain ⟨moves, state, tasks, steps⟩ := reached_mirrored front begun reached
  have holds := always.throughout moves
  rw [state, steps] at holds
  exact ⟨_, tasks, holds⟩

theorem reached_always {fact : Engine.Fact} (begun : first.engine = Engine.start setup hub)
    (always : Engine.Always (Engine.World.start setup hub) fact)
    (reached : Reached (World.start first) s ts log) :
    ∃ us, (busy us).Perm (innerTasks ts) ∧ fact s.engine us (innerSteps log) :=
  mirrored_always (by simp [World.start]) (start_mirrored begun) always reached

theorem innerTasks_flatten (ts : List (List Action)) :
    (innerTasks ts).flatten = inner ts.flatten := by
  rw [innerTasks, busy_flatten]
  exact List.filterMap_flatten.symm

theorem mirrored_pending {P : Engine → List Engine.Action → Engine.Steps → Prop}
    (shuffle : ∀ {e p q log}, p.Perm q → P e p log → P e q log)
    (front : ∀ task ∈ w₀.tasks, Fronted task) (begun : Mirrored w [] w₀.state w₀.tasks [])
    (always : Engine.Always w fun e ts log => P e ts.flatten log) (reached : Reached w₀ s ts log) :
    P s.engine (inner ts.flatten) (innerSteps log) := by
  obtain ⟨us, perm, holds⟩ := mirrored_always front begun always reached
  have pool := perm.flatten
  rw [busy_flatten, innerTasks_flatten] at pool
  exact shuffle pool holds

end Server

end SubscriptionGateway
