import SubscriptionGateway.Proofs.Server.Refusals
import SubscriptionGateway.Proofs.Server.Releases

/-!
Event streams as their clients know them. What a client reads are the frames that have been handed
over to its connection, each as one event, or why its request is refused; and when its stream is
over the connection is given back.
-/
namespace SubscriptionGateway

open Broker

namespace Server

open Engine (happened)
open EventStream (Event)

variable {s s' : Server} {k : StreamId} {c : ConnectionId} {a : Action} {x y : Streaming}
  {todo : List Action} {ts others : List (List Action)} {log : Steps} {setup : Setup}
  {hub : Hub} {first : Server} {laid : List Piece} {w : World}

/-! ## What is read -/

def Wire.ending (w : Wire) : List Item := if w.isCut then [.finished] else []

def wireOf (s : Server) (k : StreamId) : Wire :=
  match s.streams[k]? with
  | some x => x.wire
  | none => {}

def Piece.item (p : Piece) : Item := .chunk p.text

def World.shows (w : World) (k : StreamId) : Move → List Item
  | .input (.receiveChunks k') => if k' = k then (w.receivedChunks k).1 else []
  | _ => []

def World.shown (w : World) (k : StreamId) : List Move → List Item
  | [] => []
  | v :: moves => w.shows k v ++ (w.move v).shown k moves

theorem World.shown_append (w : World) (k : StreamId) (before later : List Move) :
    w.shown k (before ++ later) = w.shown k before ++ (w.play before).shown k later := by
  induction before generalizing w with
  | nil => rfl
  | cons v before ih =>
    have onward := ih (w.move v)
    simp only [List.cons_append, World.shown, onward, List.append_assoc]
    rfl

theorem wireOf_here (here : s.streams[k]? = some x) : s.wireOf k = x.wire := by simp [wireOf, here]

theorem act_wire (s : Server) (k : StreamId) (i : Input) :
    World.shows ⟨s, []⟩ k (.input i) ++ ((i.act ⟨s, []⟩).state.wireOf k).read = (s.wireOf k).read ∧
      ((i.act ⟨s, []⟩).state.wireOf k).ending = (s.wireOf k).ending := by
  have same {s' : Server} {shown : List Item} (nothing : shown = [])
    (wire : s'.wireOf k = s.wireOf k) :
      shown ++ (s'.wireOf k).read = (s.wireOf k).read ∧
        (s'.wireOf k).ending = (s.wireOf k).ending := by
    rw [nothing, wire]
    exact ⟨rfl, rfl⟩
  have joined {s' : Server} {y : Streaming} (streams : s'.streams = s.streams ++ [y])
      (fresh : y.wire = {}) : s'.wireOf k = s.wireOf k := by
    unfold wireOf
    rw [streams]
    rcases Nat.lt_trichotomy k s.streams.length with old | rfl | beyond
    · rw [List.getElem?_append_left old]
    · simp [fresh]
    · rw [List.getElem?_eq_none (Nat.le_of_lt beyond), List.getElem?_eq_none (by simp; omega)]
  cases i with
  | join header capacity stalled =>
    simp only [Input.act, World.openSocket]
    split <;> exact same rfl rfl
  | say k' i =>
    simp only [Input.act, World.send]
    split <;> exact same rfl rfl
  | request accept body =>
    simp only [Input.act, World.requestStream]
    split
    · exact same rfl rfl
    split
    · exact same rfl rfl
    split
    · exact same rfl (joined rfl rfl)
    · exact same rfl (joined rfl rfl)
  | abandon k' =>
    refine same rfl ?_
    simp only [Input.act, World.dropStream, World.map, updateStream, wireOf, List.getElem?_modify]
    cases s.streams[k]? with
    | none => rfl
    | some x => by_cases here : k' = k <;> simp [here]
  | receive k' =>
    simp only [Input.act, World.received]
    split <;> exact same rfl rfl
  | receiveChunks k' =>
    by_cases here : k' = k
    · subst here
      cases there : s.streams[k']? with
      | none => simp [World.shows, World.receivedChunks, Input.act, wireOf, there]
      | some x =>
        simp [World.shows, World.receivedChunks, Input.act, wireOf, there, World.map, updateStream,
          Wire.take, Wire.ending]
    · refine same (if_neg here) ?_
      simp only [Input.act, World.receivedChunks]
      split
      · simp [World.map, updateStream, wireOf, here]
      · rfl
  | drop | resume | shutdown | brokers | pass => exact same rfl rfl

theorem perform_wire
    (known : ∀ x, s.streams[k]? = some x → Streamed k s x ((a :: todo) :: others) log) :
    ∃ more, ((s.perform a).server.wireOf k).read = (s.wireOf k).read ++ more ∧
      (s.lays k a).map Piece.item ++ ((s.perform a).server.wireOf k).ending =
        (s.wireOf k).ending ++ more := by
  have still {s' : Server} (nothing : s.lays k a = []) (wire : s'.wireOf k = s.wireOf k) :
      ∃ more, (s'.wireOf k).read = (s.wireOf k).read ++ more ∧
        (s.lays k a).map Piece.item ++ (s'.wireOf k).ending = (s.wireOf k).ending ++ more :=
    ⟨[], by rw [wire, List.append_nil], by rw [nothing, wire, List.append_nil]; rfl⟩
  by_cases whose : a.serves? = some k
  · cases here : s.streams[k]? with
    | none =>
      have absent : (s.perform a).server.streams[k]? = none := by
        rw [List.getElem?_eq_none_iff, (perform_streams s a).1]
        exact List.getElem?_eq_none_iff.mp here
      have nothing : s.lays k a = [] := by cases a <;> simp [lays, here]
      exact still nothing (by simp [wireOf, absent, here])
    | some x =>
      have course := ((known x here).alone whose).1
      have flows := (known x here).flows
      cases a with
      | answerStream k' call =>
        obtain rfl : k' = k := by simpa [Action.serves?] using whose
        refine still rfl ?_
        simp only [perform, answerStream]
        split
        · split <;> rfl
        · simp [wireOf, updateStream, here]
      | refuseStream k' payload =>
        obtain rfl : k' = k := by simpa [Action.serves?] using whose
        exact still rfl (by simp [perform, refuseStream, wireOf, updateStream, here])
      | stream k' due =>
        obtain rfl : k' = k := by simpa [Action.serves?] using whose
        have uncut : x.wire.isCut = false := by
          cases course with
          | serves _ uncut => exact uncut
        have going : (s.wireOf k').ending = [] := by simp [wireOf_here here, Wire.ending, uncut]
        have wrote {y : Streaming} {p : Piece} (writes : s.nextPiece x = [p])
            (there : (s.perform (.stream k' due)).server.streams[k']? = some y)
            (wire : y.wire = (x.write p.text).wire) :
            ∃ more, ((s.perform (.stream k' due)).server.wireOf k').read =
              (s.wireOf k').read ++ more ∧
              (s.lays k' (.stream k' due)).map Piece.item ++
                ((s.perform (.stream k' due)).server.wireOf k').ending =
                  (s.wireOf k').ending ++ more := by
          obtain ⟨-, after, read⟩ := write_wire flows uncut p.text
          rw [going, lays_here here, writes, wireOf_here there, wireOf_here here, wire, read]
          exact ⟨[p.item], rfl, by simp [Wire.ending, after]⟩
        have beat : Beat s k' x (s.perform (.stream k' due)) := streamNext_beat here
        cases beat with
        | ends _ silent after =>
          obtain ⟨-, cut, read⟩ := cut_wire flows uncut
          rw [going, lays_here here, silent, wireOf_here after, wireOf_here here]
          exact ⟨[.finished], read, by simp [Wire.ending, cut]⟩
        | speaks chunk _ _ _ writes after => exact wrote writes after rfl
        | passes _ _ _ _ _ _ _ _ writes after => exact wrote writes after rfl
        | rests _ _ _ _ _ _ writes after => exact wrote writes after rfl
      | _ => simp [Action.serves?] at whose
  · refine still (lays_other whose) ?_
    simp only [wireOf, (perform_streams s a).2 k whose]

/-- What a client has read is what has been written. -/
theorem play_read (nobody : first.peers = []) (silent : first.streams = []) (moves : List Move)
    (k : StreamId) :
    (World.start first).shown k moves ++ (((World.start first).play moves).state.wireOf k).read =
      (streamed k ((World.start first).steps moves)).map Piece.item ++
        (((World.start first).play moves).state.wireOf k).ending := by
  induction moves using List.reverseRecOn with
  | nil =>
    simp [World.shown, World.play, Running.play, World.start, World.steps, Running.steps,
      Running.record, streamed, wireOf, silent, Wire.ending]
  | append_singleton moves v ih =>
    have reached := play_reached (World.start first) moves
    generalize form : (World.start first).play moves = w at ih reached
    rw [World.shown_append, World.play_append, World.steps_append, form]
    have shown : w.shown k [v] = w.shows k v := List.append_nil _
    have noted : w.steps [v] = w.noted v := List.append_nil _
    rw [shown, noted]
    cases v with
    | input i =>
      obtain ⟨state, -⟩ := act_fresh w i
      obtain ⟨read, ending⟩ := act_wire w.state k i
      have same : w.shows k (.input i) = World.shows ⟨w.state, []⟩ k (.input i) := by
        cases i with
        | receiveChunks k' =>
          simp only [World.shows, World.receivedChunks]
          cases w.state.streams[k]? <;> rfl
        | _ => rfl
      have after : (w.play [.input i]).state = (i.act ⟨w.state, []⟩).state := state
      rw [after, same, List.append_assoc, read, ending, ih]
      exact congrArg (fun log => (streamed k log).map _ ++ _) (List.append_nil _).symm
    | step place =>
      have none : w.shows k (.step place) = [] := rfl
      rw [none, List.append_nil]
      cases stepped : w.step? machine place with
      | none =>
        have nothing := (Running.step_eq_none_iff w place).mp stepped
        have idle : w.play [.step place] = w := by
          simp [World.play, Running.play, Running.move, stepped]
        simp only [World.noted, Running.noted, nothing, List.append_nil, idle]
        exact ih
      | some w' =>
        obtain ⟨a, todo, others, found, turn⟩ := Running.step_turn stepped
        have after : w'.state = (w.state.perform a).server := turn.state
        have there : (w.play [.step place]).state = (w.state.perform a).server := by
          simpa [World.play, Running.play, Running.move, stepped] using after
        obtain ⟨more, read, written⟩ := perform_wire (k := k)
          (reached_streamed nobody silent (reached.shuffle turn.before))
        simp only [World.noted, Running.noted, found, there]
        rw [read, ← List.append_assoc, ih, List.append_assoc, ← written, streamed_more,
          List.map_append,
          List.append_assoc]

/-! ## What is told -/

def bodyOf (read : List Item) : List Char :=
  read.flatMap fun
    | .chunk text => text.toList
    | _ => []

theorem bodyOf_written (pieces : List (Option Event)) (w : Wire) :
    bodyOf (pieces.map (fun p => .chunk (EventStream.written p)) ++ w.ending) =
      (pieces.map EventStream.written).flatMap String.toList := by
  have ended : bodyOf w.ending = [] := by
    unfold Wire.ending
    split <;> rfl
  have split : bodyOf (pieces.map (fun p => .chunk (EventStream.written p)) ++ w.ending) =
      bodyOf (pieces.map fun p => .chunk (EventStream.written p)) ++ bodyOf w.ending :=
    List.flatMap_append
  rw [split, ended, List.append_nil, bodyOf, List.flatMap_map, List.flatMap_map]

def CompleteLast (events : List Event) : Prop :=
  ∀ before after, events = before ++ .complete :: after → after = []

/-- What a stream tells: the frames that have come out of the queue of its connection, or a
refusal. -/
inductive StreamTells (s : Server) (x : Streaming) (talk : List Happening) (frames : List Frame)
    (events : List Event) : Prop where
  | served (c : ConnectionId) (connection : x.connection? = some c)
      (told : events = frames.map Event.ofFrame)
      (whole : frames ++ s.engine.queueOf c = Engine.entered c talk)
  | refused (apart : x.connection? = none) (nothing : frames = []) (errors : List ClientError)
      (more : List Event) (told : events ++ more = [.next (Outcome.errorsBody errors), .complete])
      (whole : x.wire.isCut = true → x.gone = false → more = [])

theorem Streamed.finished (known : Streamed k s x ts log) (apart : x.connection? = none)
    (cut : x.wire.isCut = true) (stays : x.gone = false) : x.pending = [] := by
  have course := known.course
  generalize chores k ts.flatten = as at course
  cases course with
  | asks _ fresh | refuses _ fresh => exact absurd apart fresh.connected
  | serves _ uncut => simp [uncut] at cut
  | ended _ why =>
    rcases why with gone | said | ⟨c, connection, -⟩
    · simp [stays] at gone
    · exact said.1
    · simp [apart] at connection

theorem Streamed.tells (known : Streamed k s x ts log) : ∃ pieces : List (Option Event),
    (streamed k log).map Piece.item = pieces.map (fun p => .chunk (EventStream.written p)) ∧
      StreamTells s x (happened (innerSteps log)) (framesOf (streamed k log))
        (pieces.filterMap id) := by
  cases known.telling with
  | frames c connection nothing plain =>
    refine ⟨(streamed k log).map fun p => p.frame?.map Event.ofFrame, ?_, ?_⟩
    · rw [List.map_map]
      refine List.map_congr_left fun p member => congrArg Item.chunk ?_
      cases p with
      | said chunk => exact absurd rfl (plain _ member chunk)
      | frame f => exact (Event.ofFrame_text f).symm
      | alive => rfl
    · refine .served c connection ?_ (known.queue c connection)
      rw [List.filterMap_map, framesOf, List.map_filterMap]
      rfl
  | refusal errors told apart form whole =>
    rw [Event.refusal_text] at whole
    obtain ⟨events, more, split, rfl, rest⟩ := List.map_eq_append_iff.mp whole.symm
    refine ⟨events.map some, ?_, ?_⟩
    · simp [form, Function.comp_def, Piece.item, Piece.text, EventStream.written]
    · have all : (events.map some).filterMap id = events := by simp
      have none : framesOf (streamed k log) = [] := by
        simp [form, framesOf, List.filterMap_map, Function.comp_def, Piece.frame?]
      rw [all]
      refine .refused apart none errors more split.symm fun cut stays => ?_
      rw [known.finished apart cut stays] at rest
      exact List.map_eq_nil_iff.mp rest

/-- Nothing is told after completion. -/
theorem reached_last {frames : List Frame} {events : List Event}
    (begun : first.engine = Engine.start setup hub) (nobody : first.peers = [])
    (silent : first.streams = []) (reached : Reached (World.start first) s ts log)
    (here : s.streams[k]? = some x)
    (tells : StreamTells s x (happened (innerSteps log)) frames events) : CompleteLast events := by
  intro before after split
  cases tells with
  | served c connection told whole =>
    obtain ⟨l, l', form, -, last⟩ := List.map_eq_append_iff.mp (told.symm.trans split)
    obtain ⟨f, rest, rfl, complete, rfl⟩ := List.map_eq_cons_iff.mp last
    have final : f.isMessage = false := by
      unfold Event.ofFrame at complete
      unfold Frame.isMessage
      cases body : f.body <;> simp [body] at complete ⊢
    rw [form, List.append_assoc, List.cons_append] at whole
    have nothing := reached_final begun nobody silent reached ⟨x, here, connection⟩ whole.symm final
    rw [(List.append_eq_nil_iff.mp nothing).1]
    rfl
  | refused _ _ errors more told =>
    rw [split, List.append_assoc, List.cons_append] at told
    cases before with
    | nil => simp at told
    | cons ev before =>
      cases before with
      | nil =>
        obtain ⟨-, nothing, -⟩ : _ ∧ after = [] ∧ more = [] := by simpa using told
        exact nothing
      | cons => simp at told

theorem dropped_ends (here : s.streams[k]? = some x) (gone : x.gone = true) (due : Nat) :
    s.ready (.stream k due) = true ∧ (s.perform (.stream k due)).next = [] ∧
      (s.perform (.stream k due)).started = x.connection?.toList.map fun c =>
        (Engine.World.release c s.engine.calls).map .engine := by
  refine ⟨by simp [ready, here, gone], ?_⟩
  have beat : Beat s k x (s.perform (.stream k due)) := streamNext_beat here
  cases beat with
  | ends _ _ _ _ _ next started => exact ⟨next, started⟩
  | speaks _ _ going | passes _ _ _ going | rests _ going => simp [gone] at going

theorem play_onward (w : World) (before later : List Move) :
    Reached (w.play before) (w.play (before ++ later)).state (w.play (before ++ later)).tasks
      ((w.play before).steps later) := by
  rw [World.play_append]
  exact play_reached (w.play before) later

/-- Whatever happens, the body of an event stream is a sequence of events and comments of which the
client is told just the events, each with its JSON as it is: the frames that have been handed over
to its connection, in their order, or why its request is refused. Completion comes last. A stream
that ends without its client having gone has told all that had been handed over while its connection
was open. One whose client has gone may end at once. When a stream is over and its release is done,
its connection is not managed any more, and its subscription is registered nowhere as soon as what
the release brings is done. -/
theorem event_streams_faithful (setup : Setup) (hub : Hub) (first : Server)
    (begun : first.engine = Engine.start setup hub) (nobody : first.peers = [])
    (silent : first.streams = []) (moves : List Move) (k : StreamId) (x : Streaming)
    (here : ((World.start first).play moves).state.streams[k]? = some x) :
    let w := World.start first
    let s := (w.play moves).state
    let pending := (w.play moves).tasks.flatten
    let read := w.shown k moves ++ x.wire.read
    (∃ (pieces : List (Option Event)) (frames : List Frame),
      read = pieces.map (fun p => .chunk (EventStream.written p)) ++ x.wire.ending ∧
      EventStream.parse (bodyOf read) = (pieces.filterMap id).map Event.told ∧
      CompleteLast (pieces.filterMap id) ∧
      StreamTells s x (happened (innerSteps (w.steps moves))) frames (pieces.filterMap id) ∧
      (x.wire.isCut = true → x.gone = false → ∀ before later c, moves = before ++ later →
        (w.play before).state.Feeds k c → (w.play before).state.engine.isClosed c = false →
        Engine.entered c (happened (innerSteps (w.steps before))) <+: frames)) ∧
    (x.wire.isCut = true ↔ ∀ b ∈ pending, b.serves? ≠ some k) ∧
    (x.gone = true → ∀ due, s.ready (.stream k due) = true ∧ (s.perform (.stream k due)).next = [] ∧
      (s.perform (.stream k due)).started = x.connection?.toList.map fun c =>
        (Engine.World.release c s.engine.calls).map .engine) ∧
    ∀ before later c, moves = before ++ later → (w.play before).state.Feeds k c →
      (∀ b ∈ pending, b.serves? ≠ some k) → .engine (.release c) ∉ pending →
      c ∉ s.engine.managed ∧ ∀ i, s.engine.Uses c i → .engine (.unsubscribe i) ∉ pending →
        s.engine.isRegistered i = false ∧
          ((∀ b, .engine (.leave b i) ∉ pending) → ∀ b, s.engine.isMember b i = false) := by
  intro w s pending read
  have reached : Reached w s (w.play moves).tasks (w.steps moves) := play_reached w moves
  have known := reached_streamed nobody silent reached x here
  obtain ⟨pieces, items, tells⟩ := known.tells
  have body : read = pieces.map (fun p => .chunk (EventStream.written p)) ++ x.wire.ending := by
    have all := play_read nobody silent moves k
    rwa [wireOf_here here, items] at all
  refine ⟨⟨pieces, _, body, ?_, reached_last begun nobody silent reached here tells, tells, ?_⟩,
    known.cut_iff, fun gone => dropped_ends here gone, ?_⟩
  · rw [body, bodyOf_written, EventStream.parse_written]
  · rintro cut stays before later c rfl feeds isOpen
    have earlier := play_reached w before
    have onward := play_onward w before later
    rw [World.steps_append]
    rcases reached_kept begun nobody silent earlier feeds onward with ⟨y, there,
      connection⟩ | vacant
    · obtain rfl := Option.some.inj (here.symm.trans there)
      exact reached_exhausted begun nobody silent earlier isOpen onward x here connection cut stays
    · have none := pristine_silent begun (earlier.trans onward) vacant.pristine
      rw [innerSteps_append, Engine.happened_append, Engine.entered_append] at none
      rw [(List.append_eq_nil_iff.mp none).1]
      exact List.nil_prefix
  · rintro before later c rfl feeds ceased released
    have earlier := play_reached w before
    have onward := play_onward w before later
    exact reached_returned begun nobody silent earlier feeds onward ceased released

def staffAsked : List Move :=
  [.input (.request ["text/event-stream"]
    ("\x7b\"query\":\"subscription \x7b employee \x7b id \x7d \x7d\"\x7d".toUTF8.toList)),
    .step 0, .step 0, .step 0, .step 0]

def staffServed : List Move :=
  let hub := ((World.start staffServer).play staffAsked).state.engine.hub
  let news : Hub :=
    match hub.provider? "p" with
    | some p => (hub.produce p "t" [123, 34, 105, 100, 34, 58, 34, 97, 34, 125]).2
    | none => hub
  staffAsked ++ ([.input (.brokers news)] ++ [0, 0, 0, 2, 3, 0, 2, 0, 2, 0].map .step ++
    [.input (.receiveChunks 0), .input (.shutdown 0)] ++
    [3, 0, 0, 0, 0, 0, 0, 0, 0, 0, 0, 0, 2, 0, 0, 0, 1, 0, 0].map .step ++
    [.input (.pass 10000)] ++ [0, 0, 0].map .step)

theorem staff_event_stream : ∃ x,
    ((World.start staffServer).play staffServed).state.streams[0]? = some x ∧ x.wire.isCut = true ∧
    EventStream.parse (bodyOf ((World.start staffServer).shown 0 staffServed ++ x.wire.read)) =
      [⟨"next", "\x7b\"data\":\x7b\"employee\":\x7b\"id\":\"a\"\x7d\x7d\x7d"⟩, ⟨"complete", ""⟩] ∧
    0 ∉ ((World.start staffServer).play staffServed).state.engine.managed ∧
    Engine.NothingLeft ((World.start staffServer).play staffServed).state.engine 0 := by
  have told : (((World.start staffServer).play staffServed).state.streams[0]?.map fun x =>
      (x.wire.isCut,
        EventStream.parse (bodyOf ((World.start staffServer).shown 0 staffServed ++ x.wire.read))))
          =
      some (true, [⟨"next", "\x7b\"data\":\x7b\"employee\":\x7b\"id\":\"a\"\x7d\x7d\x7d"⟩,
        ⟨"complete", ""⟩]) := by decide +kernel
  have idle : ((World.start staffServer).play staffServed).tasks.isEmpty = true := by decide +kernel
  have fed : ((World.start staffServer).play staffAsked).state.streams[0]?.bind
    (·.connection?) = some 0 := by
    decide +kernel
  obtain ⟨x, here, both⟩ := Option.map_eq_some_iff.mp told
  obtain ⟨cut, parsed⟩ := Prod.mk.inj both
  obtain ⟨-, ceased, -, released⟩ :=
    event_streams_faithful Engine.staffSetup Engine.staffHub staffServer
    rfl rfl rfl staffServed 0 x here
  have finished (b : Engine.Action) :
    .engine b ∉ ((World.start staffServer).play staffServed).tasks.flatten := by
    rw [List.isEmpty_iff.mp idle]
    exact List.not_mem_nil
  obtain ⟨gone, nothing⟩ :=
    released staffAsked _ 0 rfl (Option.bind_eq_some_iff.mp fed) (ceased.mp cut)
    (finished _)
  refine ⟨x, here, cut, parsed, gone, fun i y found connection => ?_⟩
  obtain ⟨unregistered, apart⟩ := nothing i ⟨y, found, connection⟩ (finished _)
  exact ⟨unregistered, apart fun b => finished _⟩

end Server

end SubscriptionGateway
