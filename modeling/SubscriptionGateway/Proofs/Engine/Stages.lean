import SubscriptionGateway.Proofs.Engine.Chains

/-!
Where the delivery of a subscription stands: it has not begun, works, hands one of its last frames
over or has come to its end. What it has said so far belongs to where it stands, and each of its own
steps takes it on to the next stand.
-/
namespace SubscriptionGateway

open Broker

inductive Ending where
  | unsubscribed
  /-- By something else, of which it is told: maybe an error, and then completion. -/
  | told (t : Termination)

namespace Ending

def termination? : Ending → Option Termination
  | .unsubscribed => none
  | .told t => some t

def stops : Ending → Bool
  | .unsubscribed => true
  | .told _ => false

end Ending

namespace Engine

def endings (s : SubscriptionId) (e : Engine) : Action → List Ending
  | .unsubscribe a => if a = s ∧ e.isRegistered s = true then [.unsubscribed] else []
  | .terminate a t => if a = s ∧ e.isRegistered s = true then [.told t] else []
  | _ => []

/-- What a delivery parts with that ends so. -/
def lastWords (x : Subscriber) : Option Termination → List (ConnectionId × Frame)
  | none => []
  | some t => (lastFrames x.clientId t).map (x.connection, ·)

variable {e e' : Engine} {a : Action} {s : SubscriptionId} {x x' : Subscriber} {c : ConnectionId}
  {isOpen isOpen' : Prop} {talk more : List Happening} {ends : List Ending} {k : Ending}
  {said : List (ConnectionId × Frame)} {chain todo rest : List Action} {l : List (List Action)}

/-! ## Where a delivery is -/

/-- Of a subscription that has been active: whether it has ended, and how, is in its record. -/
structure Begun (x : Subscriber) (ends : List Ending) : Prop where
  active : x.life.phase = .active → ends = [] ∧ x.termination? = none ∧ x.life.stopped = false
  finished : x.life.phase ≠ .active → x.life.phase = .cancelled ∧
    ∃ k, ends = [k] ∧ x.termination? = k.termination? ∧ x.life.stopped = k.stops

/-- What has been said of the last words and what is still to be said. When the connection is open
nothing of them is lost. -/
structure Parts (x : Subscriber) (isOpen : Prop) (said rest : List (ConnectionId × Frame)) :
    Prop where
  order : said <+: lastWords x x.termination?
  untold : x.termination? = none → rest = []
  whole : isOpen → x.life.phase = .cancelled ∧ said ++ rest = lastWords x x.termination?

def Action.works (s : SubscriptionId) : Action → Bool
  | .deliverNext a => a = s
  | .resolve a _ => a = s
  | .deliverOutcome a _ => a = s
  | .offer _ _ (.event a) => a = s
  | .enqueue _ _ _ (.event a) => a = s
  | _ => false

def goodbye (s : SubscriptionId) (c : ConnectionId) (rest : List Frame) : List Action :=
  rest.map (fun f => .offer c f (.ending s)) ++ [.endDelivery s]

inductive Stage (s : SubscriptionId) (x : Subscriber) (isOpen : Prop)
    (said : List (ConnectionId × Frame)) (ends : List Ending) : List (List Action) → Prop where
  /-- It has not been registered, or was refused. -/
  | before (idle : x.life.phase ≠ .active)
      (fresh : x.life.phase = .pending → x.life.stopped = false)
      (unended : x.termination? = none) (ready : x.delivering = true) (mute : said = [])
      (none : ends = []) : Stage s x isOpen said ends []
  | works (a : Action) (ongoing : a.works s = true) (begun : Begun x ends) (mute : said = []) :
      Stage s x isOpen said ends [[a]]
  | closes (rest : List Frame) (begun : Begun x ends)
      (parts : Parts x isOpen said (rest.map (x.connection, ·))) :
      Stage s x isOpen said ends [goodbye s x.connection rest]
  | hands (f : Frame) (due : Nat) (rest : List Frame) (begun : Begun x ends)
      (parts : Parts x isOpen said ((f :: rest).map (x.connection, ·)))
      (here : said ++ [(x.connection, f)] <+: lastWords x x.termination?) :
      Stage s x isOpen said ends
        [.enqueue x.connection f due (.ending s) :: goodbye s x.connection rest]
  | finished (stopped : x.delivering = false) (begun : Begun x ends)
      (parts : Parts x isOpen said []) :
      Stage s x isOpen said ends []

theorem Stage.few (stage : Stage s x isOpen said ends l) : l.length ≤ 1 := by
  cases stage <;> simp

theorem lastWords_alike (alike : x.SameButInbox x') (t? : Option Termination) :
    lastWords x' t? = lastWords x t? := by
  cases t? <;> simp [lastWords, alike.clientId, alike.connection]

theorem Begun.alike (alike : x.SameButInbox x') (begun : Begun x ends) : Begun x' ends := by
  refine ⟨fun active => ?_, fun finished => ?_⟩
  · rw [alike.life] at active
    rw [alike.termination, alike.life]
    exact begun.active active
  · rw [alike.life] at finished
    rw [alike.termination, alike.life]
    exact begun.finished finished

theorem Parts.alike {rest : List (ConnectionId × Frame)} (alike : x.SameButInbox x')
    (opens : isOpen' → isOpen) (parts : Parts x isOpen said rest) : Parts x' isOpen' said rest := by
  refine ⟨?_, ?_, fun here => ?_⟩
  · rw [alike.termination, lastWords_alike alike]
    exact parts.order
  · rw [alike.termination]
    exact parts.untold
  · rw [alike.termination, lastWords_alike alike, alike.life]
    exact parts.whole (opens here)

theorem Stage.alike (alike : x.SameButInbox x') (opens : isOpen' → isOpen)
    (stage : Stage s x isOpen said ends l) : Stage s x' isOpen' said ends l := by
  cases stage with
  | before idle fresh unended ready mute none =>
    exact .before (alike.life ▸ idle) (alike.life ▸ fresh) (alike.termination.trans unended)
      (alike.delivering.trans ready) mute none
  | works a ongoing begun mute => exact .works a ongoing (begun.alike alike) mute
  | closes rest begun parts =>
    have parts := parts.alike alike opens
    rw [← alike.connection] at parts ⊢
    exact .closes rest (begun.alike alike) parts
  | hands f due rest begun parts here =>
    have parts := parts.alike alike opens
    rw [← lastWords_alike alike, ← alike.termination] at here
    rw [← alike.connection] at parts here ⊢
    exact .hands f due rest (begun.alike alike) parts here
  | finished stopped begun parts =>
    exact .finished (alike.delivering.trans stopped) (begun.alike alike) (parts.alike alike opens)

/-- An end comes to whoever has been active; its delivery works, or its connection is closed. -/
theorem Stage.ended (stage : Stage s x isOpen said ends l) (active : x.life.phase = .active)
    (k : Ending) (phase : x'.life.phase = .cancelled) (stopped : x'.life.stopped = k.stops)
    (termination : x'.termination? = k.termination?) (connection : x'.connection = x.connection)
    (delivering : x'.delivering = x.delivering) :
    ends = [] ∧ Stage s x' isOpen said [k] l := by
  have begun : Begun x' [k] := by
    refine ⟨fun still => ?_, fun _ => ⟨phase, k, rfl, termination, stopped⟩⟩
    simp [phase] at still
  have parting {rest : List (ConnectionId × Frame)} (unended : x.termination? = none)
      (parts : Parts x isOpen said rest) : rest = [] ∧ Parts x' isOpen said [] := by
    have nothing : said = [] := by
      have order := parts.order
      rw [unended] at order
      exact List.prefix_nil.mp order
    refine ⟨parts.untold unended, ?_, fun _ => rfl, fun here => ?_⟩
    · rw [nothing]
      exact List.nil_prefix
    · have past := (parts.whole here).1
      simp [active] at past
  cases stage with
  | before idle => exact absurd active idle
  | works a ongoing begun' mute => exact ⟨(begun'.active active).1, .works a ongoing begun mute⟩
  | closes rest begun' parts =>
    obtain ⟨none, unended, -⟩ := begun'.active active
    obtain ⟨nothing, parting⟩ := parting unended parts
    obtain rfl : rest = [] := by simpa using nothing
    rw [← connection]
    exact ⟨none, .closes [] begun parting⟩
  | hands f due rest begun' parts here =>
    obtain ⟨-, unended, -⟩ := begun'.active active
    simpa using parts.untold unended
  | finished halted begun' parts =>
    obtain ⟨none, unended, -⟩ := begun'.active active
    exact ⟨none, .finished (delivering.trans halted) begun (parting unended parts).2⟩

/-- How a delivery stands to what it has said. -/
structure Part (s : SubscriptionId) (x : Subscriber) (isOpen : Prop) (talk : List Happening)
    (ends : List Ending) (l : List (List Action)) : Prop where
  starved : x.fed = false → x.life.phase = .cancelled
  stage : Stage s x isOpen (parted s talk) ends l
  order : spoken s talk = answered s talk ++ parted s talk
  answers : ∀ m ∈ answered s talk, m.1 = x.connection ∧ m.2.isMessage = true

theorem Part.talked (silent : Silent s more) (part : Part s x isOpen talk ends l) :
    Part s x isOpen (talk ++ more) ends l := by
  have said : parted s (talk ++ more) = parted s talk := by
    rw [parted_append, silent.parted, List.append_nil]
  have replied : answered s (talk ++ more) = answered s talk := by
    rw [answered_append, silent.answered, List.append_nil]
  refine ⟨part.starved, said ▸ part.stage, ?_, replied ▸ part.answers⟩
  rw [spoken_append, silent.spoken, List.append_nil, said, replied, part.order]

theorem Part.staged {l' : List (List Action)} (part : Part s x isOpen talk ends l)
    (stage : Stage s x' isOpen' (parted s talk) ends l') (connection : x'.connection = x.connection)
    (starved : x'.fed = false → x'.life.phase = .cancelled) : Part s x' isOpen' talk ends l' :=
  ⟨starved, stage, part.order, connection ▸ part.answers⟩

theorem Part.alike (part : Part s x isOpen talk ends l) (alike : x.SameButInbox x')
    (fed : x'.fed = x.fed ∨ x.life.phase = .cancelled) (opens : isOpen' → isOpen) :
    Part s x' isOpen' talk ends l := by
  refine part.staged (part.stage.alike alike opens) alike.connection fun starved => ?_
  rw [alike.life]
  rcases fed with same | finished
  · exact part.starved (same ▸ starved)
  · exact finished

/-! ## A delivery goes on -/

/-- Where an effect has taken a delivery whose task had still to do `todo`. -/
def Goes (s : SubscriptionId) (f : Effect) (todo : List Action) (talk : List Happening)
    (ends : List Ending) : Prop :=
  ∃ x, f.engine.subscribers[s]? = some x ∧
    Part s x (f.engine.isClosed x.connection = false) talk ends (link (own s f.next ++ todo))

theorem own_single (mine : a.delivers? = some s) : own s [a] = [a] := by
  simp [own, mine]

theorem own_goodbye (s : SubscriptionId) (c : ConnectionId) (rest : List Frame) :
    own s (goodbye s c rest) = goodbye s c rest := by
  refine List.filter_eq_self.mpr fun a member => ?_
  simp only [goodbye, List.mem_append, List.mem_map, List.mem_singleton] at member
  rcases member with ⟨f, -, rfl⟩ | rfl <;> simp [Action.delivers?]

theorem link_goodbye (s : SubscriptionId) (c : ConnectionId) (rest : List Frame) :
    link (goodbye s c rest) = [goodbye s c rest] := by
  cases rest <;> rfl

theorem works_mine (ongoing : a.works s = true) : a.delivers? = some s := by
  cases a with
  | offer c f r | enqueue c f due r => cases r <;> simp_all [Action.works, Action.delivers?]
  | _ => simp_all [Action.works, Action.delivers?]

theorem goes_working {f : Effect} {b : Action} (found : f.engine.subscribers[s]? = some x)
    (next : f.next = [b]) (ongoing : b.works s = true) (begun : Begun x ends)
    (mute : parted s talk = []) (part : Part s x isOpen talk ends l) : Goes s f [] talk ends := by
  refine ⟨x, found, part.staged ?_ rfl part.starved⟩
  rw [next, own_single (works_mine ongoing)]
  exact .works b ongoing begun mute

theorem goes_closing {f : Effect} (last : List Frame) (found : f.engine.subscribers[s]? = some x)
    (next : f.next = goodbye s x.connection last) (begun : Begun x ends)
    (mute : parted s talk = [])
    (untold : x.termination? = none → last = [])
    (whole : f.engine.isClosed x.connection = false → x.life.phase = .cancelled ∧
      last.map (x.connection, ·) = lastWords x x.termination?)
    (part : Part s x isOpen talk ends l) : Goes s f [] talk ends := by
  refine ⟨x, found, part.staged ?_ rfl part.starved⟩
  rw [next, own_goodbye, List.append_nil, link_goodbye]
  refine .closes last begun ⟨?_, fun none => by simp [untold none], fun here => ?_⟩
  · rw [mute]
    exact List.nil_prefix
  · rw [mute]
    exact whole here

theorem deliverNext_goes (found : e.subscribers[s]? = some x) (begun : Begun x ends)
    (mute : parted s talk = []) (part : Part s x isOpen talk ends l) :
    Goes s (e.perform (.deliverNext s)) [] talk ends := by
  have ended (idle : x.life.phase ≠ .active) := begun.finished idle
  simp only [perform, deliverNext, found]
  split
  · rename_i stopped
    have idle : x.life.phase ≠ .active := fun active => by
      simp [(begun.active active).2.2] at stopped
    obtain ⟨finished, k, -, termination, stops⟩ := ended idle
    have untold : x.termination? = none := by
      rw [termination]
      cases k with
      | unsubscribed => rfl
      | told => simp [Ending.stops, stopped] at stops
    exact goes_closing [] found rfl begun mute (fun _ => rfl)
      (fun _ => ⟨finished, by rw [untold]; rfl⟩) part
  rename_i running
  split
  · rename_i t told
    have idle : x.life.phase ≠ .active := fun active => by
      simp [(begun.active active).2.1] at told
    refine goes_closing (lastFrames x.clientId t) found rfl begun mute (fun none => ?_)
      (fun _ => ⟨(ended idle).1, ?_⟩) part
    · simp [told] at none
    · rw [told]
      rfl
  rename_i untold
  split
  · rename_i event later inbox
    have popped : (e.updateSubscriber s fun x => { x with inbox := later }).subscribers[s]? =
        some { x with inbox := later } := by simp [updateSubscriber, found]
    have alike : x.SameButInbox { x with inbox := later } := ⟨rfl, rfl, rfl, rfl, rfl⟩
    have begun := begun.alike alike
    have part := part.alike alike (.inl rfl) id
    split
    · exact goes_working popped rfl (by simp [Action.works]) begun mute part
    · exact goes_working popped rfl (by simp [Action.works]) begun mute part
  · split
    · exact goes_working found rfl (by simp [Action.works]) begun mute part
    · rename_i starved
      -- An inbox is given up only after the end, which would have been seen first.
      have finished := part.starved (by simpa using starved)
      obtain ⟨-, k, -, termination, stops⟩ := ended (by simp [finished])
      cases k with
      | unsubscribed => simp [Ending.stops, stops] at running
      | told t => simp [untold, Ending.termination?] at termination

theorem resolve_goes {event : BrokerEvent} (found : e.subscribers[s]? = some x)
    (begun : Begun x ends) (mute : parted s talk = []) (part : Part s x isOpen talk ends l) :
    Goes s (e.perform (.resolve s event)) [] talk ends :=
  goes_working found rfl (by simp [Action.works]) begun mute part

theorem deliverOutcome_goes {r : ResolutionId} {y : Resolving} (found : e.subscribers[s]? = some x)
    (resolving : e.resolutions[r]? = some y) (begun : Begun x ends) (mute : parted s talk = [])
    (part : Part s x isOpen talk ends l) :
    Goes s (e.perform (.deliverOutcome s r)) [] talk ends := by
  simp only [perform, deliverOutcome, found, resolving]
  split
  · exact goes_working found rfl (by simp [Action.works]) begun mute part
  · exact goes_working found rfl (by simp [Action.works]) begun mute part

theorem goes_silent {f : Effect} (found : f.engine.subscribers[s]? = some x)
    (next : f.next = [.endDelivery s]) (begun : Begun x ends) (mute : parted s talk = [])
    (closed : f.engine.isClosed x.connection = true) (part : Part s x isOpen talk ends l) :
    Goes s f [] talk ends :=
  goes_closing [] found next begun mute (fun _ => rfl)
    (fun here => by simp [closed] at here) part

theorem offer_goes {f : Frame} (found : e.subscribers[s]? = some x) (begun : Begun x ends)
    (mute : parted s talk = []) (part : Part s x isOpen talk ends l) :
    Goes s (e.perform (.offer x.connection f (.event s))) [] talk ends := by
  simp only [perform, offer]
  split
  · rename_i closed
    exact goes_silent found rfl begun mute closed part
  · exact goes_working found rfl (by simp [Action.works]) begun mute part

theorem receipt_isClosed (e : Engine) (result : Except Fault Unit) (r : Receipt)
    (c : ConnectionId) :
    (e.receipt result r).engine.isClosed c = e.isClosed c := by
  simp only [isClosed, receipt_connections]

theorem enqueue_closes {f : Frame} {r : Receipt} (refused : e.takes c = false) :
    (e.enqueue c f r).engine.isClosed c = true := by
  cases read : e.connections[c]? with
  | none =>
    simp only [enqueue, read]
    rw [receipt_isClosed]
    simp [isClosed, read]
  | some z =>
    have gone (result : Except Fault Unit) :
        ((e.closeConnection c).2.receipt result r).engine.isClosed c = true := by
      rw [receipt_isClosed, closeConnection_closed]
    cases reads : z.read with
    | false => simp [enqueue, read, reads, gone]
    | true =>
      have room : e.hasRoom z = false := by simpa [takes, read, reads] using refused
      simp [enqueue, read, reads, room, gone]

theorem happenings_taken {f : Frame} {due : Nat} {r : Receipt} (takes : e.takes c = true) :
    e.happenings (.enqueue c f due r) = [.queued c f r] := by simp [happenings, takes]

theorem happenings_refused {f : Frame} {due : Nat} {r : Receipt} (refused : e.takes c = false) :
    e.happenings (.enqueue c f due r) = [] := by simp [happenings, refused]

theorem enqueue_found {f : Frame} {r : Receipt} (due : Nat) (found : e.subscribers[s]? = some x) :
    (e.perform (.enqueue c f due r)).engine.subscribers[s]? = some x :=
  (congrArg (·[s]?) (enqueue_subscribers e c f r)).trans found

theorem enqueue_goes {f : Frame} {due : Nat} (found : e.subscribers[s]? = some x)
    (message : f.isMessage = true) (begun : Begun x ends) (mute : parted s talk = [])
    (part : Part s x isOpen talk ends l) :
    Goes s (e.perform (.enqueue x.connection f due (.event s))) []
      (talk ++ e.happenings (.enqueue x.connection f due (.event s))) ends := by
  have found' := enqueue_found (f := f) (c := x.connection) (r := .event s) due found
  cases takes : e.takes x.connection with
  | true =>
    rw [happenings_taken takes]
    obtain ⟨e', same, -⟩ := enqueue_taken (f := f) (r := .event s) takes
    have still : parted s (talk ++ [.queued x.connection f (.event s)]) = [] := by
      rw [parted_append, mute]
      rfl
    have spoke : Part s x isOpen (talk ++ [.queued x.connection f (.event s)]) ends l := by
      have said : parted s (talk ++ [.queued x.connection f (.event s)]) = parted s talk := by
        rw [still, mute]
      refine ⟨part.starved, said ▸ part.stage, ?_, fun m member => ?_⟩
      · rw [still, spoken_append, answered_append, part.order, mute]
        simp [spoken, answered]
      · rw [answered_append] at member
        rcases List.mem_append.mp member with old | new
        · exact part.answers m old
        · obtain rfl : m = (x.connection, f) := by simpa [answered] using new
          exact ⟨rfl, message⟩
    have next : (e.perform (.enqueue x.connection f due (.event s))).next = [.deliverNext s] := by
      simp only [perform, same]
      rfl
    exact goes_working found' next (by simp [Action.works]) begun still spoke
  | false =>
    rw [happenings_refused takes, List.append_nil]
    obtain ⟨e', fault, same, -⟩ := enqueue_refused (f := f) (r := .event s) takes
    have next : (e.perform (.enqueue x.connection f due (.event s))).next = [.endDelivery s] := by
      simp only [perform, same]
      rfl
    exact goes_silent found' next begun mute (enqueue_closes takes) part

/-! ## The last words -/

theorem goodbye_offer_goes {f : Frame} {last : List Frame} (found : e.subscribers[s]? = some x)
    (begun : Begun x ends)
    (parts : Parts x (e.isClosed x.connection = false) (parted s talk)
      ((f :: last).map (x.connection, ·))) (part : Part s x isOpen talk ends l) :
    Goes s (e.perform (.offer x.connection f (.ending s))) (goodbye s x.connection last)
      talk ends := by
  have told : x.termination? ≠ none := fun none => by simpa using parts.untold none
  simp only [perform, offer]
  split
  · rename_i closed
    refine ⟨x, found, part.staged ?_ rfl part.starved⟩
    have left : link (own s [] ++ goodbye s x.connection last) = [goodbye s x.connection last] :=
      link_goodbye s x.connection last
    refine left ▸ .closes last begun ⟨parts.order, fun none => absurd none told, fun here => ?_⟩
    have gone : e.isClosed x.connection = false := here
    simp [gone] at closed
  · rename_i connected
    have here : e.isClosed x.connection = false := by simpa using connected
    refine ⟨x, found, part.staged ?_ rfl part.starved⟩
    have mine : own s [Action.enqueue x.connection f (e.now + e.setup.graceMs) (.ending s)] =
        [.enqueue x.connection f (e.now + e.setup.graceMs) (.ending s)] :=
      own_single (by simp [Action.delivers?])
    rw [mine]
    refine .hands f _ last begun parts ?_
    rw [← (parts.whole here).2, List.map_cons]
    exact ⟨last.map (x.connection, ·), by simp⟩

theorem goodbye_enqueue_goes {f : Frame} {due : Nat} {last : List Frame}
    (found : e.subscribers[s]? = some x) (begun : Begun x ends)
    (parts : Parts x (e.isClosed x.connection = false) (parted s talk)
      ((f :: last).map (x.connection, ·)))
    (here : parted s talk ++ [(x.connection, f)] <+: lastWords x x.termination?)
    (part : Part s x isOpen talk ends l) :
    Goes s (e.perform (.enqueue x.connection f due (.ending s))) (goodbye s x.connection last)
      (talk ++ e.happenings (.enqueue x.connection f due (.ending s))) ends := by
  have found' := enqueue_found (f := f) (c := x.connection) (r := .ending s) due found
  have told : x.termination? ≠ none := fun none => by simpa using parts.untold none
  have left : link (own s [] ++ goodbye s x.connection last) = [goodbye s x.connection last] :=
    link_goodbye s x.connection last
  cases takes : e.takes x.connection with
  | true =>
    rw [happenings_taken takes]
    obtain ⟨e', same, -⟩ := enqueue_taken (f := f) (r := .ending s) takes
    have next : (e.perform (.enqueue x.connection f due (.ending s))).next = [] := by
      simp only [perform, same]
      rfl
    have said : parted s (talk ++ [.queued x.connection f (.ending s)]) =
        parted s talk ++ [(x.connection, f)] := by
      rw [parted_append]
      simp [parted]
    have replied : answered s (talk ++ [.queued x.connection f (.ending s)]) = answered s talk := by
      rw [answered_append]
      simp [answered]
    refine ⟨x, found', part.starved, ?_, ?_, replied ▸ part.answers⟩
    · rw [next, said]
      refine left ▸ .closes last begun ⟨here, fun none => absurd none told, fun isOpen => ?_⟩
      have before := perform_closed e (.enqueue x.connection f due (.ending s)) isOpen
      obtain ⟨finished, whole⟩ := parts.whole before
      exact ⟨finished, by rw [← whole]; simp⟩
    · rw [said, replied, spoken_append, part.order, List.append_assoc]
      simp [spoken]
  | false =>
    rw [happenings_refused takes, List.append_nil]
    obtain ⟨e', fault, same, -⟩ := enqueue_refused (f := f) (r := .ending s) takes
    have next : (e.perform (.enqueue x.connection f due (.ending s))).next = [] := by
      simp only [perform, same]
      rfl
    have closed : (e.perform (.enqueue x.connection f due (.ending s))).engine.isClosed
        x.connection = true := enqueue_closes takes
    refine ⟨x, found', part.staged ?_ rfl part.starved⟩
    rw [next]
    refine left ▸ .closes last begun ⟨parts.order, fun none => absurd none told, fun isOpen => ?_⟩
    simp [closed] at isOpen

theorem endDelivery_goes (found : e.subscribers[s]? = some x) (begun : Begun x ends)
    (parts : Parts x (e.isClosed x.connection = false) (parted s talk) [])
    (part : Part s x isOpen talk ends l) :
    Goes s (e.perform (.endDelivery s)) [] talk ends := by
  have closed : (e.perform (.endDelivery s)).engine.isClosed x.connection =
      e.isClosed x.connection := by
    simp [perform, endDelivery, found, isClosed, updateSubscriber, doneWith]
  refine ⟨_, endDelivery_record found, part.staged ?_ rfl part.starved⟩
  refine .finished rfl ⟨begun.active, begun.finished⟩ ⟨parts.order, parts.untold, fun here => ?_⟩
  exact parts.whole (closed ▸ here)

theorem answer_frame {t : Stand} {c : ConnectionId} {f : Frame}
    (story : Story s e (a :: rest) talk x)
    (stand : a.stand? s = some t) (form : t = .offer c f ∨ t = .enqueue c f) :
    c = x.connection ∧ f.isMessage = true := by
  have ongoing : t ≠ .done := by rcases form with rfl | rfl <;> simp
  obtain ⟨-, ahead, -, here⟩ := story.unfinished stand ongoing
  obtain ⟨event, frame⟩ : ∃ event, (c, f) = answerFrame e.setup x event := by
    rcases form with rfl | rfl
    · obtain ⟨event, frame, -⟩ := here
      exact ⟨event, frame⟩
    · obtain ⟨event, later, frame, -⟩ := here
      exact ⟨event, frame⟩
  obtain ⟨rfl, rfl⟩ : c = x.connection ∧ f = .ofOutcome x.clientId (answer e.setup x event) := by
    simpa [answerFrame] using frame
  refine ⟨rfl, ?_⟩
  cases answer e.setup x event <;> rfl

theorem works_goes (ongoing : a.works s = true) (found : e.subscribers[s]? = some x)
    (story : Story s e (a :: rest) talk x) (begun : Begun x ends) (mute : parted s talk = [])
    (part : Part s x isOpen talk ends l) :
    Goes s (e.perform a) [] (talk ++ e.happenings a) ends := by
  have quiet (none : e.happenings a = []) (goes : Goes s (e.perform a) [] talk ends) :
      Goes s (e.perform a) [] (talk ++ e.happenings a) ends := by
    rw [none, List.append_nil]
    exact goes
  cases a with
  | deliverNext s' =>
    obtain rfl : s' = s := by simpa [Action.works] using ongoing
    exact quiet rfl (deliverNext_goes found begun mute part)
  | resolve s' event =>
    obtain rfl : s' = s := by simpa [Action.works] using ongoing
    exact quiet rfl (resolve_goes found begun mute part)
  | deliverOutcome s' r =>
    obtain rfl : s' = s := by simpa [Action.works] using ongoing
    have stand : (Action.deliverOutcome s' r).stand? s' = some (.outcome r) := by
      simp [Action.stand?]
    obtain ⟨-, ahead, -, y, resolving, -, -⟩ := story.unfinished stand (by simp)
    exact quiet rfl (deliverOutcome_goes found resolving begun mute part)
  | offer c f r =>
    cases r with
    | event s' =>
      obtain rfl : s' = s := by simpa [Action.works] using ongoing
      obtain ⟨rfl, -⟩ := answer_frame story (t := .offer c f) (by simp [Action.stand?]) (.inl rfl)
      exact quiet rfl (offer_goes found begun mute part)
    | ending | call => simp [Action.works] at ongoing
  | enqueue c f due r =>
    cases r with
    | event s' =>
      obtain rfl : s' = s := by simpa [Action.works] using ongoing
      obtain ⟨rfl, message⟩ := answer_frame story (t := .enqueue c f) (by simp [Action.stand?])
        (.inr rfl)
      exact enqueue_goes found message begun mute part
    | ending | call => simp [Action.works] at ongoing
  | _ => simp [Action.works] at ongoing

theorem mine_goes (found : e.subscribers[s]? = some x) (story : Story s e (a :: rest) talk x)
    (part : Part s x (e.isClosed x.connection = false) talk ends [a :: todo]) :
    Goes s (e.perform a) todo (talk ++ e.happenings a) ends := by
  have stage := part.stage
  generalize whole : [a :: todo] = l at stage
  cases stage with
  | before | finished => simp at whole
  | works b ongoing begun mute =>
    obtain ⟨rfl, rfl⟩ : a = b ∧ todo = [] := by simpa using whole
    exact works_goes ongoing found story begun mute part
  | closes last begun parts =>
    cases last with
    | nil =>
      obtain ⟨rfl, rfl⟩ : a = .endDelivery s ∧ todo = [] := by simpa [goodbye] using whole
      rw [show e.happenings (.endDelivery s) = [] from rfl, List.append_nil]
      exact endDelivery_goes found begun parts part
    | cons f last =>
      obtain ⟨rfl, rfl⟩ : a = .offer x.connection f (.ending s) ∧
          todo = goodbye s x.connection last := by
        simpa [goodbye] using whole
      rw [show e.happenings (.offer x.connection f (.ending s)) = [] from rfl, List.append_nil]
      exact goodbye_offer_goes found begun parts part
  | hands f due last begun parts here =>
    obtain ⟨rfl, rfl⟩ : a = .enqueue x.connection f due (.ending s) ∧
        todo = goodbye s x.connection last := by simpa using whole
    exact goodbye_enqueue_goes found begun parts here part

end Engine

end SubscriptionGateway
