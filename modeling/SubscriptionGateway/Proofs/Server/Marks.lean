import SubscriptionGateway.Proofs.Server.Clients

/-!
What is written on a client's socket, and what becomes of the marks on the client's record. Only its
reader greets a client, only its writer and its reader write for it, and a mark that a client
closes, has gone or has been left is never taken back.
-/
namespace SubscriptionGateway

namespace WebSocket

def Reaction.isGreeting : Reaction → Bool
  | .acknowledge _ => true
  | _ => false

end WebSocket

namespace Server

open WebSocket

/-! ## Wires -/

namespace Wire

/-- What a client has read and not shown, and what it is to read, but for ends of the stream. -/
def items (w : Wire) : List Item := (w.read ++ w.frames.map Item.asRead).filter (!·.isFinished)

variable {w : Wire}

theorem complete_frames (sent : Nat) (l : List Item) :
    (complete sent l).1 ++ (complete sent l).2.1 = l := by
  induction l generalizing sent with
  | nil => rfl
  | cons i rest ih =>
    simp only [complete]
    split
    · simp [ih]
    · rfl

theorem readItem_read (w : Wire) (i : Item) :
    (w.readItem i).frames = w.frames ∧ (w.readItem i).read.Sublist (w.read ++ [i.asRead]) := by
  simp only [readItem]
  split
  · exact ⟨rfl, List.sublist_append_left ..⟩
  · exact ⟨rfl, List.Sublist.refl _⟩

theorem readAll_read (whole : List Item) (w : Wire) : (whole.foldl readItem w).frames = w.frames ∧
    (whole.foldl readItem w).read.Sublist (w.read ++ whole.map Item.asRead) := by
  induction whole generalizing w with
  | nil => exact ⟨rfl, List.sublist_append_left ..⟩
  | cons i whole ih =>
    obtain ⟨frames, read⟩ := readItem_read w i
    obtain ⟨frames', read'⟩ := ih (w.readItem i)
    refine ⟨frames'.trans frames, read'.trans ?_⟩
    simpa using read.append_right (whole.map Item.asRead)

theorem items_sublist {w' : Wire} (sublist : (w'.read ++ w'.frames.map Item.asRead).Sublist
    (w.read ++ w.frames.map Item.asRead)) : w'.items.Sublist w.items := sublist.filter _

theorem readItem_finished (w : Wire) : (w.readItem .finished).items.Sublist w.items := by
  simp only [readItem]
  split
  · exact List.Sublist.refl _
  · simp [items, Item.asRead, Item.isFinished]

theorem deliver_items (w : Wire) : w.deliver.items.Sublist w.items := by
  simp only [deliver]
  split
  · exact List.Sublist.refl _
  have delivered (n : Nat) : ((complete w.sent w.frames).1.foldl readItem
      { w with frames := (complete w.sent w.frames).2.1, sent := n, taken := n }).items.Sublist
        w.items := by
    obtain ⟨frames, read⟩ := readAll_read (complete w.sent w.frames).1
      { w with frames := (complete w.sent w.frames).2.1, sent := n, taken := n }
    refine items_sublist ?_
    have whole := complete_frames w.sent w.frames
    rw [frames, ← whole, List.map_append, ← List.append_assoc, whole]
    exact read.append_right _
  split
  · exact (readItem_finished _).trans (delivered _)
  · exact delivered _

theorem push_items (w : Wire) (i : Item) :
    (w.push i).items = w.items ++ [i.asRead].filter (!·.isFinished) := by
  simp only [items, push, List.map_append, List.filter_append, List.append_assoc]
  rfl

theorem send_items (w : Wire) : w.send.items.Sublist w.items := deliver_items _

theorem flush_items (w : Wire) : w.flush.items.Sublist w.items := by
  simp only [flush]
  split
  · exact send_items w
  · exact deliver_items _

theorem cut_items (w : Wire) : w.cut.items.Sublist w.items := deliver_items _

theorem resume_items (w : Wire) : w.resume.items.Sublist w.items := deliver_items _

theorem take_items (w : Wire) : w.take.2.items.Sublist w.items :=
  items_sublist (List.sublist_append_right w.read _)

end Wire

/-! ## Records -/

namespace Peer

def farewell (p : Peer) : List Item := if p.hasClosed then [] else [.close none]

def answer (p : Peer) (payload : List UInt8) : List Item :=
  if p.hasClosed then [] else [.pong payload]

def pongs (p : Peer) : Incoming → List Item
  | .ping payload => if Item.controlLimit < payload.length then [] else p.answer payload
  | _ => []

def lastly (p : Peer) : List Item := if p.closing && !p.wire.isFlushed then p.farewell else []

def stuck (p : Peer) : Bool := p.broken || p.ended

def marks (p : Peer) :
    (Option ConnectionId × Protocol) × Bool × Bool × Bool × Bool × Bool :=
  ((p.connection?, p.protocol), p.acknowledged, p.closing, p.gone, p.ended, p.hasClosed)

structure Touched (greets : Bool) (writes : List Item) (p p' : Peer) : Prop where
  connection : p'.connection? = p.connection?
  protocol : p'.protocol = p.protocol
  greeted : p'.acknowledged = (p.acknowledged || greets)
  closing : p.closing = true → p'.closing = true
  gone : p.gone = true → p'.gone = true
  ended : p.ended = true → p'.ended = true
  closed : p'.hasClosed = (p.hasClosed || writes.any Item.isClose)
  wire : p'.wire.items.Sublist (p.wire.items ++ (writes.map Item.asRead).filter (!·.isFinished))

variable {p p' p'' : Peer} {g : Bool} {ws more : List Item}

theorem touched_refl (p : Peer) : Touched false [] p p where
  connection := rfl
  protocol := rfl
  greeted := (Bool.or_false _).symm
  closing := id
  gone := id
  ended := id
  closed := (Bool.or_false _).symm
  wire := by simp

theorem Touched.trans {g' : Bool} (first : Touched g ws p p') (second : Touched g' more p' p'') :
    Touched (g || g') (ws ++ more) p p'' where
  connection := second.connection.trans first.connection
  protocol := second.protocol.trans first.protocol
  greeted := by rw [second.greeted, first.greeted, Bool.or_assoc]
  closing closing := second.closing (first.closing closing)
  gone gone := second.gone (first.gone gone)
  ended ended := second.ended (first.ended ended)
  closed := by rw [second.closed, first.closed, List.any_append, Bool.or_assoc]
  wire := by
    rw [List.map_append, List.filter_append, ← List.append_assoc]
    exact second.wire.trans (first.wire.append_right _)

theorem Touched.unstuck (touched : Touched g ws p p') (going : p'.stuck = false) :
    p.stuck = false := by
  simp only [stuck, broken, ← Bool.not_eq_true] at going ⊢
  refine fun halted => going ?_
  simp only [Bool.or_eq_true] at halted ⊢
  exact halted.imp (Or.imp touched.closing touched.gone) touched.ended

theorem Touched.quiet (first : Touched g ws p p') (second : Touched false [] p' p'') :
    Touched g ws p p'' := by
  simpa using first.trans second

theorem touched_still (same : p'.marks = p.marks)
    (wire : p'.wire.items.Sublist p.wire.items) : Touched false [] p p' := by
  simp only [marks, Prod.mk.injEq] at same
  obtain ⟨⟨connection, protocol⟩, greeted, closing, gone, ended, closed⟩ := same
  exact ⟨connection, protocol, by
    rw [greeted, Bool.or_false], closing.trans, gone.trans, ended.trans,
    by rw [closed, List.any_nil, Bool.or_false], by simpa using wire⟩

theorem onWire_touched (p : Peer) {f : Wire → Wire} (less : (f p.wire).items.Sublist p.wire.items) :
    Touched false [] p (p.onWire f) := touched_still rfl less

theorem push_touched (p : Peer) (i : Item) : Touched false [i] p (p.push i) where
  connection := rfl
  protocol := rfl
  greeted := (Bool.or_false _).symm
  closing := id
  gone := id
  ended := id
  closed := by simp [push]
  wire := by
    simp only [push, Wire.push_items]
    exact List.Sublist.refl _

theorem pushClose_touched (p : Peer) : Touched false p.farewell p p.pushClose := by
  simp only [pushClose, farewell]
  split
  · exact touched_refl p
  · exact push_touched p _

theorem answerPing_touched (p : Peer) (payload : List UInt8) :
    Touched false (p.answer payload) p (p.answerPing payload) := by
  simp only [answerPing, answer]
  split
  · exact touched_refl p
  · exact (push_touched p _).quiet (onWire_touched _ (Wire.send_items _))

theorem flush_touched (p : Peer) : Touched false p.lastly p p.flush := by
  simp only [flush, lastly]
  split
  · exact (pushClose_touched p).quiet (onWire_touched _ (Wire.flush_items _))
  · exact onWire_touched p (Wire.flush_items _)

end Peer

/-! ## What is written -/

def own (s : Server) (k k' : PeerId) (f : Peer → List Item) : List Item :=
  if k' = k then
    match s.peers[k]? with
    | some p => f p
    | none => []
  else []

def writes (s : Server) (k : PeerId) : Action → List Item
  | .read k' since before _ => s.own k k' fun p =>
    match p.connection?, s.look p since before with
    | some _, some (.item i) => p.pongs i
    | _, _ => []
  | .write k' i => s.own k k' fun p => if p.ended || p.broken then [] else [i]
  | .writeClose k' | .writeCloseBlocked k' => s.own k k' fun p =>
    if p.ended || p.gone then [] else p.farewell
  | .flush k' _ _ => s.own k k' fun p =>
    if p.ended || p.gone || !p.canFlush then [] else p.lastly
  | .readBlocked k' => s.own k k' fun p => p.incoming.head?.elim [] p.pongs
  | .writeBlocked k' i => s.own k k' fun p => if p.broken then [] else [i]
  | .flushBlocked k' => s.own k k' fun p => if p.gone then [] else p.lastly
  | _ => []

def greetsFor (s : Server) (p : Peer) (c : ConnectionId) : Incoming → Bool
  | .text t => (Session.onText p.protocol p.acknowledged (s.engine.owned c)
      s.settings.maxSubscriptions t).isGreeting
  | _ => false

def greets (s : Server) (k : PeerId) : Action → Bool
  | .read k' since before _ => k' == k &&
    match s.peers[k]? with
    | none => false
    | some p =>
      match p.connection?, s.look p since before with
      | some c, some (.item i) => s.greetsFor p c i
      | _, _ => false
  | _ => false

open Peer (Touched touched_refl touched_still onWire_touched push_touched)

variable {s s' s'' : Server} {k k' : PeerId} {g : Bool} {ws more : List Item} {p : Peer}

def Alters (k : PeerId) (g : Bool) (ws : List Item) (s s' : Server) : Prop :=
  ∀ p, s.peers[k]? = some p → ∃ p', s'.peers[k]? = some p' ∧ Touched g ws p p'

theorem Alters.touched {p' : Peer} (alters : Alters k g ws s s') (here : s.peers[k]? = some p)
    (there : s'.peers[k]? = some p') : Touched g ws p p' := by
  obtain ⟨q, same, touched⟩ := alters p here
  obtain rfl : p' = q := by simpa [there] using same
  exact touched

theorem alters_peers (same : s'.peers = s.peers) : Alters k false [] s s' := fun p here =>
  ⟨p, same ▸ here, touched_refl p⟩

theorem alters_refl (s : Server) : Alters k false [] s s := alters_peers rfl

theorem Alters.trans {g' : Bool} (first : Alters k g ws s s') (second : Alters k g' more s' s'') :
    Alters k (g || g') (ws ++ more) s s'' := fun p here => by
  obtain ⟨p', there, touched⟩ := first p here
  obtain ⟨p'', beyond, touched'⟩ := second p' there
  exact ⟨p'', beyond, touched.trans touched'⟩

theorem Alters.quiet (first : Alters k g ws s s') (second : Alters k false [] s' s'') :
    Alters k g ws s s'' := by
  simpa using first.trans second

theorem alters_update {f : Peer → Peer} {writes : Peer → List Item}
    (touched : ∀ p, s.peers[k']? = some p → Touched false (writes p) p (f p)) :
    Alters k false (s.own k k' writes) s (s.updatePeer k' f) := fun p here => by
  by_cases same : k' = k
  · subst same
    exact ⟨f p, by simp [updatePeer, here], by simpa [own, here] using touched p here⟩
  · exact ⟨p, by simp [updatePeer, same, here], by simpa [own, same] using touched_refl p⟩

theorem alters_here {f : Peer → Peer} {writes : Peer → List Item} (here : s.peers[k']? = some p)
    (touched : Touched false (writes p) p (f p)) :
    Alters k false (s.own k k' writes) s (s.updatePeer k' f) :=
  alters_update fun q there => by
    obtain rfl : p = q := by simpa [here] using there
    exact touched

theorem alters_silent {f : Peer → Peer} (touched : ∀ p, Touched false [] p (f p)) :
    Alters k false [] s (s.updatePeer k' f) := fun p here => by
  by_cases same : k' = k
  · subst same
    exact ⟨f p, by simp [updatePeer, here], touched p⟩
  · exact ⟨p, by simp [updatePeer, same, here], touched_refl p⟩

theorem alters_still {f : Peer → Peer} (marks : ∀ p, (f p).marks = p.marks)
    (wire : ∀ p, (f p).wire = p.wire) : Alters k false [] s (s.updatePeer k' f) :=
  alters_silent fun p => touched_still (marks p) (by rw [wire p])

theorem own_absent {f : Peer → List Item} (absent : s.peers[k']? = none) : s.own k k' f = [] := by
  simp only [own]
  split
  · rename_i same
    rw [← same, absent]
  · rfl

theorem own_here {f : Peer → List Item} (here : s.peers[k']? = some p) :
    s.own k k' f = if k' = k then f p else [] := by
  simp only [own]
  split
  · rename_i same
    rw [← same, here]
  · rfl

/-- What holds of nothing, and of whatever may be written, holds of what is written. -/
theorem own_holds {P : List Item → Prop} {f : Peer → List Item} (nothing : P [])
    (each : ∀ p, P (f p)) : P (s.own k k' f) := by
  simp only [own]
  split
  · split
    · exact each _
    · exact nothing
  · exact nothing

@[simp] theorem own_nothing (s : Server) (k k' : PeerId) : s.own k k' (fun _ => []) = [] :=
  own_holds (P := (· = [])) rfl fun _ => rfl

theorem own_spare {f : Peer → List Item} (here : s.peers[k']? = some p) (nothing : f p = []) :
    s.own k k' f = [] := by
  rw [own_here here, nothing, ite_self]

/-! ### Readers -/

def popped (s : Server) (k : PeerId) : Server :=
  s.updatePeer k fun p => { p with incoming := p.incoming.tail }

theorem popped_alters (s : Server) (k' : PeerId) : Alters k false [] s (s.popped k') :=
  alters_still (fun _ => rfl) fun _ => rfl

theorem popped_here (here : s.peers[k']? = some p) :
    (s.popped k').peers[k']? = some { p with incoming := p.incoming.tail } := by
  simp [popped, updatePeer, here]

theorem tell_alters (s : Server) (k' : PeerId) (ms : List ServerMessage) :
    Alters k false [] s (s.tell k' ms) :=
  alters_still (fun _ => rfl) fun _ => rfl

theorem hangUp_alters (s : Server) (k' : PeerId) : Alters k false [] s (s.hangUp k').server := by
  simp only [hangUp]
  split
  · exact alters_refl s
  split <;> exact alters_peers rfl

theorem closeWith_alters (s : Server) (k' : PeerId) (code : Nat) (reason : String) :
    Alters k false [] s (s.closeWith k' code reason).server :=
  (tell_alters s k' _).quiet (hangUp_alters _ k')

theorem acknowledge_alters (s : Server) (k' : PeerId) : Alters k (k' == k) [] s
    (s.updatePeer k' fun p => { p with acknowledged := true }) := fun p here => by
  by_cases same : k' = k
  · subst same
    refine ⟨{ p with acknowledged := true }, by simp [updatePeer, here], rfl, rfl, ?_, id,
      id, id, (Bool.or_false _).symm, by simp⟩
    simp
  · have other : (k' == k) = false := by simpa using same
    exact ⟨p, by simp [updatePeer, same, here], other ▸ touched_refl p⟩

theorem react_alters (s : Server) (k' : PeerId) (c : ConnectionId) (r : Reaction) :
    Alters k (k' == k && r.isGreeting) [] s (s.react k' c r).server := by
  cases r with
  | acknowledge ms =>
    simp only [react, readOn_server, Reaction.isGreeting, Bool.and_true]
    simpa using (tell_alters s k' ms).trans (acknowledge_alters _ k')
  | reply ms =>
    simp only [react, readOn_server, Reaction.isGreeting, Bool.and_false]
    exact tell_alters s k' ms
  | close code reason =>
    simp only [Reaction.isGreeting, Bool.and_false]
    exact closeWith_alters s k' code reason
  | leave =>
    simp only [Reaction.isGreeting, Bool.and_false]
    exact hangUp_alters s k'
  | subscribe | unsubscribe =>
    simp only [Reaction.isGreeting, Bool.and_false]
    exact alters_peers rfl

theorem closing_alters (s : Server) (k' : PeerId) :
    Alters k false [] s (s.updatePeer k' fun p => { p with closing := true }) :=
  alters_silent fun p => ⟨rfl, rfl, (Bool.or_false _).symm, fun _ => rfl, id, id,
    (Bool.or_false _).symm, by simp⟩

theorem onItem_alters (s : Server) (k' : PeerId) (p : Peer) (c : ConnectionId) (i : Incoming) :
    Alters k (k' == k && s.greetsFor p c i) (s.own k k' (·.pongs i)) s
      (s.onItem k' p c i).server := by
  cases i with
  | text t =>
    simp only [Peer.pongs, own_nothing]
    exact react_alters s k' c _
  | binary =>
    simp only [Peer.pongs, own_nothing, greetsFor, Bool.and_false]
    exact closeWith_alters s k' _ _
  | ping payload =>
    simp only [onItem, greetsFor, Bool.and_false, Peer.pongs]
    split
    · rw [own_nothing]
      exact hangUp_alters s k'
    · rw [readOn_server]
      exact alters_update fun p _ => p.answerPing_touched payload
  | pong payload =>
    simp only [Peer.pongs, own_nothing, greetsFor, Bool.and_false]
    simp only [onItem]
    split
    · exact hangUp_alters s k'
    · rw [readOn_server]
      exact alters_refl s
  | close =>
    simp only [Peer.pongs, own_nothing, greetsFor, Bool.and_false]
    exact (closing_alters s k').quiet (hangUp_alters _ k')
  | lost =>
    simp only [Peer.pongs, own_nothing, greetsFor, Bool.and_false]
    exact hangUp_alters s k'

theorem greets_read {since : Nat} {before : Bool} {due? : Option Nat}
    (here : s.peers[k']? = some p) :
    s.greets k (.read k' since before due?) = (k' == k &&
      match p.connection?, s.look p since before with
      | some c, some (.item i) => s.greetsFor p c i
      | _, _ => false) := by
  simp only [greets]
  cases same : k' == k with
  | false => rfl
  | true =>
    obtain rfl : k' = k := by simpa using same
    rw [here]

theorem readNext_alters (s : Server) (k' : PeerId) (since : Nat) (before : Bool)
    (due? : Option Nat) : Alters k (s.greets k (.read k' since before due?))
      (s.writes k (.read k' since before due?)) s (s.readNext k' since before).server := by
  cases here : s.peers[k']? with
  | none =>
    have silent : s.greets k (.read k' since before due?) = false := by
      simp only [greets, Bool.and_eq_false_imp]
      intro same
      obtain rfl : k' = k := by simpa using same
      rw [here]
    rw [silent, writes, own_absent here]
    simp only [readNext, here]
    exact alters_refl s
  | some p =>
    rw [greets_read here, writes, own_here here]
    simp only [readNext, here]
    cases looked : s.look p since before with
    | none => cases p.connection? <;> simpa using closeWith_alters s k' _ _
    | some news =>
      cases connection : p.connection? with
      | none =>
        cases news with
        | idle => simpa [readOn_server] using alters_refl s
        | item _ | closed | cancelled => simpa using hangUp_alters s k'
      | some c =>
        cases news with
        | idle => simpa [readOn_server] using alters_refl s
        | closed | cancelled => simpa using hangUp_alters s k'
        | item i =>
          have same : (s.popped k').own k k' (·.pongs i) = if k' = k then p.pongs i else [] := by
            rw [own_here (popped_here here)]
            cases i <;> rfl
          have greeted : (s.popped k').greetsFor p c i = s.greetsFor p c i := by cases i <;> rfl
          have taken : Alters k false [] s (s.popped k') := popped_alters s k'
          have handled := taken.trans (onItem_alters (s.popped k') k' p c i)
          rwa [same, greeted] at handled

/-! ### Writers -/

theorem stopWriting_alters (s : Server) (k' : PeerId) :
    Alters k false [] s (s.stopWriting k') := by
  have stopped : Alters k false [] s (s.updatePeer k' fun p => { p with writing := false }) :=
    alters_still (fun _ => rfl) fun _ => rfl
  simp only [stopWriting]
  split
  · exact stopped.quiet (alters_peers rfl)
  · exact stopped

theorem finishSocket_alters (s : Server) (k' : PeerId) :
    Alters k false [] s (s.finishSocket k') := by
  have cut : Alters k false [] (s.stopWriting k') (s.finishSocket k') :=
    alters_silent fun p => ⟨rfl, rfl, (Bool.or_false _).symm, id, id, fun _ => rfl,
      (Bool.or_false _).symm, by simpa using Wire.cut_items p.wire⟩
  exact (stopWriting_alters s k').quiet cut

theorem pickNext_alters (s : Server) (k' : PeerId) :
    Alters k false [] s (s.pickNext k').server := by
  simp only [pickNext]
  split
  · exact alters_refl s
  split
  · exact alters_refl s
  split
  · rename_i rest _
    rw [sendMessage_server]
    exact alters_still (fun _ => rfl) fun _ => rfl
  split
  · exact alters_refl s
  split
  · rw [sendMessage_server]
    exact alters_peers rfl
  · exact alters_refl s

theorem writeItem_alters (s : Server) (k' : PeerId) (i : Item) :
    Alters k false (s.writes k (.write k' i)) s (s.writeItem k' i).server := by
  simp only [writeItem, writes]
  split
  · rename_i absent
    rw [own_absent absent]
    exact alters_refl s
  rename_i p here
  split
  · rename_i ended
    rw [own_spare here (if_pos (by simp [ended]))]
    exact alters_refl s
  split
  · rename_i broken
    rw [own_spare here (if_pos (by simp [broken]))]
    split
    · exact stopWriting_alters s k'
    · exact alters_refl s
  · rename_i going open'
    refine alters_here here ?_
    rw [if_neg (by simp [going, open'])]
    exact (Peer.push_touched p i).quiet (onWire_touched _ (Wire.send_items _))

theorem writeClose_alters (s : Server) (k' : PeerId) :
    Alters k false (s.writes k (.writeClose k')) s (s.writeClose k') := by
  refine alters_update fun p _ => ?_
  split
  · exact touched_refl p
  · exact (Peer.pushClose_touched p).quiet (onWire_touched _ (Wire.send_items _))

theorem flush_alters (s : Server) (k' : PeerId) (isLast : Bool) (due : Nat) :
    Alters k false (s.writes k (.flush k' isLast due)) s (s.flush k' isLast).server := by
  simp only [flush, writes]
  split
  · rename_i absent
    rw [own_absent absent]
    exact alters_refl s
  rename_i p here
  split
  · rename_i ended
    rw [own_spare here (if_pos (by simp [ended]))]
    exact alters_refl s
  split
  · rename_i gone
    rw [own_spare here (if_pos (by simp [gone]))]
    split
    · exact stopWriting_alters s k'
    · exact alters_refl s
  split
  · rename_i going here' can
    have flushed : Alters k false
        (s.own k k' fun p => if p.ended || p.gone || !p.canFlush then [] else p.lastly) s
        (s.updatePeer k' (·.flush)) := by
      refine alters_here here ?_
      rw [if_neg (by simp [going, here', can])]
      exact p.flush_touched
    split
    · exact flushed.quiet (stopWriting_alters _ k')
    · exact flushed
  rename_i stuck
  rw [own_spare here (if_pos (by simp [stuck]))]
  split
  · exact stopWriting_alters s k'
  · split
    · rename_i c _
      have cancelled : Alters k false [] s (s.mapEngine (·.cancelConnection c)) := alters_peers rfl
      exact cancelled.quiet (stopWriting_alters _ k')
    · exact stopWriting_alters s k'

theorem readBlocked_alters (s : Server) (k' : PeerId) :
    Alters k false (s.writes k (.readBlocked k')) s (s.readBlocked k').server := by
  simp only [writes]
  cases here : s.peers[k']? with
  | none =>
    rw [own_absent here]
    simp only [readBlocked, here]
    exact alters_refl s
  | some p =>
    have taken : Alters k false [] s (s.popped k') := popped_alters s k'
    rw [own_here here]
    simp only [readBlocked, here, hangUpBlocked]
    cases p.incoming with
    | nil => simpa [popped] using taken
    | cons i rest =>
      simp only [List.head?_cons, Option.elim_some]
      cases i with
      | text t =>
        simp only [Peer.pongs, ite_self]
        split <;> exact taken
      | ping payload =>
        simp only [Peer.pongs]
        by_cases long : Item.controlLimit < payload.length
        · simpa [long, popped] using taken
        · simp only [long, ↓reduceIte]
          have answered : Alters k false ((s.popped k').own k k' (·.answer payload)) (s.popped k')
              ((s.popped k').updatePeer k' (·.answerPing payload)) :=
            alters_update fun p _ => p.answerPing_touched payload
          rw [own_here (popped_here here)] at answered
          exact taken.trans answered
      | pong payload =>
        simp only [Peer.pongs, ite_self]
        split <;> exact taken
      | close =>
        simpa [Peer.pongs, popped] using taken.quiet (closing_alters (s.popped k') k')
      | binary | lost => simpa [Peer.pongs, popped] using taken

/-! ### Every action and every input -/

theorem perform_alters (s : Server) (k : PeerId) (a : Action) :
    Alters k (s.greets k a) (s.writes k a) s (s.perform a).server := by
  cases a with
  | engine b => exact alters_peers rfl
  | read k' since before due? => exact readNext_alters s k' since before due?
  | subscribed k' id call =>
    simp only [perform]
    split
    · rw [readOn_server]
      exact tell_alters s k' _
    · rw [readOn_server]
      exact alters_refl s
  | unsubscribed k' id =>
    simp only [perform]
    split
    · rw [readOn_server]
      exact tell_alters s k' _
    · exact alters_refl s
  | waitForWriter k' => exact alters_refl s
  | endSocket k' due => exact finishSocket_alters s k'
  | pick k' => exact pickNext_alters s k'
  | write k' i => exact writeItem_alters s k' i
  | writeClose k' => exact writeClose_alters s k'
  | flush k' isLast due => exact flush_alters s k' isLast due
  | readBlocked k' => exact readBlocked_alters s k'
  | writeBlocked k' i =>
    refine alters_update fun p _ => ?_
    split
    · exact touched_refl p
    · exact (push_touched p i).quiet (onWire_touched _ (Wire.send_items _))
  | writeCloseBlocked k' => exact writeClose_alters s k'
  | flushBlocked k' =>
    refine alters_update fun p _ => ?_
    split
    · exact touched_refl p
    · exact p.flush_touched
  | endBlocked k' => exact finishSocket_alters s k'
  | answerStream x call => exact alters_peers (answerStream_peers s x call)
  | refuseStream x payload => exact alters_peers rfl
  | stream x due => exact alters_peers (streamNext_peers s x)

theorem perform_came {a : Action} {p' : Peer} (there : (s.perform a).server.peers[k]? = some p') :
    ∃ p, s.peers[k]? = some p ∧ Touched (s.greets k a) (s.writes k a) p p' := by
  have bound := (List.getElem?_eq_some_iff.mp there).1
  rw [(perform_attends s k a).count] at bound
  have here := List.getElem?_eq_getElem bound
  exact ⟨_, here, (perform_alters s k a).touched here there⟩

theorem input_alters (s : Server) (i : Input) : Alters k false [] s (i.act ⟨s, []⟩).state := by
  cases i with
  | join header capacity stalled =>
    have more {w : World} {q : Peer} (peers : w.state.peers = s.peers ++ [q]) :
        Alters k false [] s w.state := fun p here =>
      ⟨p, by rw [peers, List.getElem?_append_left (List.getElem?_eq_some_iff.mp here).1, here],
        touched_refl p⟩
    simp only [Input.act, World.openSocket]
    split <;> exact more rfl
  | say k' i =>
    simp only [Input.act, World.send]
    split
    · exact alters_still (fun _ => rfl) fun _ => rfl
    · exact alters_refl s
  | drop k' =>
    exact alters_silent fun p => ⟨rfl, rfl, (Bool.or_false _).symm, id, fun _ => rfl, id,
      (Bool.or_false _).symm, by simp⟩
  | resume k' => exact alters_silent fun p => onWire_touched p (Wire.resume_items _)
  | request accept body =>
    simp only [Input.act, World.requestStream]
    split
    · exact alters_refl s
    split
    · exact alters_refl s
    split <;> exact alters_peers rfl
  | receive k' =>
    simp only [Input.act, World.received]
    split
    · exact alters_silent fun p => touched_still rfl (Wire.take_items p.wire)
    · exact alters_refl s
  | receiveChunks k' =>
    simp only [Input.act, World.receivedChunks]
    split
    · exact alters_peers rfl
    · exact alters_refl s
  | abandon | shutdown | brokers | pass => exact alters_peers rfl

theorem newcomer_joins {i : Input} (absent : s.peers[k]? = none)
    (there : (i.act ⟨s, []⟩).state.peers[k]? = some p) :
    ∃ header capacity stalled, i = .join header capacity stalled := by
  have still (count : (i.act ⟨s, []⟩).state.peers.length = s.peers.length) :
      ∃ header capacity stalled, i = .join header capacity stalled := by
    have beyond := count ▸ List.getElem?_eq_none_iff.mp absent
    simp [List.getElem?_eq_none beyond] at there
  cases i with
  | join header capacity stalled => exact ⟨header, capacity, stalled, rfl⟩
  | say k' i =>
    apply still
    simp only [Input.act, World.send]
    split <;> simp [World.map, updatePeer]
  | drop k' => exact still (by simp [Input.act, World.dropPeer, World.map, updatePeer])
  | resume k' => exact still (by simp [Input.act, World.resumePeer, World.map, updatePeer])
  | request accept body =>
    apply still
    simp only [Input.act, World.requestStream]
    split
    · rfl
    split
    · rfl
    split <;> rfl
  | receive k' =>
    apply still
    simp only [Input.act, World.received]
    split <;> simp [World.map, updatePeer]
  | receiveChunks k' =>
    apply still
    simp only [Input.act, World.receivedChunks]
    split <;> rfl
  | abandon | shutdown | brokers | pass => exact still rfl

theorem newcomer_fresh {i : Input} (absent : s.peers[k]? = none)
    (there : (i.act ⟨s, []⟩).state.peers[k]? = some p) :
    p.acknowledged = false ∧ p.hasClosed = false ∧ p.wire.items = [] ∧ p.writing = true := by
  have last {q : Peer} (there : (s.peers ++ [q])[k]? = some p) : p = q := by
    rw [List.getElem?_append_right (List.getElem?_eq_none_iff.mp absent)] at there
    exact List.mem_singleton.mp (List.mem_of_getElem? there)
  obtain ⟨header, capacity, stalled, rfl⟩ := newcomer_joins absent there
  simp only [Input.act, World.openSocket] at there
  split at there
  · obtain rfl := last there
    exact ⟨rfl, rfl, rfl, rfl⟩
  · obtain rfl := last there
    exact ⟨rfl, rfl, rfl, rfl⟩

end Server

end SubscriptionGateway
