import SubscriptionGateway.WebSocket.Session

/-!
The two ends of a socket: what a client sends, and what the server has written for it. A few bytes
at most are under way, so a frame may have gone in part only: the rest goes when the server tries
again and the client has read.
-/
namespace SubscriptionGateway.Server

inductive Incoming where
  | text (s : String)
  | binary
  | ping (payload : List UInt8)
  | pong (payload : List UInt8)
  | close
  | lost

inductive Item where
  | text (s : String)
  | pong (payload : List UInt8)
  | close (reason? : Option (Nat × String))
  | chunk (s : String)
  | finished

namespace Item

def controlLimit : Nat := 125

def payloadBytes : Item → Nat
  | .text s => s.utf8ByteSize
  | .pong p => p.length
  | .close none => 0
  | .close (some (_, reason)) => 2 + reason.utf8ByteSize
  | .chunk s => s.utf8ByteSize
  | .finished => 0

/-- Bytes on the wire: a head of two, four or ten bytes before the payload. -/
def bytes (i : Item) : Nat :=
  let n := i.payloadBytes
  (if n < 126 then 2 else if n < 65536 then 4 else 10) + n

/-- A control frame that is too long is no frame to a client; it ends the stream. -/
def asRead (i : Item) : Item :=
  match i with
  | .close _ => if controlLimit < i.payloadBytes then .finished else i
  | .pong _ => if controlLimit < i.payloadBytes then .finished else i
  | i => i

def isFinished : Item → Bool
  | .finished => true
  | _ => false

def isClose : Item → Bool
  | .close _ => true
  | _ => false

end Item

structure Wire where
  capacity : Nat := 65536
  stalled : Bool := false
  /-- Frames that the client has not read to their ends. -/
  frames : List Item := []
  sent : Nat := 0
  taken : Nat := 0
  /-- The server has left its end. -/
  isCut : Bool := false
  read : List Item := []
  isOver : Bool := false

namespace Wire

def size (w : Wire) : Nat := w.frames.foldr (fun i n => i.bytes + n) 0

def isFlushed (w : Wire) : Bool := decide (w.size ≤ w.sent)

/-- Whether `more` bytes and what is left could all be sent by and by. -/
def canFlush (w : Wire) (more : Nat) : Bool :=
  !w.stalled || decide (w.size + more ≤ w.taken + w.capacity)

def readItem (w : Wire) (i : Item) : Wire :=
  if w.isOver then w
  else { w with read := w.read ++ [i.asRead], isOver := i.asRead.isFinished }

/-- The frames that so many bytes hold to their ends, the others, and the bytes left over. -/
def complete (sent : Nat) : List Item → List Item × List Item × Nat
  | [] => ([], [], 0)
  | i :: rest =>
    if i.bytes ≤ sent then
      let (whole, others, left) := complete (sent - i.bytes) rest
      (i :: whole, others, left)
    else ([], i :: rest, sent)

def deliver (w : Wire) : Wire :=
  if w.stalled then w
  else
    let (whole, others, left) := complete w.sent w.frames
    let w := whole.foldl readItem { w with frames := others, sent := left, taken := left }
    if w.isCut then w.readItem .finished else w

def push (w : Wire) (i : Item) : Wire := { w with frames := w.frames ++ [i] }

/-- The server sends once, as much as there is room for. -/
def send (w : Wire) : Wire := { w with sent := min w.size (w.taken + w.capacity) }.deliver

/-- The server sends as long as there comes to be room. -/
def flush (w : Wire) : Wire :=
  if w.stalled then w.send else { w with sent := w.size }.deliver

/-- The server leaves; what it has not sent is lost. -/
def cut (w : Wire) : Wire := { w with isCut := true }.deliver

def resume (w : Wire) : Wire := { w with stalled := false }.deliver

def take (w : Wire) : List Item × Wire := (w.read, { w with read := [] })

end Wire

end SubscriptionGateway.Server
