import SubscriptionGateway.Proofs.Json.Readback
import SubscriptionGateway.Server.EventStream

/-!
How a client reads an event stream: line by line, where a line ends by a line feed, a carriage
return or both. Fields gather until an empty line, which tells an event if there are data. JSON text
is one line whatever stands in its strings, so the events written are the events read, however the
stream is cut into chunks.
-/
namespace SubscriptionGateway

namespace Json

/-! ## One line -/

def OneLine (cs : List Char) : Prop := ∀ c ∈ cs, c ≠ '\n' ∧ c ≠ '\r'

-- Without it `decide` goes through all characters there are.
instance (cs : List Char) : Decidable (OneLine cs) := List.decidableBAll _ cs

variable {cs ds : List Char}

theorem oneLine_append (first : OneLine cs) (second : OneLine ds) : OneLine (cs ++ ds) := by
  intro c member
  rcases List.mem_append.mp member with here | there
  · exact first c here
  · exact second c there

theorem oneLine_cons {c : Char} (plain : c ≠ '\n' ∧ c ≠ '\r') (rest : OneLine cs) :
    OneLine (c :: cs) := by
  intro d member
  rcases List.mem_cons.mp member with rfl | later
  · exact plain
  · exact rest d later

theorem hexDigit_oneLine {n : Nat} (small : n < 16) : hexDigit n ≠ '\n' ∧ hexDigit n ≠ '\r' := by
  revert n
  decide

theorem escape_oneLine (c : Char) : OneLine (escape c) := by
  unfold escape
  split
  · decide
  split
  · decide
  split
  · decide
  split
  · decide
  split
  · decide
  split
  · decide
  split
  · decide
  split
  · have high := hexDigit_oneLine (n := c.toNat / 16) (by omega)
    have low := hexDigit_oneLine (n := c.toNat % 16) (by omega)
    have nought : OneLine ['\\', 'u', '0', '0'] := by decide
    exact oneLine_append nought (oneLine_cons high (oneLine_cons low (by simp [OneLine])))
  · rename_i visible
    refine oneLine_cons ⟨?_, ?_⟩ (by simp [OneLine])
    · rintro rfl
      exact visible (by decide)
    · rintro rfl
      exact visible (by decide)

theorem quoted_oneLine (s : String) : OneLine (quoted s) := by
  have inside : OneLine (s.toList.flatMap escape) := by
    intro c member
    obtain ⟨d, -, here⟩ := List.mem_flatMap.mp member
    exact escape_oneLine d c here
  exact oneLine_cons (by decide) (oneLine_append inside (by decide))

theorem number_oneLine (n : JsonNumber) : OneLine n.chars := by
  intro c member
  have part := Form.number_parts n c member
  constructor
  · rintro rfl
    exact absurd part (by decide)
  · rintro rfl
    exact absurd part (by decide)

mutual

theorem chars_oneLine : ∀ j : Json, OneLine j.chars
  | .null => by unfold chars; decide
  | .bool true => by unfold chars; decide
  | .bool false => by unfold chars; decide
  | .number n => by
    unfold chars
    exact number_oneLine n
  | .string s => by
    unfold chars
    exact quoted_oneLine s
  | .array [] => by unfold chars; decide
  | .array (item :: items) => by
    unfold chars
    exact oneLine_cons (by decide) (oneLine_append (chars_oneLine item) (itemChars_oneLine items))
  | .object [] => by unfold chars; decide
  | .object ((key, value) :: members) => by
    unfold chars
    have pair := oneLine_append (chars_oneLine value) (memberChars_oneLine members)
    exact oneLine_cons (by decide)
      (oneLine_append (quoted_oneLine key) (oneLine_cons (by decide) pair))

theorem itemChars_oneLine : ∀ items : List Json, OneLine (itemChars items)
  | [] => by unfold itemChars; decide
  | item :: items => by
    unfold itemChars
    exact oneLine_cons (by decide) (oneLine_append (chars_oneLine item) (itemChars_oneLine items))

theorem memberChars_oneLine : ∀ members : Members, OneLine (memberChars members)
  | [] => by unfold memberChars; decide
  | (key, value) :: members => by
    unfold memberChars
    have pair := oneLine_append (chars_oneLine value) (memberChars_oneLine members)
    exact oneLine_cons (by decide)
      (oneLine_append (quoted_oneLine key) (oneLine_cons (by decide) pair))

end

theorem text_oneLine (j : Json) : OneLine j.text.toList := by
  rw [text, String.toList_ofList]
  exact chars_oneLine j

theorem text_head (j : Json) : j.text.toList.head? ≠ some ' ' := by
  rw [text, String.toList_ofList]
  obtain ⟨c, cs, chars, visible, -⟩ := Form.chars_head j
  rw [chars, List.head?_cons]
  rintro same
  obtain rfl := Option.some.inj same
  exact absurd visible (by decide)

end Json

/-! ## Events -/

namespace Server.EventStream

inductive Event where
  | next (payload : Json)
  | complete

structure Told where
  type : String
  data : String
  deriving DecidableEq

namespace Event

def text : Event → String
  | .next payload => EventStream.next payload
  | .complete => EventStream.complete

def told : Event → Told
  | .next payload => ⟨"next", payload.text⟩
  | .complete => ⟨"complete", ""⟩

/-- Data go out as they are, errors as a response without data. -/
def ofFrame (f : Frame) : Event :=
  match f.body with
  | .next payload => .next payload
  | .error errors => .next (Outcome.errorsBody errors)
  | .complete => .complete

theorem ofFrame_text (f : Frame) : (ofFrame f).text = chunk f := by
  unfold ofFrame chunk
  cases f.body <;> rfl

theorem refusal_text (payload : Json) : refusal payload = [next payload, complete].map text := rfl

end Event

/-! ## Reading -/

/-- What a client has read and not been told yet. -/
structure Reader where
  line : List Char := []
  /-- The last line has ended by a carriage return, to which a line feed may still belong. -/
  returned : Bool := false
  type : List Char := []
  data : List Char := []
  deriving DecidableEq

/-- The name of a field and its value. A blank after the colon does not belong to the value. -/
def fieldOf (line : List Char) : List Char × List Char :=
  let name := line.takeWhile (· != ':')
  (name, match line.drop name.length with
    | ':' :: ' ' :: value => value
    | ':' :: value => value
    | _ => [])

namespace Reader

/-- An event without data is none, and an event without a type is a message. -/
def dispatch (r : Reader) : List Told :=
  if r.data.isEmpty then []
  else [⟨String.ofList (if r.type.isEmpty then "message".toList else r.type),
    String.ofList r.data.dropLast⟩]

def field (r : Reader) (name value : List Char) : Reader :=
  if name = "event".toList then { r with type := value }
  else if name = "data".toList then { r with data := r.data ++ value ++ ['\n'] }
  else r

/-- A line that begins with a colon is a comment. -/
def endLine (r : Reader) : Reader × List Told :=
  match r.line with
  | [] => ({}, r.dispatch)
  | ':' :: _ => ({ r with line := [] }, [])
  | line => ({ r with line := [] }.field (fieldOf line).1 (fieldOf line).2, [])

def step (r : Reader) (c : Char) : Reader × List Told :=
  if c = '\n' then
    if r.returned then ({ r with returned := false }, []) else r.endLine
  else if c = '\r' then
    let (r, told) := { r with returned := false }.endLine
    ({ r with returned := true }, told)
  else ({ r with line := r.line ++ [c], returned := false }, [])

def feed (r : Reader) : List Char → Reader × List Told
  | [] => (r, [])
  | c :: cs =>
    let (r, told) := r.step c
    let (r, more) := r.feed cs
    (r, told ++ more)

end Reader

/-- What a text tells. An event that its end breaks off is not told. -/
def parse (body : List Char) : List Told := (({} : Reader).feed body).2

namespace Reader

variable {r r' : Reader} {told : List Told} {cs ds : List Char}

theorem feed_append (r : Reader) (cs ds : List Char) : r.feed (cs ++ ds) =
    (((r.feed cs).1.feed ds).1, (r.feed cs).2 ++ ((r.feed cs).1.feed ds).2) := by
  induction cs generalizing r with
  | nil => rfl
  | cons c cs ih => simp only [List.cons_append, feed, ih, List.append_assoc]

theorem feed_line (line : Json.OneLine cs) (r : Reader) (fresh : r.returned = false) :
    r.feed cs = ({ r with line := r.line ++ cs }, []) := by
  induction cs generalizing r with
  | nil => simp [feed]
  | cons c cs ih =>
    obtain ⟨feed, back⟩ := line c (List.mem_cons_self ..)
    have rest : Json.OneLine cs := fun d member => line d (List.mem_cons_of_mem _ member)
    have stepped : r.step c = ({ r with line := r.line ++ [c], returned := false }, []) := by
      simp only [step, feed, back, ↓reduceIte]
    rw [Reader.feed, stepped]
    dsimp only
    rw [ih rest _ rfl]
    simp [fresh]

theorem feed_ended (line : Json.OneLine cs) (r : Reader) (fresh : r.returned = false) :
    r.feed (cs ++ ['\n']) = { r with line := r.line ++ cs }.endLine := by
  rw [feed_append, feed_line line r fresh]
  simp only [feed, step, fresh, ↓reduceIte, Bool.false_eq_true, List.nil_append, List.append_nil]

theorem fieldOf_colon {name value : List Char} (plain : ':' ∉ name)
    (visible : value.head? ≠ some ' ') :
    fieldOf (name ++ ':' :: value) = (name, value) := by
  have whole : (name ++ ':' :: value).takeWhile (· != ':') = name := by
    rw [List.takeWhile_append_of_pos]
    · simp
    · intro c member
      have apart : c ≠ ':' := fun same => plain (same ▸ member)
      simpa using apart
  unfold fieldOf
  dsimp only
  rw [whole, List.drop_left]
  cases value with
  | nil => rfl
  | cons c cs =>
    have apart : c ≠ ' ' := fun same => visible (by simp [same])
    simp [apart]

theorem endLine_field {c : Char} (r : Reader) (begun : r.line = c :: cs) (apart : c ≠ ':') :
    r.endLine = ({ r with line := [] }.field (fieldOf r.line).1 (fieldOf r.line).2, []) := by
  unfold endLine
  split
  · rename_i none
    rw [begun] at none
    cases none
  · rename_i comment
    rw [begun] at comment
    exact absurd (List.cons.inj comment).1 apart
  · rfl

theorem feed_field {name value : List Char} (r : Reader) (begun : r.line = [])
    (fresh : r.returned = false)
    (plain : ':' ∉ name) (named : name ≠ []) (line : Json.OneLine name)
    (oneLine : Json.OneLine value)
    (visible : value.head? ≠ some ' ') :
    r.feed (name ++ ':' :: value ++ ['\n']) = (r.field name value, []) := by
  have whole : Json.OneLine (name ++ ':' :: value) :=
    Json.oneLine_append line (Json.oneLine_cons (by decide) oneLine)
  obtain ⟨c, cs, rfl⟩ := List.exists_cons_of_ne_nil named
  have apart : c ≠ ':' := fun same => plain (by simp [same])
  have read := fieldOf_colon plain visible
  have same : ({ r with line := [] } : Reader) = r := by rw [← begun]
  rw [feed_ended whole r fresh, begun, List.nil_append, endLine_field _ rfl apart]
  dsimp only
  rw [read, same]

end Reader

open Reader

/-- An event that is written is told, and nothing of it is left. -/
theorem feed_event {type data : List Char} (typed : type ≠ []) (line : Json.OneLine type)
    (blank : type.head? ≠ some ' ') (oneLine : Json.OneLine data)
    (visible : data.head? ≠ some ' ') :
    ({} : Reader).feed (("event".toList ++ ':' :: type ++ ['\n']) ++
      (("data".toList ++ ':' :: data ++ ['\n']) ++ ['\n'])) =
      ({}, [⟨String.ofList type, String.ofList data⟩]) := by
  have named :
    ({} : Reader).feed ("event".toList ++ ':' :: type ++ ['\n']) = ({ type := type }, []) :=
    feed_field {} rfl rfl (by decide) (by decide) (by decide) line blank
  have given : ({ type := type } : Reader).feed ("data".toList ++ ':' :: data ++ ['\n']) =
      ({ type := type, data := data ++ ['\n'] }, []) :=
    feed_field { type := type } rfl rfl (by decide) (by decide) (by decide) oneLine visible
  have ended : ({ type := type, data := data ++ ['\n'] } : Reader).feed ['\n'] =
      ({}, [⟨String.ofList type, String.ofList data⟩]) := by
    simp [feed, step, endLine, dispatch, typed]
  rw [feed_append, named]
  dsimp only
  rw [feed_append, given]
  dsimp only
  rw [ended]
  rfl

theorem Event.feed_text (ev : Event) : ({} : Reader).feed ev.text.toList = ({}, [ev.told]) := by
  cases ev with
  | next payload =>
    have named : Json.OneLine "next".toList := by decide
    have read := feed_event (by decide) named (by decide) payload.text_oneLine payload.text_head
    have same :
      (Event.next payload).text.toList = ("event".toList ++ ':' :: "next".toList ++ ['\n']) ++
        (("data".toList ++ ':' :: payload.text.toList ++ ['\n']) ++ ['\n']) := by
      have parts : (Event.next payload).text = "event:next\ndata:" ++ payload.text ++ "\n\n" := rfl
      have lead : "event:next\ndata:".toList =
          ("event".toList ++ ':' :: "next".toList ++ ['\n']) ++ ("data".toList ++ [':']) := by rfl
      have ends : "\n\n".toList = ['\n'] ++ ['\n'] := by rfl
      rw [parts, String.toList_append, String.toList_append, lead, ends]
      simp only [List.append_assoc, List.cons_append, List.nil_append]
    rw [same, read]
    simp [Event.told]
  | complete => decide

theorem keepAlive_feed : ({} : Reader).feed keepAlive.toList = ({}, []) := by decide

/-- An event, or a comment that keeps the stream alive. -/
def written (piece : Option Event) : String := piece.elim keepAlive Event.text

/-- Whatever events and comments are written, just the events are told, in their order. -/
theorem parse_written (pieces : List (Option Event)) :
    parse ((pieces.map written).flatMap String.toList) = (pieces.filterMap id).map Event.told := by
  have all : ({} : Reader).feed ((pieces.map written).flatMap String.toList) =
      ({}, (pieces.filterMap id).map Event.told) := by
    induction pieces with
    | nil => rfl
    | cons piece pieces ih =>
      rw [List.map_cons, List.flatMap_cons, feed_append]
      cases piece with
      | none =>
        simp only [written, Option.elim_none, keepAlive_feed]
        exact congrArg (fun r => (r.1, [] ++ r.2)) ih
      | some ev =>
        simp only [written, Option.elim_some, Event.feed_text]
        exact congrArg (fun r => (r.1, [ev.told] ++ r.2)) ih
  unfold parse
  rw [all]

end Server.EventStream

end SubscriptionGateway
