import SubscriptionGateway.Number.Double
import SubscriptionGateway.Yaml.Cursor

/-!
The tokens of YAML, and those that are read from a place on their own: names of anchors, tags and
directives.
-/
namespace SubscriptionGateway.Yaml

structure Tag where
  handle : String
  suffix : String
  deriving DecidableEq, Repr

inductive Token where
  | version
  | handle (handle lead : String)
  | documentStart
  | documentEnd
  | blockSequence
  | blockMapping
  | blockEnd
  | flowSequence
  | flowSequenceEnd
  | flowMapping
  | flowMappingEnd
  | flowEntry
  | blockEntry
  | key
  | value
  | alias (name : String)
  | anchor (name : String)
  | tag (tag : Tag)
  | scalar (plain : Bool) (text : String)
  deriving DecidableEq, Repr

/-! ## Anchors -/

def isAnchorChar (c : Char) : Bool :=
  !(isGap c || c == '\n' || c == '\uFEFF' || isFlowMark c)

def anchorName? (c : Cursor) : Option (String × Cursor) :=
  match (c.advance 1).span isAnchorChar with
  | ([], _) => none
  | (name, d) => some (String.ofList name, d)

/-! ## Tags -/

def isUriChar (c : Char) : Bool :=
  c.isAlphanum || "-#;/?:@&=+$,_.!~*'()[]%".toList.contains c

def isTagChar (c : Char) : Bool := isUriChar c && !isFlowMark c && c != '!'

def escapedByte? : List Char → Option Nat
  | '%' :: a :: b :: _ => do return (← Written.digit? 16 a) * 16 + (← Written.digit? 16 b)
  | _ => none

/-- The character of an escape, `%` and two hexadecimal digits for each byte. One byte is a
character by its number; two are the number that they are together, and that has to be one. -/
def uriEscape? (c : Cursor) : Option (Char × Cursor) := do
  let lead ← escapedByte? c.rest
  if lead < 0x80 then return (Char.ofNat lead, c.advance 3)
  if lead < 0xC0 || 0xD8 ≤ lead then none
  let tail ← escapedByte? (c.rest.drop 3)
  if 0x80 ≤ tail && tail < 0xC0 then return (Char.ofNat (lead * 256 + tail), c.advance 6) else none

def uriRun? (p : Char → Bool) : Nat → List Char → Cursor → Option (List Char × Cursor)
  | 0, run, c => some (run, c)
  | fuel + 1, run, c =>
    match c.rest with
    | [] => some (run, c)
    | x :: _ =>
      if !p x then some (run, c)
      else if x = '%' then (uriEscape? c).bind fun (y, c) => uriRun? p fuel (y :: run) c
      else uriRun? p fuel (x :: run) (c.advance 1)

def uriText? (p : Char → Bool) (lead : List Char) (c : Cursor) : Option (String × Cursor) :=
  (uriRun? p c.rest.length lead.reverse c).map fun (run, d) => (String.ofList run.reverse, d)

def textBetween (c d : Cursor) : String := String.ofList (c.rest.take (d.index - c.index))

/-- An exclamation mark, letters and maybe another mark; within a directive the second mark has to
be there unless the first stands alone. -/
def tagHandle? (directive : Bool) (c : Cursor) : Option (String × Cursor) :=
  match c.rest with
  | '!' :: _ =>
    let (word, d) := (c.advance 1).span isWordChar
    match d.rest with
    | '!' :: _ => some (textBetween c (d.advance 1), d.advance 1)
    | _ => if directive && !word.isEmpty then none else some (textBetween c d, d)
  | _ => none

def isNamedHandle (handle : String) : Bool :=
  2 ≤ handle.length && handle.startsWith "!" && handle.endsWith "!"

def verbatimTag? (c : Cursor) : Option (Tag × Cursor) := do
  let (suffix, d) ← uriText? isUriChar [] (c.advance 2)
  match d.rest with
  | '>' :: _ => return (⟨"", suffix⟩, d.advance 1)
  | _ => none

def shorthandTag? (c : Cursor) : Option (Tag × Cursor) := do
  let (handle, d) ← tagHandle? false c
  if isNamedHandle handle then
    let (suffix, e) ← uriText? isTagChar [] d
    if suffix.isEmpty then none else return (⟨handle, suffix⟩, e)
  else
    let (suffix, e) ← uriText? isTagChar (handle.toList.drop 1) d
    return (if suffix.isEmpty then ⟨"", "!"⟩ else ⟨"!", suffix⟩, e)

def tag? (flow : Bool) (c : Cursor) : Option (Tag × Cursor) := do
  let (t, d) ← match c.rest with
    | '!' :: '<' :: _ => verbatimTag? c
    | _ => shorthandTag? c
  if atGap d.rest || (flow && d.rest.head?.any isFlowMark) then return (t, d) else none

/-! ## Directives -/

def blanks (c : Cursor) : Cursor := (Cursor.gapsFuel c.rest.length {} c).2

def versionNumber? (c : Cursor) : Option Cursor :=
  let (digits, d) := c.span Char.isDigit
  if digits.isEmpty || 9 < digits.length then none else some d

def version? (c : Cursor) : Option Cursor := do
  let d ← versionNumber? (blanks c)
  match d.rest with
  | '.' :: _ => versionNumber? (d.advance 1)
  | _ => none

def handleDirective? (c : Cursor) : Option (Token × Cursor) := do
  let (handle, d) ← tagHandle? true (blanks c)
  let start := blanks d
  let first ← start.rest.head?
  if first ≠ '!' && !isTagChar first then none
  let (lead, d) ← uriText? isUriChar [] start
  if atGap d.rest then return (.handle handle lead, d) else none

/-- A directive and the end of its line. One of a name not known says nothing. -/
def directive? (c : Cursor) : Option (Token × Cursor) := do
  let (name, d) := (c.advance 1).span isWordChar
  if name.isEmpty || !atGap d.rest then none
  let (t, d) ← match String.ofList name with
    | "YAML" => (version? d).map fun d => (Token.version, d)
    | "TAG" => handleDirective? d
    | _ => some (Token.handle "" "", d.comment)
  let (_, d) ← d.gaps?
  if !atLineEnd d.rest then none
  return (t, if d.atEnd then d else d.turn)

end SubscriptionGateway.Yaml
