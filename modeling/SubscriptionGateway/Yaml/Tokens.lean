import SubscriptionGateway.Yaml.Block
import SubscriptionGateway.Yaml.Plain
import SubscriptionGateway.Yaml.Quoted
import SubscriptionGateway.Yaml.Token

/-!
The tokens of a YAML text. A block begins where a line is further in than the one around it and
ends with the first line that is not; that something was a key is known only at the colon after
it, and its tokens are then put in before it.
-/
namespace SubscriptionGateway.Yaml

structure Indent where
  /-- Its column, -1 outside of all blocks. -/
  column : Int
  /-- Whether a block ends where it is taken up again. -/
  endsBlock : Bool

/-- A token that may turn out to be the first of a key. -/
structure KeyStart where
  possible : Bool := false
  required : Bool := false
  token : Nat := 0
  mark : Mark := {}

structure Scan where
  cursor : Cursor
  tokens : Array Token := #[]
  keyAllowed : Bool := true
  /-- For the innermost collection between brackets first, the block around them last. -/
  keys : List KeyStart := [{}]
  indent : Int := -1
  indents : List Indent := []
  flowLevel : Nat := 0
  /-- Where a colon may follow a key at once. -/
  adjacentAt : Nat := 0
  mappingMet : Bool := false
  inPair : Bool := false

namespace Scan

def inFlow (s : Scan) : Bool := 0 < s.flowLevel

def push (s : Scan) (t : Token) : Scan := { s with tokens := s.tokens.push t }

/-- Puts a token before the one that has `n` before it. -/
def putBefore (s : Scan) (n : Nat) (t : Token) : Scan :=
  { s with tokens := s.tokens.insertIdxIfInBounds n t }

/-! ## Indentation -/

def beginBlock (s : Scan) (column : Nat) (n : Nat) (t : Token) : Scan :=
  if s.inFlow then s
  else
    let s := match s.indents with
      | ⟨outer, false⟩ :: rest =>
        if s.indent ≤ (column : Int) then { s with indent := outer, indents := rest } else s
      | _ => s
    if s.indent < (column : Int) then
      { s.putBefore n t with indent := column, indents := ⟨s.indent, true⟩ :: s.indents }
    else s

def endBlocksOf (column : Int) : List Indent → Int → Array Token → Int × List Indent × Array Token
  | [], indent, ts => (indent, [], ts)
  | i :: rest, indent, ts =>
    if column < indent then
      endBlocksOf column rest i.column (if i.endsBlock then ts.push .blockEnd else ts)
    else (indent, i :: rest, ts)

def endBlocks (s : Scan) (column : Int) : Scan :=
  if s.inFlow then s
  else
    let (indent, indents, tokens) := endBlocksOf column s.indents s.indent s.tokens
    { s with indent := indent, indents := indents, tokens := tokens }

/-- What a block holds is one column further in, if it does not begin a block itself. -/
def indentOnce (s : Scan) : Scan :=
  match s.indents with
  | ⟨_, true⟩ :: _ =>
    if s.inFlow then s
    else { s with indent := s.indent + 1, indents := ⟨s.indent, false⟩ :: s.indents }
  | _ => s

def dropOnce (indent : Int) : List Indent → Int × List Indent
  | ⟨outer, false⟩ :: rest => dropOnce outer rest
  | indents => (indent, indents)

def unindentOnce (s : Scan) : Scan :=
  let (indent, indents) := dropOnce s.indent s.indents
  { s with indent := indent, indents := indents }

/-! ## Keys -/

def saveKey (s : Scan) : Scan :=
  if s.keyAllowed then
    let atBlock := match s.indents with
      | ⟨_, true⟩ :: _ => true
      | _ => false
    { s with keys :=
        { possible := true, token := s.tokens.size, mark := s.cursor.toMark
          required := !s.inFlow && s.indent == s.cursor.column && atBlock } :: s.keys.drop 1 }
  else s

def dropKey? (s : Scan) : Option Scan :=
  match s.keys with
  | k :: rest =>
    if k.possible && k.required then none
    else some { s with keys := { k with possible := false } :: rest }
  | [] => some s

/-- Whether a key that starts there can no longer end: outside of brackets it is on one line and
no longer than 1024 characters. -/
def isStale (now : Mark) (k : KeyStart) : Bool :=
  k.possible && (k.mark.line < now.line || k.mark.index + 1024 < now.index)

def dropStale? (s : Scan) : Option Scan :=
  let stale := isStale s.cursor.toMark
  let keys := s.keys.map fun k => { k with possible := k.possible && !stale k }
  if s.inFlow then some s
  else if s.keys.any (fun k => stale k && k.required) then none
  else some { s with keys := keys }

/-! ## Tokens -/

def documentMark? (s : Scan) (t : Token) : Option Scan := do
  let s ← (s.endBlocks (-1)).dropKey?
  return { s.push t with cursor := s.cursor.advance 3, keyAllowed := false }

def documentEnd? (s : Scan) : Option Scan := do
  let s ← s.documentMark? .documentEnd
  let (_, c) ← s.cursor.gaps?
  if atLineEnd c.rest then return { s with cursor := c } else none

def directiveToken? (s : Scan) : Option Scan := do
  let s ← (s.endBlocks (-1)).dropKey?
  let (t, c) ← directive? s.cursor
  return { s.push t with cursor := c, keyAllowed := false }

def pastMark? (s : Scan) : Option Scan :=
  (s.cursor.advance 1).gaps?.map fun (_, c) => { s with cursor := c }

/-- At most 255 brackets may be open. -/
def openFlow? (s : Scan) (t : Token) : Option Scan := do
  let s := s.saveKey.indentOnce
  if 255 ≤ s.flowLevel then none
  let s : Scan := { s with
    keys := {} :: s.keys, flowLevel := s.flowLevel + 1, keyAllowed := true
    mappingMet := s.mappingMet || t == .flowMapping }
  return (← s.pastMark?).push t

def endPair (s : Scan) : Scan :=
  if s.inPair then { s.push .flowMappingEnd with inPair := false, mappingMet := false } else s

def closeFlow? (s : Scan) (t : Token) : Option Scan := do
  let s ← s.dropKey?
  let s := if s.inFlow then { s with flowLevel := s.flowLevel - 1, keys := s.keys.drop 1 } else s
  let s ← ({ s with keyAllowed := false } : Scan).endPair.pastMark?
  let s := if s.inFlow then { s with adjacentAt := s.cursor.index } else s
  return s.push t

def flowEntry? (s : Scan) : Option Scan := do
  let s ← s.dropKey?
  return (← ({ s with keyAllowed := true } : Scan).endPair.pastMark?).push .flowEntry

def blockEntry? (s : Scan) : Option Scan := do
  if s.inFlow || !s.keyAllowed then none
  let s := { s.beginBlock s.cursor.column s.tokens.size .blockSequence with
    cursor := s.cursor.advance 1 }
  let (g, c) ← s.cursor.gaps?
  let dash := match c.rest with
    | '-' :: rest => atGap rest
    | _ => false
  if g.tab && dash then none
  let s : Scan := { s with cursor := c }
  let s := match c.rest with
    | x :: _ => if x = '\n' || isFlowMark x then s.indentOnce else s
    | [] => s
  let s ← s.dropKey?
  return { s.push .blockEntry with keyAllowed := true }

/-- Past blanks, comments and line ends, of which there is one at least, and a tab is none. -/
def afterKeyMarkFuel : Nat → Bool → Cursor → Bool × Cursor
  | 0, found, c => (found, c)
  | fuel + 1, found, c =>
    match c.rest with
    | ' ' :: _ => afterKeyMarkFuel fuel true c.gap
    | '\n' :: _ => afterKeyMarkFuel fuel true c.turn
    | '#' :: _ => afterKeyMarkFuel fuel found c.comment
    | _ => (found, c)

def keyMark? (s : Scan) : Option Scan := do
  if !s.inFlow && !s.keyAllowed then none
  let s := if s.inFlow then { s with mappingMet := true }
    else s.beginBlock s.cursor.column s.tokens.size .blockMapping
  let s ← s.dropKey?
  let (found, c) := afterKeyMarkFuel s.cursor.rest.length false (s.cursor.advance 1)
  if !found || c.rest.head? == some '\t' then none
  return { s.push .key with cursor := c, keyAllowed := !s.inFlow }

/-- Past the colon before a value. After a tab alone no word may follow. -/
def pastColon? (c : Cursor) : Option Cursor :=
  let d := c.advance 1
  match d.rest with
  | '\t' :: _ => d.gaps?.bind fun (g, e) =>
    if !g.space && e.rest.head?.any isWordChar then none else some e
  | _ => some d

def valueOfKey? (s : Scan) (k : KeyStart) (line : Nat) : Option Scan := do
  let s := s.putBefore k.token .key
  if s.inPair && k.mark.line < line then none
  let s := if s.inPair then s.putBefore k.token .flowMapping else s
  let s := (s.beginBlock k.mark.column k.token .blockMapping).indentOnce
  return { s with keys := { k with possible := false } :: s.keys.drop 1, keyAllowed := false }

def valueAlone? (s : Scan) (column : Nat) : Option Scan := do
  let s := if s.inPair then s.push .flowMapping else s
  if s.inFlow then return { s with keyAllowed := false }
  if !s.keyAllowed then none
  return { (s.beginBlock column s.tokens.size .blockMapping).indentOnce with keyAllowed := true }

def value? (s : Scan) : Option Scan := do
  let start := s.cursor.toMark
  let s := { s with inPair := s.inFlow && !s.mappingMet, cursor := ← pastColon? s.cursor }
  let s ← match s.keys.head?.filter (·.possible) with
    | some k => s.valueOfKey? k start.line
    | none => s.valueAlone? start.column
  return s.push .value

def startOfKey (s : Scan) : Scan := { s.saveKey with keyAllowed := false }

def anchorToken? (s : Scan) (t : String → Token) : Option Scan :=
  (anchorName? s.cursor).map fun (name, c) => { s.startOfKey.push (t name) with cursor := c }

def tagToken? (s : Scan) : Option Scan :=
  (Yaml.tag? s.inFlow s.cursor).map fun (t, c) => { s.startOfKey.push (.tag t) with cursor := c }

def blockToken? (s : Scan) : Option Scan := do
  let s := s.saveKey.unindentOnce
  let (text, c) ← block? s.indent s.cursor
  return { s.push (.scalar false text) with cursor := c, keyAllowed := true }

/-- Within brackets, and in a block a column further in than it, or anywhere outside of them. -/
def tabLimit (s : Scan) : Option Int := if s.indents.isEmpty then none else some s.indent

def toToken? (s : Scan) : Option Scan :=
  (s.cursor.toToken? s.tabLimit).map fun (turned, c) =>
    { s with cursor := c, keyAllowed := s.keyAllowed || (turned && !s.inFlow) }

def quotedToken? (s : Scan) : Option Scan := do
  let (text, c) ← quoted? s.inFlow s.indent s.cursor
  let s ← ({ s.startOfKey with cursor := c } : Scan).toToken?
  return { s.push (.scalar false text) with adjacentAt := s.cursor.index }

def plainToken? (s : Scan) : Option Scan := do
  let s := s.startOfKey.unindentOnce
  let (text, c) ← plain? s.inFlow s.indent s.cursor
  return { s.push (.scalar true text) with cursor := c, keyAllowed := s.keyAllowed || c.fresh }

def atValue (s : Scan) (rest : List Char) : Bool :=
  atGap rest || (s.inFlow && (rest.head?.any isFlowMark || s.cursor.index == s.adjacentAt))

def token? (s : Scan) : Option Scan :=
  let c := s.cursor
  match c.rest with
  | [] => none
  | x :: rest =>
    if c.column = 0 && x = '%' then s.directiveToken?
    else if c.betweenDocuments then
      if x = '-' then s.documentMark? .documentStart else s.documentEnd?
    else if (c.column : Int) < s.indent || "%@`".toList.contains x then none
    else match x with
      | '[' => s.openFlow? .flowSequence
      | '{' => s.openFlow? .flowMapping
      | ']' => s.closeFlow? .flowSequenceEnd
      | '}' => s.closeFlow? .flowMappingEnd
      | ',' => s.flowEntry?
      | '*' => s.anchorToken? .alias
      | '&' => s.anchorToken? .anchor
      | '!' => s.tagToken?
      | '\'' | '"' => s.quotedToken?
      | '-' => if atGap rest then s.blockEntry? else s.plainToken?
      | '?' => if atGap rest then s.keyMark? else s.plainToken?
      | ':' => if s.atValue rest then s.value? else s.plainToken?
      | '|' | '>' => if s.inFlow then s.plainToken? else s.blockToken?
      | _ => s.plainToken?

def finish? (s : Scan) : Option (List Token) :=
  if s.keys.any (fun k => k.possible && k.required) then none
  else some (s.endBlocks (-1)).tokens.toList

def runFuel? : Nat → Scan → Option (List Token)
  | 0, _ => none
  | fuel + 1, s => do
    let s ← (← s.toToken?).dropStale?
    let s := s.endBlocks s.cursor.column
    if s.cursor.atEnd then s.finish? else runFuel? fuel (← s.token?)

end Scan

/-- Lines end at CR LF, at CR and at LF; a NUL ends the text. -/
def withLineFeeds : List Char → List Char
  | [] => []
  | '\x00' :: _ => []
  | '\r' :: '\n' :: rest => '\n' :: withLineFeeds rest
  | '\r' :: rest => '\n' :: withLineFeeds rest
  | c :: rest => c :: withLineFeeds rest

def tokens? (text : String) : Option (List Token) :=
  let chars := withLineFeeds text.toList
  Scan.runFuel? (chars.length + 1) { cursor := { rest := chars } }

end SubscriptionGateway.Yaml
