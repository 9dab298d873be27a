import SubscriptionGateway.Yaml.Cursor

/-!
Scalars that are blocks of lines. The first line that holds something tells how far in the block
is, unless its header does; a folded block joins lines that are not further in.
-/
namespace SubscriptionGateway.Yaml

/-- What becomes of the line ends at the end of a block. -/
inductive Chomping where
  | strip
  | clip
  | keep
  deriving DecidableEq, Repr

structure BlockHeader where
  chomping : Chomping := .clip
  further? : Option Nat := none

def chomping? (x : Char) : Option Chomping :=
  if x = '+' then some .keep else if x = '-' then some .strip else none

/-- A mark for the line ends and a digit, in either order; either may be missing. -/
def blockHeader? (c : Cursor) : Option (BlockHeader × Cursor) :=
  let mark (c : Cursor) : Chomping × Cursor :=
    match c.rest.head?.bind chomping? with
    | some k => (k, c.advance 1)
    | none => (.clip, c)
  let digit? (c : Cursor) : Option (Option Nat × Cursor) :=
    match c.rest with
    | x :: _ =>
      if x = '0' then none
      else if x.isDigit then some (some (x.toNat - 48), c.advance 1) else some (none, c)
    | [] => some (none, c)
  match mark c with
  | (.clip, c) => (digit? c).map fun (n, c) =>
    if n.isSome then
      let (k, c) := mark c
      ({ chomping := k, further? := n }, c)
    else ({}, c)
  | (k, c) => (digit? c).map fun (n, c) => ({ chomping := k, further? := n }, c)

/-- Past empty lines and up to `indent` blanks of the next; how many empty lines. -/
def blockIndentFuel (indent : Nat) : Nat → Nat → Cursor → Nat × Cursor
  | 0, breaks, c => (breaks, c)
  | fuel + 1, breaks, c =>
    match c.rest with
    | ' ' :: _ =>
      if c.column < indent then blockIndentFuel indent fuel breaks c.gap else (breaks, c)
    | '\n' :: _ => blockIndentFuel indent fuel (breaks + 1) c.turn
    | _ => (breaks, c)

def blockIndent (indent : Nat) (c : Cursor) : Nat × Cursor :=
  blockIndentFuel indent c.rest.length 0 c

def firstIndentFuel : Nat → (furthest breaks : Nat) → Cursor → Nat × Nat × Cursor
  | 0, furthest, breaks, c => (max furthest c.column, breaks, c)
  | fuel + 1, furthest, breaks, c =>
    match c.rest with
    | ' ' :: _ => firstIndentFuel fuel furthest breaks c.gap
    | '\n' :: _ => firstIndentFuel fuel (max furthest c.column) (breaks + 1) c.turn
    | _ => (max furthest c.column, breaks, c)

def startsBlank (line : List Char) : Bool := line.head?.any isGap

def lineEnds (n : Nat) : List Char := List.replicate n '\n'

/-- What stands before a line: after an earlier line, and after so many empty ones. -/
def blockBetween (folded : Bool) (before? : Option (List Char)) (breaks : Nat)
    (line : List Char) : List Char :=
  match before? with
  | none => lineEnds breaks
  | some before =>
    if folded && !startsBlank before && !startsBlank line then
      if breaks = 0 then [' '] else lineEnds breaks
    else lineEnds (breaks + 1)

/-- The lines of a block and the empty ones after them. The flag tells whether the last line had
an end. -/
def blockLinesFuel (folded : Bool) (indent : Nat) :
    Nat → List Char → Option (List Char) → Nat → Cursor → List Char × Bool × Nat × Cursor
  | 0, text, _, breaks, c => (text, false, breaks, c)
  | fuel + 1, text, before?, breaks, c =>
    if c.column = indent && !c.atEnd then
      let line := c.rest.takeWhile (· != '\n')
      let text := text ++ blockBetween folded before? breaks line
      let d := c.advance line.length
      if d.atEnd then (text ++ line, false, 0, d)
      else
        let (breaks, d) := blockIndent indent d.turn
        blockLinesFuel folded indent fuel (text ++ line) (some line) breaks d
    else (text, before?.isSome, breaks, c)

def emptyBlock (chomping : Chomping) (sameLine hasEnd : Bool) (breaks : Nat) : List Char :=
  let first := lineEnds (if hasEnd then 1 else 0)
  match chomping with
  | .strip => []
  | .clip => if sameLine then [] else first
  | .keep => if sameLine then [] else if breaks = 0 then first else lineEnds breaks

def block? (indent : Int) (c : Cursor) : Option (String × Cursor) := do
  let folded := c.rest.head? == some '>'
  let (h, d) ← blockHeader? (c.advance 1)
  let (_, d) ← d.gaps?
  if !atLineEnd d.rest then none
  let hasEnd := !d.atEnd
  let d := if hasEnd then d.turn else d
  if d.rest.head? == some '\t' then none
  let (column, breaks, d) := match h.further? with
    | some n =>
      let column := if 0 ≤ indent then (indent + n).toNat else n
      (column, blockIndent column d)
    | none =>
      let (furthest, breaks, d) := firstIndentFuel d.rest.length 0 0 d
      let column := max furthest (indent + 1).toNat
      (if 0 < indent then max column 1 else column, breaks, d)
  if d.atEnd then
    return (String.ofList (emptyBlock h.chomping (d.line == c.line) hasEnd breaks), d)
  if d.column < column && indent < (d.column : Int) then none
  let (text, ended, breaks, d) := blockLinesFuel folded column d.rest.length [] none breaks d
  let last := (if ended then ['\n'] else []) ++
    if d.atEnd && max column 1 ≤ d.column then ['\n'] else []
  let tail := match h.chomping with
    | .strip => []
    | .clip => last
    | .keep => last ++ lineEnds breaks
  return (String.ofList (text ++ tail), d)

end SubscriptionGateway.Yaml
