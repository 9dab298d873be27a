/-!
A place in a YAML text. Indentation is told by columns and the length of a key by characters, so
every move keeps count of both. Texts are read with their line ends as `\n`.
-/
namespace SubscriptionGateway.Yaml

structure Mark where
  index : Nat := 0
  line : Nat := 0
  column : Nat := 0
  deriving DecidableEq, Repr

structure Cursor extends Mark where
  rest : List Char
  /-- Only blanks stand before on this line. -/
  fresh : Bool := true

/-! ## Characters -/

def isGap (c : Char) : Bool := c == ' ' || c == '\t'

def isFlowMark (c : Char) : Bool := c == ',' || c == '[' || c == ']' || c == '{' || c == '}'

def isWordChar (c : Char) : Bool := c.isAlphanum || c == '_' || c == '-'

def atLineEnd : List Char → Bool
  | [] => true
  | c :: _ => c == '\n'

/-- Whether a token may end here: at a blank or a line's end. -/
def atGap : List Char → Bool
  | [] => true
  | c :: _ => isGap c || c == '\n'

def endsKey (flow : Bool) : List Char → Bool
  | [] => true
  | c :: _ => isGap c || c == '\n' || (flow && isFlowMark c)

def goesOn (flow : Bool) : List Char → Bool
  | [] => false
  | c :: rest => !(c == ':' && endsKey flow rest) && !(flow && isFlowMark c)

def atDocumentMark : List Char → Bool
  | '-' :: '-' :: '-' :: rest => atGap rest
  | '.' :: '.' :: '.' :: rest => atGap rest
  | _ => false

namespace Cursor

/-! ## Moves -/

def gap (c : Cursor) : Cursor :=
  { c with rest := c.rest.drop 1, index := c.index + 1, column := c.column + 1 }

def advance (c : Cursor) (n : Nat) : Cursor :=
  { c with rest := c.rest.drop n, index := c.index + n, column := c.column + n, fresh := false }

def span (p : Char → Bool) (c : Cursor) : List Char × Cursor :=
  match c.rest.takeWhile p with
  | [] => ([], c)
  | taken => (taken, c.advance taken.length)

def turn (c : Cursor) : Cursor :=
  { rest := c.rest.drop 1, index := c.index + 1, line := c.line + 1, column := 0, fresh := true }

def atEnd (c : Cursor) : Bool := c.rest.isEmpty

def betweenDocuments (c : Cursor) : Bool := c.column == 0 && atDocumentMark c.rest

structure Gaps where
  tab : Bool := false
  space : Bool := false

def gapsFuel : Nat → Gaps → Cursor → Gaps × Cursor
  | 0, g, c => (g, c)
  | fuel + 1, g, c =>
    match c.rest with
    | ' ' :: _ => gapsFuel fuel { g with space := true } c.gap
    | '\t' :: _ => gapsFuel fuel { g with tab := true } c.gap
    | _ => (g, c)

def comment (c : Cursor) : Cursor := (c.span (· != '\n')).2

def gaps? (c : Cursor) : Option (Gaps × Cursor) :=
  let (g, d) := gapsFuel c.rest.length {} c
  match d.rest with
  | '#' :: _ => if g.tab || g.space then some (g, d.comment) else none
  | _ => some (g, d)

/-- Past blanks, comments and line ends; whether there was a line end. A tab may not be a part of
`indent` columns on a line that holds more. -/
def toTokenFuel? (indent : Option Int) : Nat → Bool → Cursor → Option (Bool × Cursor)
  | 0, turned, c => some (turned, c)
  | fuel + 1, turned, c =>
    match c.rest with
    | '\t' :: _ =>
      if c.fresh && (match indent with
          | some n => decide ((c.column : Int) < n)
          | none => false) then do
        let (_, d) ← c.gaps?
        if atLineEnd d.rest then toTokenFuel? indent fuel turned d else none
      else toTokenFuel? indent fuel turned c.gap
    | ' ' :: _ => toTokenFuel? indent fuel turned c.gap
    | '\n' :: _ => toTokenFuel? indent fuel true c.turn
    | '#' :: _ => toTokenFuel? indent fuel turned c.comment
    | _ => some (turned, c)

def toToken? (indent : Option Int) (c : Cursor) : Option (Bool × Cursor) :=
  toTokenFuel? indent c.rest.length false c

end Cursor

/-! ## Line ends within a text -/

structure Between where
  blanks : List Char := []
  turned : Bool := false
  more : Nat := 0

/-- On one line the blanks count; of one line end comes a blank, of several all but one stay. -/
def Between.chars (b : Between) (onLaterLine : Bool) : List Char :=
  if onLaterLine then
    if b.turned && b.more == 0 then [' '] else List.replicate b.more '\n'
  else b.blanks.reverse

def Between.turn (b : Between) (onLaterLine : Bool) : Between :=
  if onLaterLine then { b with more := b.more + 1 } else { b with blanks := [], turned := true }

end SubscriptionGateway.Yaml
