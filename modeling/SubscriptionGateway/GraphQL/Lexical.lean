import SubscriptionGateway.GraphQL.Document
import SubscriptionGateway.Json.Reader
import SubscriptionGateway.Text.Blank

/-!
The tokens of GraphQL: what is ignored between them, names, numerals, strings and types. A keyword
is recognised by its letters alone and may run into the next name.
-/
namespace SubscriptionGateway.GraphQL

def isLineEnd (c : Char) : Bool := c == '\n' || c == '\r'

def isIgnored (c : Char) : Bool :=
  c == ' ' || c == ',' || c == '\t' || c == '\uFEFF' || isLineEnd c

def skipFrom : Bool → List Char → List Char
  | _, [] => []
  | true, c :: rest => skipFrom (!isLineEnd c) rest
  | false, c :: rest =>
    if c = '#' then skipFrom true rest
    else if isIgnored c then skipFrom false rest
    else c :: rest

def skip (cs : List Char) : List Char := skipFrom false cs

def isNameStart (c : Char) : Bool := c.isAlpha || c == '_'

def isNamePart (c : Char) : Bool := c.isAlphanum || c == '_'

def scanName : List Char → Option (String × List Char)
  | c :: rest =>
    if isNameStart c then
      some (String.ofList (c :: rest.takeWhile isNamePart), rest.dropWhile isNamePart)
    else none
  | [] => none

def name? (cs : List Char) : Option (String × List Char) := scanName (skip cs)

def mark? (mark : Char) (cs : List Char) : Option (List Char) :=
  match skip cs with
  | c :: rest => if c = mark then some rest else none
  | [] => none

/-- What follows the word that comes next, which may go on as another name. -/
def word? (word : String) (cs : List Char) : Option (List Char) :=
  Text.after? word.toList (skip cs)

/-! ## Strings -/

def indentation (line : List Char) : Option Nat :=
  let n := (line.takeWhile (fun c => c == ' ' || c == '\t')).length
  if n < line.length then some n else none

def hasContent (line : List Char) : Bool := (indentation line).isSome

def lines : List Char → List (List Char)
  | [] => [[]]
  | '\r' :: '\n' :: rest => [] :: lines rest
  | c :: rest =>
    if isLineEnd c then [] :: lines rest
    else match lines rest with
      | line :: more => (c :: line) :: more
      | [] => [[c]]

def joinLines : List (List Char) → List Char
  | [] => []
  | [line] => line
  | line :: more => line ++ '\n' :: joinLines more

/-- The lines of a block string without their common indentation, the first line excepted, and
without the empty lines at either end. -/
def dedent (raw : List Char) : List Char :=
  let all := lines raw
  let common := ((all.drop 1).filterMap indentation).min?.getD 0
  let cut := all.take 1 ++ (all.drop 1).map (fun line =>
    if common ≤ line.length then line.drop common else line)
  let flags := all.map hasContent
  let start := (flags.takeWhile (!·)).length
  let stop := flags.length - (flags.reverse.takeWhile (!·)).length
  joinLines ((cut.take stop).drop start)

/-- The text up to three quotes that no backslash precedes. -/
def scanBlock : List Char → Option (List Char × List Char)
  | [] => none
  | '\\' :: '"' :: '"' :: '"' :: rest =>
    (scanBlock rest).map fun (raw, rest) => ('\\' :: '"' :: '"' :: '"' :: raw, rest)
  | '"' :: '"' :: '"' :: rest => some ([], rest)
  | c :: rest => (scanBlock rest).map fun (raw, rest) => (c :: raw, rest)

/-- The rest of a string after its quote. An escaped code point may be any but a surrogate. -/
def scanPlain : List Char → Option (List Char × List Char)
  | [] => none
  | '"' :: rest => some ([], rest)
  | '\\' :: 'u' :: a :: b :: c :: d :: rest =>
    match Form.hex4? a b c d, scanPlain rest with
    | some n, some (s, rest) =>
      if 0xD800 ≤ n && n < 0xE000 then none else some (Char.ofNat n :: s, rest)
    | _, _ => none
  | '\\' :: c :: rest =>
    match Form.plainEscape? c, scanPlain rest with
    | some c, some (s, rest) => some (c :: s, rest)
    | _, _ => none
  | c :: rest =>
    if isLineEnd c || c == '\\' then none
    else (scanPlain rest).map fun (s, rest) => (c :: s, rest)

/-- A string after its first quote. Three quotes that nothing closes are an empty string. -/
def scanString (cs : List Char) : Option (String × List Char) :=
  let block := (Text.after? ['"', '"'] cs).bind scanBlock
  ((block.map fun (raw, rest) => (dedent raw, rest)).or (scanPlain cs)).map fun (s, rest) =>
    (String.ofList s, rest)

/-! ## Numerals and types -/

def scanNumber (cs : List Char) : Option (Literal × List Char) :=
  match Numeral.scan cs with
  | some (n, rest) =>
    if (rest.head?.map isNameStart).getD false then none
    else some ((n.value?.map Literal.number).getD .beyondRange, rest)
  | none => none

def dropBang : List Char → List Char
  | '!' :: rest => rest
  | cs => cs

def closeBrackets : Nat → List Char → Option (List Char)
  | 0, cs => some cs
  | n + 1, ']' :: rest => closeBrackets n (dropBang rest)
  | _ + 1, _ => none

/-- A type has no blanks inside; what it says is not needed here. -/
def scanType (cs : List Char) : Option (List Char) :=
  let depth := (cs.takeWhile (· == '[')).length
  match scanName (cs.drop depth) with
  | some (_, rest) => closeBrackets depth (dropBang rest)
  | none => none

end SubscriptionGateway.GraphQL
