import SubscriptionGateway.Text.Blank
import SubscriptionGateway.Text.CharacterClass

/-!
Files of variables, one `NAME=value` a line. Values may be quoted and may call in other variables;
what the environment already holds is never changed.
-/
namespace SubscriptionGateway.EnvironmentFile

abbrev Variables := List (String × String)

def lookup (vs : Variables) (name : String) : Option String := (vs.find? (·.1 == name)).map (·.2)

structure LineError where
  line : String
  column : Nat
  deriving DecidableEq, Repr

def LineError.message (e : LineError) : String :=
  "Error parsing line: '" ++ e.line ++ "', error at line index: " ++ toString e.column

/-! ## Values -/

inductive Quote where
  | none
  | single
  | double
  deriving DecidableEq, Repr

inductive Mode where
  | plain
  | escaped
  /-- In the name of another variable, backwards so far. -/
  | name (reversed : List Char)
  | braced (reversed : List Char)
  /-- After the value: only blanks and a comment may follow. -/
  | finished
  deriving DecidableEq, Repr

structure ValueState where
  quote : Quote := .none
  mode : Mode := .plain
  text : List Char := []

namespace ValueState

def push (s : ValueState) (c : Char) : ValueState := { s with text := c :: s.text }

def callIn (s : ValueState) (value : String → Option String) (reversed : List Char) : ValueState :=
  { s with mode := .plain,
           text := ((value (String.ofList reversed.reverse)).getD "").toList.reverse ++ s.text }

def plainStep (s : ValueState) (c : Char) : ValueState :=
  if s.quote = .single then if c = '\'' then { s with quote := .none } else s.push c
  else if c = '$' then { s with mode := .name [] }
  else if c = '\\' then { s with mode := .escaped }
  else if s.quote = .double then if c = '"' then { s with quote := .none } else s.push c
  else if c = '\'' then { s with quote := .single }
  else if c = '"' then { s with quote := .double }
  else if c = ' ' || c = '\t' then { s with mode := .finished }
  else s.push c

/-- One character of a value; none when it may not stand there. -/
def step? (value : String → Option String) (s : ValueState) (c : Char) : Option ValueState :=
  match s.mode with
  | .plain => some (s.plainStep c)
  | .escaped =>
    if c = 'n' then some { s.push '\n' with mode := .plain }
    else if "\\'\"$ ".toList.contains c then some { s.push c with mode := .plain }
    else none
  | .name r =>
    if Text.isAlphanumeric c then some { s with mode := .name (c :: r) }
    else if c = '{' && r.isEmpty then some { s with mode := .braced [] }
    else if c = '$' then some { s.callIn value r with mode := .name [] }
    else some ((s.callIn value r).push c)
  | .braced r =>
    if c = '}' then some (s.callIn value r) else some { s with mode := .braced (c :: r) }
  | .finished => if c = ' ' || c = '\t' then some s else none

def run (value : String → Option String) : ValueState → (column : Nat) → List Char →
    Except Nat ValueState
  | s, _, [] => .ok s
  | s, column, c :: rest =>
    if s.mode = .finished && c = '#' then .ok s
    else match s.step? value c with
      | some s => run value s (column + 1) rest
      | none => .error column

end ValueState

def value (lookup : String → Option String) (cs : List Char) : Except LineError String :=
  let fail (column : Nat) : LineError := ⟨String.ofList cs, column⟩
  match ValueState.run lookup {} 0 cs with
  | .error column => .error (fail column)
  | .ok s =>
    let whole (s : ValueState) : Except LineError String :=
      if s.quote = .none then .ok (String.ofList s.text.reverse)
      else .error (fail ((String.ofList cs).utf8ByteSize - 1))
    match s.mode with
    | .braced _ => .error (fail ((String.ofList cs).utf8ByteSize - 1))
    | .name r => whole (s.callIn lookup r)
    | _ => whole s

/-! ## Lines -/

def isNameStart (c : Char) : Bool := c.isAlpha || c == '_'

def isNamePart (c : Char) : Bool := c.isAlphanum || c == '_' || c == '.'

def name? (cs : List Char) : Option (String × List Char) :=
  if (cs.head?.map isNameStart).getD false then
    some (String.ofList (cs.takeWhile isNamePart),
      (cs.dropWhile isNamePart).dropWhile Text.isBlank)
  else none

def afterEquals? (cs : List Char) : Option (List Char) := Text.after? ['='] cs

def size (cs : List Char) : Nat := (String.ofList cs).utf8ByteSize

def assignment? (cs : List Char) : Except (List Char) (String × List Char) :=
  match name? cs with
  | none => .error cs
  | some (name, rest) =>
    match afterEquals? rest with
    | some value => .ok (name, value)
    | none =>
      if name = "export" then
        match name? rest with
        | none => .error rest
        | some (name, rest) => match afterEquals? rest with
          | some value => .ok (name, value)
          | none => .error rest
      else .error rest

def ofLine? (lookup : String → Option String) (line : String) :
    Except LineError (Option (String × String)) :=
  let all := (line.toList.reverse.dropWhile Text.isBlank).reverse
  let cs := all.dropWhile Text.isBlank
  if cs.isEmpty || cs.head? == some '#' then .ok none
  else match assignment? cs with
    | .error rest => .error ⟨line, size all - size rest⟩
    | .ok (name, rest) =>
      let rest := rest.dropWhile Text.isBlank
      if rest.isEmpty || rest.head? == some '#' then .ok (some (name, ""))
      else (value lookup rest).map fun v => some (name, v)

/-! ## Files -/

structure Reading where
  environment : Variables
  /-- What the file said, of use to later lines of it. -/
  said : Variables := []
  error? : Option LineError := none

def Reading.lookup (r : Reading) (name : String) : Option String :=
  (EnvironmentFile.lookup r.environment name).or (EnvironmentFile.lookup r.said name)

def Reading.add (r : Reading) (name value : String) : Reading :=
  { r with
    environment :=
      if (EnvironmentFile.lookup r.environment name).isSome then r.environment
      else r.environment ++ [(name, value)]
    said := (name, value) :: r.said }

/-- Reading ends at the first line that cannot be read; what was read before stays. -/
def readLines (r : Reading) : List String → Reading
  | [] => r
  | line :: rest =>
    match ofLine? r.lookup line with
    | .error e => { r with error? := some e }
    | .ok none => readLines r rest
    | .ok (some (name, value)) => readLines (r.add name value) rest

def withoutReturn (line : String) : String :=
  match line.toList.reverse with
  | '\r' :: rest => String.ofList rest.reverse
  | _ => line

/-- Lines end at LF, maybe after a CR. What follows the last LF is taken as it is. -/
def linesOf (text : String) : List String :=
  let pieces := text.splitOn "\n"
  pieces.dropLast.map withoutReturn ++ pieces.getLast?.toList

def read (environment : Variables) (text : String) : Reading :=
  readLines { environment := environment } (linesOf text)

end SubscriptionGateway.EnvironmentFile
