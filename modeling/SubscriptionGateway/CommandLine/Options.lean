/-!
Arguments of commands. Options have a long name and maybe a letter; an option that takes a value
has it after an equals sign or in the next argument. Letters may stand together behind one dash.
Everything after two dashes alone is a plain argument.
-/
namespace SubscriptionGateway.CommandLine

inductive Stop where
  | information
  | misuse
  deriving DecidableEq, Repr

inductive Kind where
  | information
  | flag
  | valued (accepts : String → Bool)

structure OptionForm where
  name : String
  letter? : Option Char := none
  kind : Kind

structure Grammar where
  options : List OptionForm
  places : Nat
  hasCommand : Bool := false

structure Arguments where
  flags : List String := []
  values : List (String × String) := []
  places : List String := []
  command? : Option (String × List String) := none

namespace Arguments

def hasFlag (a : Arguments) (name : String) : Bool := a.flags.contains name

def value? (a : Arguments) (name : String) : Option String :=
  (a.values.find? (·.1 == name)).map (·.2)

end Arguments

namespace Grammar

def named? (g : Grammar) (name : String) : Option OptionForm := g.options.find? (·.name == name)

def lettered? (g : Grammar) (c : Char) : Option OptionForm :=
  g.options.find? (·.letter? == some c)

def takeFlag (a : Arguments) (o : OptionForm) : Except Stop Arguments :=
  if a.hasFlag o.name then .error .misuse else .ok { a with flags := o.name :: a.flags }

def takeValue (a : Arguments) (o : OptionForm) (value : String) : Except Stop Arguments :=
  match o.kind with
  | .valued accepts =>
    if (a.value? o.name).isSome || !accepts value then .error .misuse
    else .ok { a with values := (o.name, value) :: a.values }
  | _ => .error .misuse

def takePlace (g : Grammar) (a : Arguments) (value : String) : Except Stop Arguments :=
  if a.places.length < g.places then .ok { a with places := a.places ++ [value] }
  else .error .misuse

/-- An option by its long name, with a value if one is attached; an option that still waits for
its value comes with the answer. -/
def takeLong (g : Grammar) (a : Arguments) (name : String) (attached? : Option String) :
    Except Stop (Arguments × Option OptionForm) :=
  match g.named? name with
  | none => .error .misuse
  | some o =>
    match o.kind, attached? with
    | .information, none => .error .information
    | .flag, none => (takeFlag a o).map (·, none)
    | .valued _, none => .ok (a, some o)
    | .valued _, some v => (takeValue a o v).map (·, none)
    | _, some _ => .error .misuse

/-- Letters behind one dash. What follows the letter of an option with a value is the value. -/
def takeLetters (g : Grammar) : Arguments → List Char →
    Except Stop (Arguments × Option OptionForm)
  | a, [] => .ok (a, none)
  | a, c :: rest =>
    match g.lettered? c with
    | none => .error .misuse
    | some o =>
      match o.kind, rest with
      | .information, _ => .error .information
      | .flag, rest => match takeFlag a o with
        | .error e => .error e
        | .ok a => takeLetters g a rest
      | .valued _, [] => .ok (a, some o)
      | .valued _, '=' :: v => (takeValue a o (String.ofList v)).map (·, none)
      | .valued _, v => (takeValue a o (String.ofList v)).map (·, none)

def looksLikeOption (s : String) : Bool :=
  match s.toList with
  | '-' :: _ :: _ => true
  | _ => false

def takePlaces (g : Grammar) : Arguments → List String → Except Stop Arguments
  | a, [] => .ok a
  | a, s :: rest => match g.takePlace a s with
    | .error e => .error e
    | .ok a => takePlaces g a rest

def splitLong (cs : List Char) : String × Option String :=
  (String.ofList (cs.takeWhile (· != '=')),
    match cs.dropWhile (· != '=') with
    | _ :: value => some (String.ofList value)
    | [] => none)

def readFrom (g : Grammar) (a : Arguments) (waiting? : Option OptionForm) :
    List String → Except Stop Arguments
  | [] => if waiting?.isSome then .error .misuse else .ok a
  | s :: rest =>
    match waiting? with
    | some o =>
      if looksLikeOption s then .error .misuse
      else match takeValue a o s with
        | .error e => .error e
        | .ok a => readFrom g a none rest
    | none =>
      match s.toList with
      | ['-', '-'] => takePlaces g a rest
      | '-' :: '-' :: cs =>
        let (name, attached?) := splitLong cs
        match g.takeLong a name attached? with
        | .error e => .error e
        | .ok (a, waiting?) => readFrom g a waiting? rest
      | '-' :: c :: cs => match g.takeLetters a (c :: cs) with
        | .error e => .error e
        | .ok (a, waiting?) => readFrom g a waiting? rest
      | _ =>
        if g.hasCommand then .ok { a with command? := some (s, rest) }
        else match g.takePlace a s with
          | .error e => .error e
          | .ok a => readFrom g a none rest

def read (g : Grammar) (arguments : List String) : Except Stop Arguments :=
  g.readFrom {} none arguments

end Grammar

end SubscriptionGateway.CommandLine
