import SubscriptionGateway.CommandLine.Options
import SubscriptionGateway.Number.Double

/-!
What the administration command is asked to do: list the providers, create or delete a topic, or
publish a payload.
-/
namespace SubscriptionGateway.Administration

open CommandLine

inductive Task where
  | providers
  | createTopic (topic : String) (partitions replication : Int)
  | deleteTopic (topic : String) (confirmed : Bool)
  | produce (topic : String) (payload? file? : Option String) (count : Nat)
  deriving DecidableEq, Repr

structure Invocation where
  settingsPath : String
  /-- The first provider when there is none. -/
  provider? : Option String := none
  verbose : Bool := false
  task : Task
  deriving DecidableEq, Repr

namespace Invocation

def anyText : Kind := .valued fun _ => true

def help : OptionForm := { name := "help", letter? := some 'h', kind := .information }

def grammar : Grammar :=
  { options := [help, { name := "version", letter? := some 'V', kind := .information },
      { name := "config", kind := anyText },
      { name := "provider", letter? := some 'p', kind := anyText },
      { name := "verbose", letter? := some 'v', kind := .flag }]
    places := 0
    hasCommand := true }

def isInt32 (s : String) : Bool := (Written.int32? s.toList).isSome

def word32? (s : String) : Option Nat :=
  (Written.intWithin? 10 0 ((Nat.pow 2 32 : Nat) - 1) s.toList).map Int.toNat

def isWord32 (s : String) : Bool := (word32? s).isSome

def tasks : List (String × Grammar) :=
  [("providers", { options := [help], places := 0 }),
    ("create-topic", { options := [help, { name := "partitions", kind := .valued isInt32 },
      { name := "replication", kind := .valued isInt32 }], places := 1 }),
    ("delete-topic", { options := [help, { name := "confirm", kind := .flag }], places := 1 }),
    ("produce", { options := [help, { name := "file", kind := anyText },
      { name := "count", kind := .valued isWord32 }], places := 2 })]

def integer (a : Arguments) (name : String) : Int :=
  ((a.value? name).bind fun s => Written.int32? s.toList).getD 1

def count (a : Arguments) : Nat :=
  ((a.value? "count").bind word32?).getD 1

def task? (name : String) (a : Arguments) : Option Task :=
  match name, a.places with
  | "providers", [] => some .providers
  | "create-topic", [topic] =>
    some (.createTopic topic (integer a "partitions") (integer a "replication"))
  | "delete-topic", [topic] => some (.deleteTopic topic (a.hasFlag "confirm"))
  | "produce", [topic] => some (.produce topic none (a.value? "file") (count a))
  | "produce", [topic, payload] =>
    if (a.value? "file").isSome then none else some (.produce topic (some payload) none (count a))
  | _, _ => none

def helpOn (topics : List String) : Stop :=
  match topics with
  | [] => .information
  | [name] => if name == "help" || tasks.any (·.1 == name) then .information else .misuse
  | _ => .misuse

def readTask (name : String) (arguments : List String) : Except Stop Task :=
  if name = "help" then .error (helpOn arguments)
  else match tasks.find? (·.1 == name) with
    | none => .error .misuse
    | some (_, g) =>
      match g.read arguments with
      | .error e => .error e
      | .ok a => (task? name a).elim (.error .misuse) .ok

/-- What the arguments ask for; `path` is where the settings are unless the arguments say. -/
def parse (path : String) (arguments : List String) : Except Stop Invocation :=
  match grammar.read arguments with
  | .error e => .error e
  | .ok a =>
    match a.command? with
    | none => .error .misuse
    | some (name, rest) => (readTask name rest).map fun task =>
      { settingsPath := (a.value? "config").getD path, provider? := a.value? "provider"
        verbose := a.hasFlag "verbose", task := task }

end Invocation

end SubscriptionGateway.Administration
