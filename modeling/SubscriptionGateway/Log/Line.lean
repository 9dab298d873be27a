import SubscriptionGateway.Broker.Connection
import SubscriptionGateway.Text.CharacterClass

/-!
What the programs log: a level, who speaks, a message and named values after it.
-/
namespace SubscriptionGateway.Log

inductive Level where
  | error
  | warn
  | info
  | debug
  | trace
  deriving DecidableEq, Repr

namespace Level

def all : List Level := [.error, .warn, .info, .debug, .trace]

def word : Level → String
  | .error => "ERROR"
  | .warn => "WARN"
  | .info => "INFO"
  | .debug => "DEBUG"
  | .trace => "TRACE"

def rank : Level → Nat
  | .error => 1
  | .warn => 2
  | .info => 3
  | .debug => 4
  | .trace => 5

end Level

inductive Speaker where
  | program
  | router
  deriving DecidableEq, Repr

def Speaker.target : Speaker → String
  | .program => "router"
  | .router => "event_router"

structure Line where
  level : Level := .info
  speaker : Speaker := .router
  message : String
  values : List (String × String) := []
  deriving DecidableEq

namespace Line

def codePoint (c : Char) : List Char :=
  "\\u\x7b".toList ++ Nat.toDigits 16 c.toNat ++ ['\x7d']

/-- In messages the controls that terminals act on stand as texts. -/
def messageChar (c : Char) : List Char :=
  let n := c.toNat
  if n = 0x1B then "\\x1b".toList
  else if n = 0x07 then "\\x07".toList
  else if n = 0x08 then "\\x08".toList
  else if n = 0x0C then "\\x0c".toList
  else if n = 0x7F then "\\x7f".toList
  else if 0x80 ≤ n && n ≤ 0x9F then codePoint c
  else [c]

def text (l : Line) : String :=
  l.values.foldl (fun s (name, value) => s ++ " " ++ name ++ "=" ++ value)
    (l.level.word ++ " " ++ String.ofList (l.message.toList.flatMap messageChar))

def own (message : String) : Line := { speaker := .program, message := message }

/-! ## Texts within quotes -/

def quotedChar (c : Char) : List Char :=
  if c = '"' then ['\\', '"']
  else if c = '\\' then ['\\', '\\']
  else if c = '\n' then ['\\', 'n']
  else if c = '\r' then ['\\', 'r']
  else if c = '\t' then ['\\', 't']
  else if c = '\x00' then ['\\', '0']
  else if Text.isExtending c || Text.isUnseen c then codePoint c
  else [c]

def quoted (s : String) : String := String.ofList ('"' :: s.toList.flatMap quotedChar ++ ['"'])

def quotedList (ss : List String) : String :=
  "[" ++ ", ".intercalate (ss.map quoted) ++ "]"

/-! ## Providers -/

def connected (p : ProviderSettings) : List Line :=
  (match p.backend with
    | .nats => [{ message := "Connected to NATS"
                  values := [("provider", p.id), ("servers", ",".intercalate p.urls)] }]
    | _ => []) ++
  [{ message := "🔌 Event source ready"
     values := [("provider", p.id), ("backend", p.backend.word)] }]

/-- What is said while providers are connected, up to the first that cannot be. -/
def connecting (h : Broker.Hub) : List ProviderSettings → List Line
  | [] => []
  | p :: rest =>
    match h.connectProvider p with
    | .error _ => []
    | .ok h => connected p ++ connecting h rest

end Line

end SubscriptionGateway.Log
