import SubscriptionGateway.Log.Filter
import SubscriptionGateway.Server.Address
import SubscriptionGateway.Server.Construction
import SubscriptionGateway.Settings.EnvironmentFile
import SubscriptionGateway.Settings.Loading

/-!
The server as a program: it takes in a file of variables, loads its settings, builds a server and
serves until it is told to stop. What it says of that goes to its log, its complaints to the
standard error.
-/
namespace SubscriptionGateway.Server

structure Run where
  log : List Log.Line := []
  complaints : List String := []
  served : Bool := false
  code : Nat := 0

/-- The standard error line by line, without blank lines and the blanks around lines. -/
def Run.errorLines (r : Run) : List String :=
  ((r.complaints.flatMap (·.splitOn "\n")).map fun l => String.ofList (Text.trim l.toList)).filter
    (· ≠ "")

namespace Program

structure Surroundings where
  environment : EnvironmentFile.Variables
  variableFile? : Option String := none
  files : String → Option String
  /-- The address that listening at one comes to. -/
  bound : Address → String

def defaultPath : String := "config.yaml"

def readVariables (s : Surroundings) : EnvironmentFile.Variables × List String :=
  let warning (detail : String) := "Warning: Could not load .env file: " ++ detail
  match s.variableFile? with
  | none => (s.environment, [warning "path not found"])
  | some text =>
    let r := EnvironmentFile.read s.environment text
    (r.environment, r.error?.toList.map fun e => warning e.message)

def loadFailure (path : String) (f : Fault) : List String :=
  ["Error: failed to load configuration from " ++ path, "Caused by:", f.message]

def failure (f : Fault) : List String := ["Error: " ++ f.message]

def banner (path : String) (s : Settings) : List Log.Line :=
  ["🚀 Starting Event Router...", "=====================================",
    "Config: " ++ path, "Listen: " ++ s.listenAddress,
    "Providers: " ++ toString s.providers.length, "Event fields: " ++ toString s.events.length,
    "Readiness polling: " ++ match s.engine.readStrategy with
      | .evented => "evented"
      | .deadline ms => "read deadline " ++ toString ms ++ "ms"].map Log.Line.own

def line (message : String) : Log.Line := { message := message }

def loaded (s : Settings) (h : Broker.Hub) : Log.Line :=
  { message := "📋 Events catalog loaded"
    values := [("fields", toString s.catalog.size),
      ("providers", Log.Line.quotedList h.providerIds)] }

def listening (address : String) (blocked : Bool) : List Log.Line :=
  [line ("🚀 Event router listening on http://" ++ address),
    line ("📡 GraphQL WebSocket: ws://" ++ address ++ "/graphql"),
    line ("🌊 GraphQL SSE: POST http://" ++ address ++ "/graphql"),
    line ("📊 Subscription health: http://" ++ address ++ "/health/subscriptions")] ++
  if blocked then
    [{ level := .warn, message := "⛔ Subscriptions are blocked by configuration" }] else []

def stopping : List Log.Line :=
  [line "🛑 Shutdown requested, draining subscriptions",
    { message := "🛑 Subscription registry shut down", values := [("subscriptions", "0")] },
    line "👋 Event router stopped"]

def serve (bound : Address → String) (s : Settings) : Run :=
  let messages : Broker.Server := { up := false }
  let connecting := Log.Line.connecting { server := messages } s.providers
  match Server.build s { messages := messages } with
  | .error f => { log := connecting, complaints := failure f, code := 1 }
  | .ok server =>
    let log := connecting ++ [loaded s server.engine.hub]
    match Address.find s.listenAddress with
    | .error e => { log := log, complaints := failure e.fault, code := 1 }
    | .ok address =>
      { log := log ++ listening (bound address) server.blocked ++ stopping, served := true }

def run (around : Surroundings) : Run :=
  let (environment, complaints) := readVariables around
  let path := (EnvironmentFile.lookup environment "CONFIG_PATH").getD defaultPath
  match Settings.load (FileName.settings? around.files path) environment with
  | .error f => { complaints := complaints ++ loadFailure path f, code := 1 }
  | .ok s =>
    let (filter, ignored) :=
      Log.Filter.choose (EnvironmentFile.lookup environment "RUST_LOG") s.logLevel
    let r := serve around.bound s
    { r with
      log := (banner path s ++ r.log).filter filter.passes
      complaints := complaints ++ ignored ++ r.complaints }

end Program

end SubscriptionGateway.Server
