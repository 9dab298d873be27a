import SubscriptionGateway.Administration.Invocation
import SubscriptionGateway.Server.Program

/-!
Carrying out an administration task against the providers in the settings. The exit code is 0 when
the task is done or was only asked about, 1 when it failed and 2 when the arguments are wrong.
-/
namespace SubscriptionGateway.Administration

open Server (Run)

abbrev Files := String → Option (List UInt8)

inductive Failure where
  | settings (path : String) (fault : Fault)
  | unknownProvider (id : String)
  | noProvider
  | noPayload
  | unreadable (path : String)
  | broker (fault : Fault)

def Failure.complaints : Failure → List String
  | .settings path f => Server.Program.loadFailure path f
  | .unknownProvider id => ["Error: provider '" ++ id ++ "' is not configured"]
  | .noProvider => ["Error: no providers configured"]
  | .noPayload => ["Error: either a payload or --file is required"]
  | .unreadable path => ["Error: failed to read payload file " ++ path]
  | .broker f => Server.Program.failure f

def report (log : List Log.Line) : Except Failure Unit → Run
  | .ok () => { log := log }
  | .error f => { log := log, complaints := f.complaints, code := 1 }

def listing (ps : List ProviderSettings) : List Log.Line :=
  if ps.isEmpty then [.own "No providers configured"]
  else ps.map fun p =>
    .own ("📡 " ++ p.id ++ " (" ++ p.backend.word ++ ") " ++ ",".intercalate p.urls)

def select (ps : List ProviderSettings) : Option String → Except Failure ProviderSettings
  | some id => match ps.find? (·.id == id) with
    | some p => .ok p
    | none => .error (.unknownProvider id)
  | none => match ps with
    | p :: _ => .ok p
    | [] => .error .noProvider

def payload (files : Files) : (payload? file? : Option String) → Except Failure (List UInt8)
  | some s, _ => .ok (Utf8.encode s)
  | none, some path => match FileName.find? files path with
    | some bytes => .ok bytes
    | none => .error (.unreadable path)
  | none, none => .error .noPayload

def publish (h : Broker.Hub) (p : Broker.Provider) (topic : String) (bytes : List UInt8) :
    Nat → Except Failure Unit
  | 0 => .ok ()
  | n + 1 => match h.produce p topic bytes with
    | (.error e, _) => .error (.broker e.fault)
    | (.ok (), h) => publish h p topic bytes n

def carryOut (files : Files) (h : Broker.Hub) (p : Broker.Provider) :
    Task → List Log.Line × Except Failure Unit
  | .providers => ([], .ok ())
  | .createTopic topic _ replication =>
    match (h.createTopic p topic replication).1 with
    | .ok () => ([.own ("✅ Topic '" ++ topic ++ "' ready on '" ++ p.id ++ "'")], .ok ())
    | .error e => ([], .error (.broker e.fault))
  | .deleteTopic topic confirmed =>
    if !confirmed then
      ([{ Log.Line.own "❌ Delete operation requires --confirm flag for safety" with
          level := .error }], .ok ())
    else match (h.deleteTopic p topic).1 with
      | .ok () => ([.own ("🗑️  Topic '" ++ topic ++ "' deleted from '" ++ p.id ++ "'")], .ok ())
      | .error e => ([], .error (.broker e.fault))
  | .produce topic payload? file? count =>
    match payload files payload? file? with
    | .error f => ([], .error f)
    | .ok bytes =>
      let warning : List Log.Line :=
        if (Json.readBytes? bytes).isSome then []
        else [{ Log.Line.own
            "⚠️  Payload is not valid JSON; subscribers will receive an error" with
            level := .warn }]
      match publish h p topic bytes count with
      | .error f => (warning, .error f)
      | .ok () =>
        (warning ++ [.own ("📤 Published " ++ toString count ++ " message(s) to '" ++ topic ++
          "'")], .ok ())

def inProcess (p : ProviderSettings) : List Log.Line :=
  match p.backend with
  | .memory => [{ Log.Line.own ("⚠️  Provider '" ++ p.id ++
      "' is an in-process broker; changes are not visible to a running router") with
      level := .warn }]
  | _ => []

def runTask (files : Files) (s : Settings) (i : Invocation) : Run :=
  match i.task with
  | .providers => { log := listing s.providers }
  | task =>
    match select s.providers i.provider? with
    | .error f => report [] (.error f)
    | .ok chosen =>
      let outside : Broker.Hub := { server := { up := false } }
      let log := inProcess chosen ++ Log.Line.connecting outside [chosen]
      match outside.connectAll [chosen] with
      | .error f => report log (.error (.broker f))
      | .ok h => match h.find chosen.id with
        | .error f => report log (.error (.broker f))
        | .ok p =>
          let (more, result) := carryOut files h p task
          report (log ++ more) result

def run (environment : EnvironmentFile.Variables) (files : Files) (arguments : List String) :
    Run :=
  let path := (EnvironmentFile.lookup environment "CONFIG_PATH").getD Server.Program.defaultPath
  match Invocation.parse path arguments with
  | .error .information => {}
  | .error .misuse => { code := 2 }
  | .ok i =>
    let text? := (FileName.settings? files i.settingsPath).map Utf8.decodeLossy
    match Settings.load text? environment with
    | .error f => report [] (.error (.settings i.settingsPath f))
    | .ok s => runTask files s i

end SubscriptionGateway.Administration
