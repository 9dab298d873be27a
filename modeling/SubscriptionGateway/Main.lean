import SubscriptionGateway.Administration.Run

/-!
The administration command: lists providers, creates and deletes topics and publishes payloads.
-/
namespace SubscriptionGateway.Main

def readFile? (name : String) : IO (Option (List UInt8)) := do
  try
    return some (← IO.FS.readBinFile name).toList
  catch _ => return none

/-- The variables of this process, as the system lists them. -/
def readEnvironment : IO EnvironmentFile.Variables := do
  let bytes := (← readFile? "/proc/self/environ").getD []
  let entries := (Utf8.decodeLossy bytes).splitOn "\x00"
  return entries.filterMap fun e => match e.splitOn "=" with
    | name :: value => if value.isEmpty then none else some (name, "=".intercalate value)
    | [] => none

def wanted (i : Administration.Invocation) : List String :=
  [i.settingsPath, i.settingsPath ++ ".yaml", i.settingsPath ++ ".yml"] ++
    match i.task with
    | .produce _ _ file? _ => file?.toList
    | _ => []

end SubscriptionGateway.Main

open SubscriptionGateway SubscriptionGateway.Main in
def main (arguments : List String) : IO UInt32 := do
  let environment ← readEnvironment
  let environment := match ← readFile? ".env" with
    | some bytes => (EnvironmentFile.read environment (Utf8.decodeLossy bytes)).environment
    | none => environment
  let path := (EnvironmentFile.lookup environment "CONFIG_PATH").getD Server.Program.defaultPath
  let names := match Administration.Invocation.parse path arguments with
    | .ok i => wanted i
    | .error _ => []
  let contents ← names.mapM fun name => do return (name, ← readFile? name)
  let files (name : String) := ((contents.find? (·.1 == name)).map (·.2)).join
  let r := Administration.run environment files arguments
  for l in r.log do IO.println l.text
  for c in r.complaints do IO.eprintln c
  return r.code.toUInt32
