import SubscriptionGateway.Settings.Basic
import SubscriptionGateway.Settings.Layer
import SubscriptionGateway.Settings.Shape
import SubscriptionGateway.Yaml.Document

/-!
Loading settings: the defaults, over them a YAML file and over that the environment. What comes
out has to have the shape of settings and no defect. The name of the file is a path, parts between
slashes; a part that is empty or a single dot leads nowhere, and what ends in one can only be a
directory.
-/
namespace SubscriptionGateway.FileName

def leadsOn (part : String) : Bool := part ≠ "" && part ≠ "."

def plain (path : String) : String :=
  (if path.toList.head? == some '/' then "/" else "") ++
    "/".intercalate ((path.splitOn "/").filter leadsOn)

def find? (files : String → Option α) (path : String) : Option α :=
  if ((path.splitOn "/").getLast?.map leadsOn).getD false then files (plain path) else none

/-- The file of settings that a path asks for; the ending of its name may be left out. -/
def settings? (files : String → Option α) (path : String) : Option α :=
  (find? files path).or ((files (plain path ++ ".yaml")).or (files (plain path ++ ".yml")))

end SubscriptionGateway.FileName

namespace SubscriptionGateway.Settings

def retryShape : Setting.Shape :=
  .record [("max_retries", .halfWord), ("initial_backoff_ms", .word), ("max_backoff_ms", .word),
    ("multiplier", .double)]

def engineShape : Setting.Shape :=
  .record [("enable_readiness_polling", .flag), ("websocket_read_timeout_ms", .word),
    ("outbound_queue_size", .word), ("slow_consumer_grace_ms", .word),
    ("resolver_concurrency", .word), ("connection_init_timeout_ms", .word),
    ("max_subscriptions_per_connection", .word), ("sse_keep_alive_ms", .word)]

def providerShape : Setting.Shape :=
  .record [("id", .text), ("backend", .oneOf (Backend.all.map Backend.word)),
    ("urls", .list .text), ("retry", retryShape)]

def eventShape : Setting.Shape :=
  .record [("field_name", .text), ("provider_id", .text), ("topics", .list .text),
    ("type_name", .text), ("key_fields", .list .text), ("non_null_fields", .list .text)]

def entityShape : Setting.Shape :=
  .record [("subgraph_url", .optionalText), ("subgraph_timeout_ms", .word),
    ("records", .named (.list .anything))]

def shape : Setting.Shape :=
  .record [("listen_addr", .text), ("log_level", .text), ("shutdown_delay_ms", .word),
    ("engine", engineShape), ("security", .record [("block_subscriptions", .flag)]),
    ("providers", .list providerShape), ("events", .list eventShape), ("entities", entityShape)]

def unusable : Fault := .config "loader"

/-- Multipliers that JSON cannot write are there as texts. -/
def retryOf? : Json → Option RetryPolicy :=
  RetryPolicy.read? fun j => (RetryPolicy.asDouble? j).or
    (j.asString?.bind fun s => Double.ofChars? s.toList)

def ofSetting? (s : Setting) : Option Settings := (shape.read? s).bind (read? retryOf?)

/-- The defaults as a layer. What is empty in them is no entry of it. -/
def defaultEntries : Setting.Entries :=
  let d : Settings := {}
  Setting.ofMembers [("listen_addr", .string d.listenAddress), ("log_level", .string d.logLevel),
    ("shutdown_delay_ms", .ofNat d.shutdownDelayMs), ("engine", d.engine.json),
    ("security", .object [("block_subscriptions", .bool d.blockSubscriptions)]),
    ("entities", .object [("subgraph_url", .null),
      ("subgraph_timeout_ms", .ofNat d.entities.subgraphTimeoutMs)])]

def fileEntries? (text : String) : Option Setting.Entries :=
  match Yaml.document? text with
  | none => none
  | some none => some []
  | some (some (.table es)) => some es
  | some (some _) => none

/-! ## The environment -/

def environmentLead : String := "router__"

/-- Two underlines in a row part the names of a path. -/
def dotted : List Char → List Char
  | '_' :: '_' :: rest => '.' :: dotted rest
  | c :: rest => c :: dotted rest
  | [] => []

/-- A variable is a truth value, an integer or a double if it is spelled like one. -/
def ofVariable (value : String) : Setting :=
  if Text.lowered value = "true" then .bool true
  else if Text.lowered value = "false" then .bool false
  else match Written.int64? 10 value.toList, Double.ofChars? value.toList with
    | some i, _ => .integer i
    | none, some x => .double x
    | none, none => .text value

/-- The variables that are settings, by their paths; the case of their names does not count. -/
def environmentEntries (environment : List (String × String)) : Setting.Entries :=
  environment.filterMap fun (name, value) =>
    (Text.after? environmentLead.toList (Text.lowered name).toList).map fun rest =>
      (String.ofList (dotted rest), ofVariable value)

/-! ## Layers together -/

def ofLayers (layers : List Setting.Entries) : Except Fault Settings :=
  match ofSetting? (layers.foldl Setting.layer (.table [])) with
  | none => .error unusable
  | some s => s.checked

def ofYaml (text : String) : Except Fault Settings :=
  match fileEntries? text with
  | none => .error unusable
  | some es => ofLayers [defaultEntries, es]

def withoutMark (text : String) : String :=
  match text.toList with
  | '\uFEFF' :: rest => String.ofList rest
  | _ => text

def load (file? : Option String) (environment : List (String × String)) : Except Fault Settings :=
  match file?.elim (some []) (fun text => fileEntries? (withoutMark text)) with
  | none => .error unusable
  | some es => ofLayers [defaultEntries, es, environmentEntries environment]

end SubscriptionGateway.Settings
