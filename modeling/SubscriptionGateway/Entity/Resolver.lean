import SubscriptionGateway.Resolution.Event

/-!
How an event becomes an outcome, how long that takes and what it asks of the entity source.
-/
namespace SubscriptionGateway

structure EntityReply where
  takesMs : Nat := 0
  /-- None when the source breaks down over it. -/
  answer? : Option (Except Fault (Option Json.Members))
  sent : Bool := false

abbrev EntitySource := EntityRequest → EntityReply

/-- One resolution: its duration, its outcome (none when it breaks down) and the request sent. -/
structure Work where
  takesMs : Nat
  outcome? : Option Outcome
  sent? : Option EntityRequest := none

abbrev Resolver := CompiledSubscription → List UInt8 → Work

namespace Resolver

def settled (r : Except Fault Json) : Work := ⟨0, some (Resolution.outcome r), none⟩

def completed (s : CompiledSubscription) (started : Resolution.Started) (e : EntityReply) :
    Option Outcome :=
  e.answer?.map fun answer => Resolution.outcome <| match answer with
    | .error fault => .error fault
    | .ok entity => Resolution.finish s (Resolution.complete started.object entity)

def ofSource (source? : Option EntitySource) : Resolver := fun s payload =>
  match Resolution.start s source?.isSome payload with
  | .error fault => settled (.error fault)
  | .ok started =>
    match source?, started.wanted with
    | some source, some wanted =>
      let e := source wanted
      ⟨e.takesMs, completed s started e, if e.sent then some wanted else none⟩
    | _, _ => settled (Resolution.finish s started.object)

end Resolver

namespace EntityRecords

def source (r : EntityRecords) : EntitySource := fun q =>
  { answer? := some (.ok (r.find? q.typeName q.representation)) }

end EntityRecords

structure Subgraph.Behaviour where
  status : Nat := 200
  body : List UInt8 := []
  delayMs : Nat := 0
  refuses : Bool := false

namespace Subgraph

/-- A request ends when its answer comes or when the time is up, and a refusal ends it at once. -/
def exchange (b : Behaviour) (timeoutMs : Nat) : Nat × Exchange :=
  if b.refuses then (0, .refused)
  else if 0 < b.delayMs ∧ timeoutMs ≤ b.delayMs then (timeoutMs, .timedOut)
  else (b.delayMs, .answered b.status b.body)

def source (b : Behaviour) (timeoutMs : Nat) : EntitySource := fun _ =>
  let (ms, e) := exchange b timeoutMs
  { takesMs := ms, answer? := some (entity e), sent := !b.refuses }

end Subgraph

end SubscriptionGateway
