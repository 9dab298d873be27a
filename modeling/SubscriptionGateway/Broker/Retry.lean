import SubscriptionGateway.Json.Record
import SubscriptionGateway.Number.Double

/-!
How often and after what delay a broken consumer is tried again. Delays are computed in doubles
and cut to whole milliseconds.
-/
namespace SubscriptionGateway

def RetryPolicy.two : Binary64 := ⟨false, Nat.pow 2 52, -51, by decide⟩

structure RetryPolicy where
  maxRetries : Nat := 5
  initialMs : Nat := 100
  maxMs : Nat := 5000
  multiplier : Double := .finite RetryPolicy.two
  deriving DecidableEq

namespace RetryPolicy

def none : RetryPolicy := { maxRetries := 0 }

def asDouble? : Json → Option Double
  | .number (.integer i _) => (Binary64.ofInt? i).map .finite
  | .number (.double x) => some (.finite x)
  | _ => Option.none

def read? (double? : Json → Option Double) (j : Json) : Option RetryPolicy := do
  let d : RetryPolicy := {}
  let r ← Record.ofJson? 4 j
  return {
    maxRetries := ← r.withDefault 0 "max_retries" d.maxRetries (Json.asNatBelow? (Nat.pow 2 32))
    initialMs := ← r.withDefault 1 "initial_backoff_ms" d.initialMs Json.asWord?
    maxMs := ← r.withDefault 2 "max_backoff_ms" d.maxMs Json.asWord?
    multiplier := ← r.withDefault 3 "multiplier" d.multiplier double? }

def ofJson? : Json → Option RetryPolicy := read? asDouble?

def json (p : RetryPolicy) : Json :=
  .object [("max_retries", .ofNat p.maxRetries), ("initial_backoff_ms", .ofNat p.initialMs),
    ("max_backoff_ms", .ofNat p.maxMs),
      ("multiplier", (p.multiplier.finite?.map fun x => Json.number (.double x)).getD .null)]

def one : Binary64 := ⟨false, Nat.pow 2 52, -52, by decide⟩

/-- A power by repeated squaring, each product rounded; none past the doubles. -/
def powFuel : Nat → Nat → Option Binary64 → Option Binary64 → Option Binary64
  | 0, _, _, r => r
  | fuel + 1, n, x, r =>
    let r := if n % 2 = 1 then (do (← r).mul? (← x)) else r
    if n / 2 = 0 then r else powFuel fuel (n / 2) (do (← x).mul? (← x)) r

def pow (x : Option Binary64) (n : Nat) : Option Binary64 := powFuel 64 n x (some one)

def growth (p : RetryPolicy) : Option Binary64 :=
  match p.multiplier with
  | .finite x => some (if x.le one then one else x)
  | .infinite negative => if negative then some one else Option.none
  | .nan => some one

def wordMax : Nat := Nat.pow 2 64 - 1

def baseDelay (p : RetryPolicy) (attempt : Nat) : Nat :=
  let longest := (Binary64.ofNat? p.maxMs).getD Binary64.zero
  let delay := do
    let d ← (← Binary64.ofNat? p.initialMs).mul? (← pow p.growth (min attempt 32))
    if d.le longest then some d else Option.none
  min ((delay.getD longest).truncate) wordMax

end RetryPolicy

structure Backoff where
  policy : RetryPolicy
  attempts : Nat := 0

namespace Backoff

/-- The delay before the next retry, which counts from now on; none when the budget is spent. It is
the base delay itself, without the chance by which delays differ from it. -/
def next? (b : Backoff) : Option (Nat × Backoff) :=
  if b.attempts < b.policy.maxRetries then
    some (b.policy.baseDelay b.attempts, { b with attempts := b.attempts + 1 })
  else none

def reset (b : Backoff) : Backoff := { b with attempts := 0 }

end Backoff

end SubscriptionGateway
