import SubscriptionGateway.Settings.Setting

/-!
Settings in layers. A later layer is laid over the earlier ones entry by entry: tables are merged,
everything else is replaced. The names of entries are paths, and they are in lower case once they
are merged; what lists hold is left as it is.
-/
namespace SubscriptionGateway.Setting

inductive PathStep where
  | entry (name : String)
  /-- Counted from the end when negative. -/
  | item (index : Int)
  deriving DecidableEq, Repr

namespace PathStep

def isNamePart (c : Char) : Bool := c.isAlphanum || c == ' ' || c == '_' || c == '-'

def name? (cs : List Char) : Option (String × List Char) :=
  match cs.takeWhile isNamePart with
  | [] => none
  | name => some (String.ofList name, cs.dropWhile isNamePart)

def isGap (c : Char) : Bool := c == ' ' || c == '\t'

def index? (cs : List Char) : Option (Int × List Char) :=
  let inner := cs.takeWhile (· != ']')
  let core := ((inner.dropWhile isGap).reverse.dropWhile isGap).reverse
  match core, cs.dropWhile (· != ']') with
  | '+' :: _, _ => none
  | core, _ :: rest => (Written.int64? 10 core).map fun i => (i, rest)
  | _, [] => none

def stepsFuel : Nat → List Char → Option (List PathStep)
  | _, [] => some []
  | 0, _ => none
  | fuel + 1, '.' :: cs => do
    let (name, rest) ← name? cs
    return .entry name :: (← stepsFuel fuel rest)
  | fuel + 1, '[' :: cs => do
    let (i, rest) ← index? cs
    return .item i :: (← stepsFuel fuel rest)
  | _ + 1, _ :: _ => none

end PathStep

/-- The path that a name spells; a name that spells none stands for itself. -/
def pathOf (s : String) : List PathStep :=
  let path? : Option (List PathStep) := do
    let (name, rest) ← PathStep.name? s.toList
    return .entry name :: (← PathStep.stepsFuel rest.length rest)
  path?.getD [.entry s]

/-- The entries of a table; whatever else is there counts as an empty one. -/
def entries : Setting → Entries
  | .table es => es
  | _ => []

def items : Setting → List Setting
  | .list xs => xs
  | _ => []

mutual

def overlay (key : String) : Setting → Setting → Setting
  | .table es, base =>
    let key := Text.lowered key
    let below := (base.entries.get? key).getD (.table [])
    .table (base.entries.insert key (overlayAll es below))
  | value, base => .table (base.entries.insert (Text.lowered key) value)

def overlayAll : List (String × Setting) → Setting → Setting
  | [], base => base
  | (k, v) :: rest, base => overlayAll rest (overlay k v base)

end

def place (index : Int) (length : Nat) : Nat :=
  if 0 ≤ index then index.toNat else length - index.natAbs

/-- Puts an item in its place, with nulls up to there. -/
def setItem (xs : List Setting) (i : Nat) (value : Setting) : List Setting :=
  (xs ++ List.replicate (i + 1 - xs.length) Setting.null).set i value

/-- Lays a value over what the path leads to; what stands in the way of the path is replaced. -/
def put : List PathStep → Setting → Setting → Setting
  | [], value, _ => value
  | [.entry name], value, base => overlay name value base
  | .entry name :: rest, value, base =>
    let key := Text.lowered name
    .table (base.entries.insert key (put rest value ((base.entries.get? key).getD .null)))
  | .item index :: rest, value, base =>
    let xs := base.items
    let i := place index xs.length
    .list (setItem xs i (put rest value ((xs[i]?).getD .null)))

def layer (base : Setting) (es : Entries) : Setting :=
  es.foldl (fun base (name, value) => put (pathOf name) value base) base

end SubscriptionGateway.Setting
