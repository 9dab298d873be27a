import SubscriptionGateway.Yaml.Scalar
import SubscriptionGateway.Yaml.Tokens

/-!
The document of a YAML text. A node that has a name can stand again by it. A key may not come
twice, and keys that are neither texts nor integers are not read.
-/
namespace SubscriptionGateway.Yaml

/-! ## Mappings -/

def keyText? : Setting → Option String
  | .text s => some s
  | .integer i => some (toString i)
  | _ => none

def sameKey : Setting → Setting → Bool
  | .text s, .text t => s == t
  | .integer i, .integer j => i == j
  | _, _ => false

/-- The entries that nodes in a row make. An unfit node is no key: the next takes its place. -/
def entriesFrom? (seen : List Setting) (entries : Setting.Entries) :
    List Node → Option Setting.Entries
  | [] => some entries
  | none :: rest => entriesFrom? seen entries rest
  | [some _] => some entries
  | some k :: v :: rest => do
    if seen.any (sameKey k) then none
    entriesFrom? (k :: seen) (entries.insert (← keyText? k) (v.getD .null)) rest

def mapping? (nodes : List Node) : Option Node :=
  (entriesFrom? [] [] nodes).map fun es => some (.table es)

def sequence (nodes : List Node) : Node := some (.list (nodes.map (·.getD .null)))

/-! ## Nodes -/

/-- What is left of a text's tokens, with the names given so far and what they stand for. -/
structure Rest where
  tokens : List Token
  /-- In the order they were given; a node has none until it is complete. -/
  anchors : List (String × Node) := []
  handles : List (String × String) := []

namespace Rest

def next (r : Rest) : Option Token := r.tokens.head?

def drop (r : Rest) : Rest := { r with tokens := r.tokens.drop 1 }

def find? (r : Rest) (name : String) : Option Node :=
  (r.anchors.reverse.find? (·.1 == name)).map (·.2)

def complete (r : Rest) (n? : Option Nat) (node : Node) : Rest :=
  match n? with
  | some n => { r with anchors := r.anchors.modify n fun a => (a.1, node) }
  | none => r

end Rest

def resolve? (handles : List (String × String)) (t : Tag) : Option Tag :=
  match handles.find? (·.1 == t.handle) with
  | some (_, lead) => some { t with handle := lead }
  | none =>
    if t.handle = "!!" then some { t with handle := knownHandle }
    else if isNamedHandle t.handle then none
    else some t

def anchored (r : Rest) : Option Nat × Rest :=
  match r.next with
  | some (.anchor name) =>
    (some r.anchors.length, { r.drop with anchors := r.anchors ++ [(name, none)] })
  | _ => (none, r)

def tagged? (r : Rest) : Option (Option Tag × Rest) :=
  match r.next with
  | some (.tag t) => (resolve? r.handles t).map fun t => (some t, r.drop)
  | _ => some (none, r)

def properties? (r : Rest) : Option (Option Nat × Option Tag × Rest) :=
  match r.next with
  | some (.tag _) => do
    let (t, r) ← tagged? r
    let (a, r) := anchored r
    return (a, t, r)
  | _ => do
    let (a, r) := anchored r
    if a.isNone then return (none, none, r)
    let (t, r) ← tagged? r
    return (a, t, r)

/-- Whether nothing stands where a node could before one of these tokens. -/
def atAny (ts : List Token) (r : Rest) : Bool := r.next.any ts.contains

def blank (r : Rest) : Option (Node × Rest) := some (some .null, r)

mutual

/-- A node; `block` when it may be a block, `compact` when that may be a sequence no further in. -/
def node? : Nat → (block compact : Bool) → Rest → Option (Node × Rest)
  | 0, _, _, _ => none
  | fuel + 1, block, compact, r =>
    match r.next with
    | some (.alias name) => (r.find? name).map (·, r.drop)
    | _ => do
      let (name?, tag?, r) ← properties? r
      let (node, r) ← match r.next with
        | some .blockEntry =>
            if compact then compactItems? fuel [] r else propertiesAlone? name? tag? r
        | some (.scalar plain s) => (scalarNode? tag? plain s).map (·, r.drop)
        | some .flowSequence => flowItems? fuel true [] r.drop
        | some .flowMapping => flowEntries? fuel true [] r.drop
        | some .blockSequence =>
          if block then blockItems? fuel [] r.drop else propertiesAlone? name? tag? r
        | some .blockMapping =>
          if block then blockEntries? fuel [] r.drop else propertiesAlone? name? tag? r
        | _ => propertiesAlone? name? tag? r
      return (node, r.complete name? node)

/-- An empty scalar has to have a name or a tag. -/
def propertiesAlone? (name? : Option Nat) (tag? : Option Tag) (r : Rest) : Option (Node × Rest) :=
  if name?.isSome || tag?.isSome then (scalarNode? tag? true "").map (·, r) else none

def compactItems? : Nat → List Node → Rest → Option (Node × Rest)
  | 0, _, _ => none
  | fuel + 1, items, r =>
    match r.next with
    | some .blockEntry => do
      let (item, r) ← if atAny [.blockEntry, .key, .value, .blockEnd] r.drop then blank r.drop
        else node? fuel true false r.drop
      compactItems? fuel (item :: items) r
    | _ => some (sequence items.reverse, r)

def blockItems? : Nat → List Node → Rest → Option (Node × Rest)
  | 0, _, _ => none
  | fuel + 1, items, r =>
    match r.next with
    | some .blockEnd => some (sequence items.reverse, r.drop)
    | some .blockEntry => do
      let (item, r) ← if atAny [.blockEntry, .blockEnd] r.drop then blank r.drop
        else node? fuel true false r.drop
      blockItems? fuel (item :: items) r
    | _ => none

/-- Keys and values of a mapping by turns, the last first. -/
def blockEntries? : Nat → List Node → Rest → Option (Node × Rest)
  | 0, _, _ => none
  | fuel + 1, nodes, r =>
    let part? (r : Rest) := if atAny [.key, .value, .blockEnd] r then blank r
      else node? fuel true true r
    let valued? (k : Node) (r : Rest) : Option (Node × Rest) := do
      let (v, r) ← if r.next == some .value then part? r.drop else blank r
      blockEntries? fuel (v :: k :: nodes) r
    match r.next with
    | some .key => (part? r.drop).bind fun (k, r) => valued? k r
    | some .value => valued? (some .null) r
    | some .blockEnd => (mapping? nodes.reverse).map (·, r.drop)
    | _ => none

def flowItems? : Nat → (first : Bool) → List Node → Rest → Option (Node × Rest)
  | 0, _, _, _ => none
  | fuel + 1, first, items, r =>
    let item? (r : Rest) : Option (Node × Rest) := do
      let (item, r) ← match r.next with
        | some .flowSequenceEnd => some (none, r)
        | some .key => (pair? fuel r.drop).map fun (n, r) => (some n, r)
        | _ => (node? fuel false false r).map fun (n, r) => (some n, r)
      match item with
      | none => some (sequence items.reverse, r.drop)
      | some n => flowItems? fuel false (n :: items) r
    match r.next with
    | some .flowSequenceEnd => some (sequence items.reverse, r.drop)
    | some .flowEntry => if first then item? r else item? r.drop
    | _ => if first then item? r else none

/-- A key and its value between brackets; a mark that stands for a missing key is passed over. -/
def pair? : Nat → Rest → Option (Node × Rest)
  | 0, _ => none
  | fuel + 1, r => do
    let (k, r) ← if atAny [.value, .flowEntry, .flowSequenceEnd] r then blank r.drop
      else node? fuel false false r
    let (v, r) ←
      if r.next == some .value then
        if atAny [.flowEntry, .flowSequenceEnd] r.drop then blank r.drop
        else node? fuel false false r.drop
      else blank r
    return (← mapping? [k, v], r)

/-- Keys and values between braces, the last first; a node without the mark of a key has no
value. -/
def flowEntries? : Nat → (first : Bool) → List Node → Rest → Option (Node × Rest)
  | 0, _, _, _ => none
  | fuel + 1, first, nodes, r =>
    let valued? (k : Node) (r : Rest) : Option (Node × Rest) := do
      let (v, r) ←
        if r.next == some .value then
          if atAny [.flowEntry, .flowMappingEnd] r.drop then blank r.drop
          else node? fuel false false r.drop
        else blank r
      flowEntries? fuel false (v :: k :: nodes) r
    let entry? (r : Rest) : Option (Node × Rest) :=
      match r.next with
      | some .key =>
        let k? := if atAny [.value, .flowEntry, .flowMappingEnd] r.drop then blank r.drop
          else node? fuel false false r.drop
        k?.bind fun (k, r) => valued? k r
      | some .value => valued? (some .null) r
      | some .flowMappingEnd => (mapping? nodes.reverse).map (·, r.drop)
      | _ => (node? fuel false false r).bind fun (k, r) =>
        flowEntries? fuel false (some .null :: k :: nodes) r
    match r.next with
    | some .flowMappingEnd => (mapping? nodes.reverse).map (·, r.drop)
    | some .flowEntry => if first then entry? r else entry? r.drop
    | _ => if first then entry? r else none

end

/-! ## Documents -/

/-- The directives before a document, of which the last alone counts; a second version is not
allowed. -/
def directives? : (versioned : Bool) → Rest → Option Rest
  | versioned, ⟨.version :: ts, anchors, _⟩ =>
    if versioned then none else directives? true ⟨ts, anchors, []⟩
  | versioned, ⟨.handle h lead :: ts, anchors, _⟩ =>
      directives? versioned ⟨ts, anchors, [(h, lead)]⟩
  | _, r => some r
termination_by _ r => r.tokens.length

def skipEnds (ts : List Token) : List Token := ts.dropWhile (· == .documentEnd)

/-- The one document of a text; `some none` for a text without one. -/
def document? (text : String) : Option (Option Setting) := do
  let ts := skipEnds (← tokens? text)
  if ts.isEmpty then return none
  let r ← directives? false ⟨ts, [], []⟩
  let r ← match ts, r.next with
    | .version :: _, some .documentStart | .handle _ _ :: _, some .documentStart
    | .documentStart :: _, _ => some r.drop
    | .version :: _, _ | .handle _ _ :: _, _ => none
    | _, _ => some r
  let (node, r) ← if r.next.all [.version, .documentStart, .documentEnd].contains then blank r
    else node? (4 * r.tokens.length + 4) true false r
  if (skipEnds r.tokens).isEmpty then return some (node.getD .null) else none

end SubscriptionGateway.Yaml
