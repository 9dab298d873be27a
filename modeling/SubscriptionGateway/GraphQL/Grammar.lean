import SubscriptionGateway.GraphQL.Lexical

/-!
From text to document. Each reader takes what the text begins with and gives the rest. Every call
takes at least one character out of three calls in a row, so the fuel, counted from the text,
does not run out before the text does.
-/
namespace SubscriptionGateway.GraphQL

mutual

/-- A literal; with `constant` set, one without variables. -/
def literalFuel (constant : Bool) : Nat → List Char → Option (Literal × List Char)
  | 0, _ => none
  | fuel + 1, cs =>
    match skip cs with
    | [] => none
    | '$' :: rest =>
      if constant then none else (name? rest).map fun (n, rest) => (.variable n, rest)
    | '"' :: rest => (scanString rest).map fun (s, rest) => (.string s, rest)
    | '[' :: rest => (itemsFuel constant fuel rest).map fun (ls, rest) => (.list ls, rest)
    | '\x7b' :: rest => (fieldsFuel constant fuel rest).map fun (fs, rest) => (.object fs, rest)
    | 't' :: 'r' :: 'u' :: 'e' :: rest => some (.bool true, rest)
    | 'f' :: 'a' :: 'l' :: 's' :: 'e' :: rest => some (.bool false, rest)
    | 'n' :: 'u' :: 'l' :: 'l' :: rest => some (.null, rest)
    | c :: rest =>
      if isNameStart c then (scanName (c :: rest)).map fun (n, rest) => (.enumerator n, rest)
      else scanNumber (c :: rest)

def itemsFuel (constant : Bool) : Nat → List Char → Option (List Literal × List Char)
  | 0, _ => none
  | fuel + 1, cs =>
    match mark? ']' cs with
    | some rest => some ([], rest)
    | none =>
      match literalFuel constant fuel cs with
      | none => none
      | some (l, rest) => (itemsFuel constant fuel rest).map fun (ls, rest) => (l :: ls, rest)

def fieldsFuel (constant : Bool) : Nat → List Char → Option (List (String × Literal) × List Char)
  | 0, _ => none
  | fuel + 1, cs =>
    match mark? '\x7d' cs with
    | some rest => some ([], rest)
    | none =>
      match name? cs with
      | none => none
      | some (n, rest) =>
        match (mark? ':' rest).bind (literalFuel constant fuel) with
        | none => none
        | some (l, rest) => (fieldsFuel constant fuel rest).map fun (fs, rest) =>
            ((n, l) :: fs, rest)

end

def fuelFor (cs : List Char) : Nat := 3 * cs.length + 3

def literal (constant : Bool) (cs : List Char) : Option (Literal × List Char) :=
  literalFuel constant (fuelFor cs) cs

def argumentsFuel : Nat → List Char → Option (Arguments × List Char)
  | 0, _ => none
  | fuel + 1, cs =>
    match name? cs with
    | none => none
    | some (n, rest) =>
      match (mark? ':' rest).bind (literal false) with
      | none => none
      | some (l, rest) =>
        match mark? ')' rest with
        | some rest => some ([(n, l)], rest)
        | none => (argumentsFuel fuel rest).map fun (as, rest) => ((n, l) :: as, rest)

def arguments (cs : List Char) : Option (Arguments × List Char) :=
  match mark? '(' cs with
  | some rest => argumentsFuel (fuelFor rest) rest
  | none => some ([], cs)

def directivesFuel : Nat → List Char → Option (List Directive × List Char)
  | 0, _ => none
  | fuel + 1, cs =>
    match mark? '@' cs with
    | none => some ([], cs)
    | some rest =>
      match name? rest with
      | none => none
      | some (n, rest) =>
        match arguments rest with
        | none => none
        | some (as, rest) =>
          (directivesFuel fuel rest).map fun (ds, rest) => (⟨n, as⟩ :: ds, rest)

def directives (cs : List Char) : Option (List Directive × List Char) :=
  directivesFuel (fuelFor cs) cs

/-- `on` and the type's name, with blanks but no comment between them. -/
def typeCondition? (cs : List Char) : Option (String × List Char) :=
  match word? "on" cs with
  | some (c :: rest) => if isIgnored c then scanName (rest.dropWhile isIgnored) else none
  | _ => none

mutual

def selectionSetFuel : Nat → List Char → Option (List Node × List Char)
  | 0, _ => none
  | fuel + 1, cs =>
    match mark? '\x7b' cs with
    | some rest => nodesFuel fuel rest
    | none => none

def nodesFuel : Nat → List Char → Option (List Node × List Char)
  | 0, _ => none
  | fuel + 1, cs =>
    match nodeFuel fuel cs with
    | none => none
    | some (node, rest) =>
      match mark? '\x7d' rest with
      | some rest => some ([node], rest)
      | none => (nodesFuel fuel rest).map fun (nodes, rest) => (node :: nodes, rest)

def nodeFuel : Nat → List Char → Option (Node × List Char)
  | 0, _ => none
  | fuel + 1, cs =>
    match word? "..." cs with
    | some rest =>
      match typeCondition? rest with
      | some (_, rest) => inlineFuel fuel rest
      | none =>
        match name? rest with
        | some (n, rest) => (directives rest).map fun (ds, rest) => (.spread n ds, rest)
        | none => inlineFuel fuel rest
    | none => fieldFuel fuel cs

def inlineFuel : Nat → List Char → Option (Node × List Char)
  | 0, _ => none
  | fuel + 1, cs =>
    match directives cs with
    | none => none
    | some (ds, rest) =>
      (selectionSetFuel fuel rest).map fun (nodes, rest) => (.inline ds nodes, rest)

def fieldFuel : Nat → List Char → Option (Node × List Char)
  | 0, _ => none
  | fuel + 1, cs =>
    match name? cs with
    | none => none
    | some (first, rest) =>
      let named := match mark? ':' rest with
        | some rest => (name? rest).map fun (n, rest) => (some first, n, rest)
        | none => some (none, first, rest)
      match named with
      | none => none
      | some (alias?, name, rest) =>
        match arguments rest with
        | none => none
        | some (as, rest) =>
          match directives rest with
          | none => none
          | some (ds, rest) =>
            match mark? '\x7b' rest with
            | none => some (.field alias? name as ds [], rest)
            | some _ =>
              (selectionSetFuel fuel rest).map fun (nodes, rest) =>
                (.field alias? name as ds nodes, rest)

end

def selectionSet (cs : List Char) : Option (List Node × List Char) :=
  selectionSetFuel (2 * fuelFor cs) cs

def variableDefinition (cs : List Char) : Option (VariableDefinition × List Char) := do
  let rest ← mark? '$' cs
  let (n, rest) ← name? rest
  let rest ← mark? ':' rest
  let rest ← scanType (skip rest)
  let (ds, rest) ← directives rest
  match mark? '=' rest with
  | none => return (⟨n, ds, none⟩, rest)
  | some rest =>
    let (l, rest) ← literal true rest
    return (⟨n, ds, some l⟩, rest)

def variableDefinitionsFuel : Nat → List Char → Option (List VariableDefinition × List Char)
  | 0, _ => none
  | fuel + 1, cs =>
    match mark? ')' cs with
    | some rest => some ([], rest)
    | none =>
      match variableDefinition cs with
      | none => none
      | some (v, rest) => (variableDefinitionsFuel fuel rest).map fun (vs, rest) => (v :: vs, rest)

def variableDefinitions (cs : List Char) : Option (List VariableDefinition × List Char) :=
  match mark? '(' cs with
  | some rest => variableDefinitionsFuel (fuelFor rest) rest
  | none => some ([], cs)

def operationKind? (cs : List Char) : Option (OperationKind × List Char) :=
  ((word? "query" cs).map fun rest => (.query, rest)).or
    (((word? "mutation" cs).map fun rest => (.mutation, rest)).or
      ((word? "subscription" cs).map fun rest => (.subscription, rest)))

def definition (cs : List Char) : Option (Definition × List Char) :=
  match operationKind? cs with
  | some (kind, rest) => do
    let (name, rest) := match name? rest with
      | some (n, rest) => (some n, rest)
      | none => (none, rest)
    let (declared, rest) ← variableDefinitions rest
    let (ds, rest) ← directives rest
    let (nodes, rest) ← selectionSet rest
    return (.operation name ⟨kind, declared, ds, nodes⟩, rest)
  | none =>
    match word? "fragment" cs with
    | some rest => do
      let (name, rest) ← name? rest
      let (_, rest) ← typeCondition? rest
      let (ds, rest) ← directives rest
      let (nodes, rest) ← selectionSet rest
      return (.fragment ⟨name, ds, nodes⟩, rest)
    | none =>
      (selectionSet cs).map fun (nodes, rest) => (.operation none ⟨.query, [], [], nodes⟩, rest)

def definitionsFuel : Nat → List Char → Option (List Definition)
  | 0, _ => none
  | fuel + 1, cs =>
    match definition cs with
    | none => none
    | some (d, rest) =>
      if (skip rest).isEmpty then some [d] else (definitionsFuel fuel rest).map (d :: ·)

def Document.parse (text : String) : Except DocumentError Document :=
  let cs := text.toList
  match definitionsFuel (cs.length + 1) cs with
  | some ds => Document.ofDefinitions ds
  | none => .error .malformed

end SubscriptionGateway.GraphQL
