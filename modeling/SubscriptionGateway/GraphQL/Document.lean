import SubscriptionGateway.Json.Basic

/-!
Executable GraphQL documents: operations, fragments, fields and argument literals. A `Document`
has distinct operation names and distinct fragment names, and one unnamed operation stands alone.
-/
namespace SubscriptionGateway.GraphQL

inductive Literal where
  | variable (name : String)
  | number (value : JsonNumber)
  /-- A numeral beyond every number; no document that is accepted holds one. -/
  | beyondRange
  | string (value : String)
  | bool (value : Bool)
  | null
  | enumerator (name : String)
  | list (items : List Literal)
  | object (fields : List (String × Literal))

abbrev Arguments := List (String × Literal)

structure Directive where
  name : String
  arguments : Arguments

/-- One item of a selection set. A field without a selection set has an empty one. -/
inductive Node where
  | field (alias? : Option String) (name : String) (arguments : Arguments)
      (directives : List Directive) (selections : List Node)
  | inline (directives : List Directive) (selections : List Node)
  | spread (fragment : String) (directives : List Directive)

inductive OperationKind where
  | query
  | mutation
  | subscription
  deriving DecidableEq

structure VariableDefinition where
  name : String
  directives : List Directive
  default? : Option Literal

structure Operation where
  kind : OperationKind
  declared : List VariableDefinition
  directives : List Directive
  selections : List Node

structure Fragment where
  name : String
  directives : List Directive
  selections : List Node

inductive Definition where
  | operation (name? : Option String) (operation : Operation)
  | fragment (fragment : Fragment)

inductive Operations where
  | unnamed (operation : Operation)
  | named (operations : List (String × Operation))

structure Document where
  operations : Operations
  fragments : List Fragment

inductive DocumentError where
  | malformed
  | tooDeep
  | noOperation
  | severalOperations
  | operationTwice (name : String)
  | fragmentTwice (name : String)
  deriving DecidableEq

/-- What is wrong, without the words of a parser. -/
def DocumentError.message : DocumentError → String
  | .malformed => "syntax error"
  | .tooDeep => "recursion limit exceeded."
  | .noOperation => "document does not contain an operation"
  | .severalOperations => "document contains multiple operations"
  | .operationTwice name => s!"operation {name} is defined twice"
  | .fragmentTwice name => s!"fragment {name} is defined twice"

/-! ## What a text may not hold although it has the form of a document -/

mutual

def Literal.readable : Literal → Bool
  | .beyondRange => false
  | .list items => Literal.readableItems items
  | .object fields => Literal.readableFields fields
  | _ => true

def Literal.readableItems : List Literal → Bool
  | [] => true
  | l :: ls => l.readable && Literal.readableItems ls

def Literal.readableFields : List (String × Literal) → Bool
  | [] => true
  | (_, l) :: ls => l.readable && Literal.readableFields ls

end

def Directive.readable (d : Directive) : Bool := Literal.readableFields d.arguments

/-- Selection sets may nest this deep below the outermost one. -/
def selectionDepthLimit : Nat := 64

mutual

/-- The first fault in reading order, with `levels` more selection sets allowed below. -/
def Node.fault? (levels : Nat) : Node → Option DocumentError
  | .field _ _ arguments directives selections =>
    if !(Literal.readableFields arguments && directives.all Directive.readable) then
      some .malformed
    else if selections.isEmpty then none
    else match levels with
      | 0 => some .tooDeep
      | levels + 1 => Node.setFault? levels selections
  | .inline directives selections =>
    if !directives.all Directive.readable then some .malformed
    else match levels with
      | 0 => some .tooDeep
      | levels + 1 => Node.setFault? levels selections
  | .spread _ directives => if directives.all Directive.readable then none else some .malformed

def Node.setFault? (levels : Nat) : List Node → Option DocumentError
  | [] => none
  | node :: nodes => match Node.fault? levels node with
    | some e => some e
    | none => Node.setFault? levels nodes

end

def VariableDefinition.readable (v : VariableDefinition) : Bool :=
  v.directives.all Directive.readable && (v.default?.map Literal.readable).getD true

def Definition.fault? : Definition → Option DocumentError
  | .operation _ o =>
    if o.declared.all VariableDefinition.readable && o.directives.all Directive.readable then
      Node.setFault? selectionDepthLimit o.selections
    else some .malformed
  | .fragment f =>
    if f.directives.all Directive.readable then Node.setFault? selectionDepthLimit f.selections
    else some .malformed

/-! ## From definitions to a document -/

namespace Document

def addOperation (known : Option Operations) :
    Option String → Operation → Except DocumentError Operations
  | none, o => match known with
    | some _ => .error .severalOperations
    | none => .ok (.unnamed o)
  | some name, o => match known with
    | some (.unnamed _) => .error .severalOperations
    | some (.named os) =>
      if os.any (·.1 == name) then .error (.operationTwice name)
      else .ok (.named (os ++ [(name, o)]))
    | none => .ok (.named [(name, o)])

def gather : Option Operations → List Fragment → List Definition → Except DocumentError Document
  | none, _, [] => .error .noOperation
  | some os, fs, [] => .ok ⟨os, fs⟩
  | known, fs, .operation name o :: rest =>
    match addOperation known name o with
    | .ok os => gather (some os) fs rest
    | .error e => .error e
  | known, fs, .fragment f :: rest =>
    if fs.any (·.name == f.name) then .error (.fragmentTwice f.name)
    else gather known (fs ++ [f]) rest

def ofDefinitions (ds : List Definition) : Except DocumentError Document :=
  match ds.findSome? Definition.fault? with
  | some e => .error e
  | none => gather none [] ds

end Document

end SubscriptionGateway.GraphQL
