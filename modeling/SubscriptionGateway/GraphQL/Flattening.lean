import SubscriptionGateway.GraphQL.Document
import SubscriptionGateway.GraphQL.Selection

/-!
Selection sets without fragments. A spread stands for the selection of its fragment, which may not
be met again inside itself. Fields of one response key become one field with the sub-selections of
all; of sub-selections with one key the first stays. `Selects` says which response paths the field
occurrences of a document select, without any merging.
-/
namespace SubscriptionGateway.GraphQL

inductive SpreadError where
  | withinItself (fragment : String)
  | unknown (fragment : String)
  deriving DecidableEq

/-- A field of a flat selection set and the arguments it was selected with. -/
structure FlatField where
  arguments : Arguments
  selection : Selection

/-- Adds what is selected below a key that is already there, except under keys it has. -/
def addMissing (have_ : List Selection) : List Selection → List Selection
  | [] => have_
  | s :: rest =>
    if have_.any (·.key == s.key) then addMissing have_ rest else addMissing (have_ ++ [s]) rest

def mergeInto (s : Selection) : List Selection → List Selection
  | [] => [s]
  | t :: rest =>
    if t.key = s.key then { t with selections := addMissing t.selections s.selections } :: rest
    else t :: mergeInto s rest

/-- One field for each key, in the order in which the keys first come. -/
def mergeSiblings (siblings : List Selection) : List Selection :=
  siblings.foldl (fun merged s => mergeInto s merged) []

mutual

def flattenNode (spread : String → Except SpreadError (List FlatField)) :
    Node → Except SpreadError (List FlatField)
  | .field alias? name arguments _ selections =>
    match flattenSet spread selections with
    | .error e => .error e
    | .ok below =>
      .ok [⟨arguments, alias?.getD name, name, mergeSiblings (below.map (·.selection))⟩]
  | .inline _ selections => flattenSet spread selections
  | .spread fragment _ => spread fragment

def flattenSet (spread : String → Except SpreadError (List FlatField)) :
    List Node → Except SpreadError (List FlatField)
  | [] => .ok []
  | node :: nodes =>
    match flattenNode spread node with
    | .error e => .error e
    | .ok fields =>
      match flattenSet spread nodes with
      | .error e => .error e
      | .ok more => .ok (fields ++ more)

end

/-- The meaning of a spread inside the fragments named by `within`. Each fragment entered is
another one, so `fuel` need not exceed their number by more than one. -/
def resolveSpread (fragments : List Fragment) :
    Nat → List String → String → Except SpreadError (List FlatField)
  | 0, _, name => .error (.withinItself name)
  | fuel + 1, within, name =>
    if name ∈ within then .error (.withinItself name)
    else match fragments.find? (·.name == name) with
      | none => .error (.unknown name)
      | some f => flattenSet (resolveSpread fragments fuel (name :: within)) f.selections

def Document.flatten (d : Document) (nodes : List Node) : Except SpreadError (List FlatField) :=
  flattenSet (resolveSpread d.fragments (d.fragments.length + 1) []) nodes

/-- A field occurrence of the document, fragments opened at every level, ends the path of
response keys. -/
inductive Selects (fragments : List Fragment) : List Node → List String → Prop where
  | here {nodes alias? name arguments directives selections} :
      Node.field alias? name arguments directives selections ∈ nodes →
      Selects fragments nodes [alias?.getD name]
  | under {nodes alias? name arguments directives selections path} :
      Node.field alias? name arguments directives selections ∈ nodes →
      Selects fragments selections path →
      Selects fragments nodes (alias?.getD name :: path)
  | inline {nodes directives selections path} :
      Node.inline directives selections ∈ nodes →
      Selects fragments selections path →
      Selects fragments nodes path
  | spread {nodes name directives fragment path} :
      Node.spread name directives ∈ nodes →
      fragments.find? (·.name == name) = some fragment →
      Selects fragments fragment.selections path →
      Selects fragments nodes path

end SubscriptionGateway.GraphQL
