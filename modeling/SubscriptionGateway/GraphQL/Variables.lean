import SubscriptionGateway.GraphQL.Document

/-!
Values of literals. A variable has the value the request provides for it, else the default of its
definition, else null. An enumerator is the string of its name.
-/
namespace SubscriptionGateway.GraphQL

mutual

def Literal.value (bound : Json.Members) : Literal → Json
  | .variable name => (bound.get? name).getD .null
  | .number n => .number n
  | .beyondRange => .null
  | .string s => .string s
  | .bool b => .bool b
  | .null => .null
  | .enumerator name => .string name
  | .list items => .array (Literal.itemValues bound items)
  | .object fields => .object (Json.Members.ofList (Literal.fieldValues bound fields))

def Literal.itemValues (bound : Json.Members) : List Literal → List Json
  | [] => []
  | l :: ls => l.value bound :: Literal.itemValues bound ls

def Literal.fieldValues (bound : Json.Members) :
    List (String × Literal) → List (String × Json)
  | [] => []
  | (name, l) :: ls => (name, l.value bound) :: Literal.fieldValues bound ls

end

def defaults (definitions : List VariableDefinition) : List (String × Json) :=
  definitions.filterMap fun d => d.default?.map fun l => (d.name, l.value [])

/-- What is provided stands over the defaults; anything but an object provides nothing. -/
def bindVariables (definitions : List VariableDefinition) (provided : Option Json) :
    Json.Members :=
  let given := (provided.bind Json.asObject?).getD []
  Json.Members.ofList (defaults definitions ++ given)

def argumentValues (bound : Json.Members) (arguments : Arguments) : Json.Members :=
  Json.Members.ofList (Literal.fieldValues bound arguments)

end SubscriptionGateway.GraphQL
