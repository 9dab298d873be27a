/-!
What a client selects: a tree of fields, each under the key it has in the response. Its text has
no aliases, so a tree whose keys are its field names is written as it was selected.
-/
namespace SubscriptionGateway

structure Selection where
  key : String
  field : String
  selections : List Selection

namespace Selection

def leaf (name : String) : Selection := ⟨name, name, []⟩

def object (name : String) (selections : List Selection) : Selection := ⟨name, name, selections⟩

def isTypename (s : Selection) : Bool := s.field == "__typename"

mutual

def chars : Selection → List Char
  | ⟨_, field, []⟩ => field.toList
  | ⟨_, field, s :: rest⟩ => field.toList ++ ' ' :: setChars (s :: rest)

def setChars : List Selection → List Char
  | selections => '\x7b' :: ' ' :: itemChars selections

def itemChars : List Selection → List Char
  | [] => [' ', '\x7d']
  | [s] => chars s ++ [' ', '\x7d']
  | s :: rest => chars s ++ ' ' :: itemChars rest

end

def text (s : Selection) : String := String.ofList s.chars

def setText (selections : List Selection) : String := String.ofList (setChars selections)

mutual

def paths : Selection → List (List String)
  | ⟨key, _, selections⟩ => [key] :: (setPaths selections).map (key :: ·)

def setPaths : List Selection → List (List String)
  | [] => []
  | s :: rest => paths s ++ setPaths rest

end

end Selection

end SubscriptionGateway
