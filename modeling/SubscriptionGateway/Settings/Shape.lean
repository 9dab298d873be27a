import SubscriptionGateway.Settings.Setting

/-!
The shape a setting has to have. Reading by a shape gives JSON of just that shape: scalars are
turned into the kind wanted, and what a record has no field for is passed over. A double that JSON
cannot write is there as its text.
-/
namespace SubscriptionGateway.Setting

inductive Shape where
  | flag
  | word
  | halfWord
  | double
  | text
  | optionalText
  /-- One word out of a list, in any case; or a table of one entry with that word as its key. -/
  | oneOf (words : List String)
  | list (item : Shape)
  | named (item : Shape)
  /-- Fields by name, or in their order. -/
  | record (fields : List (String × Shape))
  | anything

namespace Shape

def wordOf? (words : List String) (s : String) : Option Json :=
  (words.find? (Text.lowered · == Text.lowered s)).map Json.string

mutual

def read? : Shape → Setting → Option Json
  | .flag, s => s.asBool?.map Json.bool
  | .word, s => s.asWord?.map Json.ofNat
  | .halfWord, s => (s.asWord?.filter (· < Nat.pow 2 32)).map Json.ofNat
  | .double, s => s.asDouble?.map fun x => match x.finite? with
    | some x => .number (.double x)
    | none => .string x.text
  | .text, s => s.asText?.map Json.string
  | .optionalText, .null => some .null
  | .optionalText, s => s.asText?.map Json.string
  | .oneOf words, .text s => wordOf? words s
  | .oneOf words, .table [(s, _)] => wordOf? words s
  | .list item, .list xs => (xs.mapM (read? item)).map .array
  | .named item, .table es =>
    (es.mapM fun e => (read? item e.2).map fun j => (e.1, j)).map .object
  | .record fields, .table es => (readNamed? fields es).map .object
  | .record fields, .list xs => (readListed? fields xs).map .object
  | .anything, s => s.json?
  | _, _ => none

def readNamed? : List (String × Shape) → Setting.Entries → Option Json.Members
  | [], _ => some []
  | (name, shape) :: rest, es =>
    match es.get? name with
    | none => readNamed? rest es
    | some s => do return (name, ← read? shape s) :: (← readNamed? rest es)

def readListed? : List (String × Shape) → List Setting → Option Json.Members
  | (name, shape) :: rest, s :: ss => do return (name, ← read? shape s) :: (← readListed? rest ss)
  | _, _ => some []

end

end Shape

end SubscriptionGateway.Setting
