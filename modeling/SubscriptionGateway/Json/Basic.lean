import SubscriptionGateway.Number.Binary64

/-!
JSON values. Integers and doubles stay apart, members keep the order in which their keys first
came. `Json.same` is equality of values: it forgets the order of members and nothing else.
-/
namespace SubscriptionGateway

def IntegerRange (i : Int) : Prop := -(Nat.pow 2 63 : Nat) ≤ i ∧ i < (Nat.pow 2 64 : Nat)

instance (i : Int) : Decidable (IntegerRange i) := by unfold IntegerRange; infer_instance

inductive JsonNumber where
  | integer (value : Int) (fits : IntegerRange value)
  | double (value : Binary64)
  deriving DecidableEq

inductive Json where
  | null
  | bool (value : Bool)
  | number (value : JsonNumber)
  | string (value : String)
  | array (items : List Json)
  | object (members : List (String × Json))

abbrev Json.Members := List (String × Json)

namespace JsonNumber

def ofNat? (n : Nat) : Option JsonNumber :=
  if h : IntegerRange n then some (.integer n h) else none

def ofInt (i : Int) : JsonNumber :=
  if h : IntegerRange i then .integer i h else .double ((Binary64.ofInt? i).getD Binary64.zero)

def same : JsonNumber → JsonNumber → Bool
  | .integer i _, .integer j _ => i == j
  | .double x, .double y => x.same y
  | _, _ => false

def chars : JsonNumber → List Char
  | .integer i _ => (toString i).toList
  | .double x => x.chars

def text (n : JsonNumber) : String := String.ofList n.chars

end JsonNumber

namespace Json

instance : Inhabited Json := ⟨.null⟩

def ofInt (i : Int) : Json := .number (.ofInt i)

def ofNat (n : Nat) : Json := ofInt n

def isNull : Json → Bool
  | .null => true
  | _ => false

/-- The kind of a value, as it is named in a message. -/
def kind : Json → String
  | .null => "null"
  | .bool _ => "a boolean"
  | .number _ => "a number"
  | .string _ => "a string"
  | .array _ => "an array"
  | .object _ => "an object"

namespace Members

def get? (ms : Members) (key : String) : Option Json :=
  match ms with
  | [] => none
  | (k, v) :: rest => if k = key then some v else get? rest key

def contains (ms : Members) (key : String) : Bool := (get? ms key).isSome

def keys (ms : Members) : List String := ms.map (·.1)

/-- A key that is there keeps its place and takes the new value. -/
def insert (ms : Members) (key : String) (value : Json) : Members :=
  match ms with
  | [] => [(key, value)]
  | (k, v) :: rest => if k = key then (k, value) :: rest else (k, v) :: insert rest key value

def insertNew (ms : Members) (key : String) (value : Json) : Members :=
  if contains ms key then ms else ms ++ [(key, value)]

/-- Written pairs: the last value of a key wins, its first place is kept. -/
def ofList (pairs : List (String × Json)) : Members :=
  pairs.foldl (fun ms (k, v) => insert ms k v) []

theorem get?_insert (ms : Members) (key : String) (value : Json) (k : String) :
    get? (insert ms key value) k = if k = key then some value else get? ms k := by
  induction ms with
  | nil => simp [insert, get?, eq_comm]
  | cons m rest ih =>
    obtain ⟨k', v'⟩ := m
    by_cases h : k' = key
    · subst h
      by_cases hk : k = k' <;> simp [insert, get?, hk, eq_comm]
    · by_cases hk : k = key
      · subst hk
        simp [insert, get?, h, ih]
      · simp only [insert, h, if_false, get?, ih, hk]

theorem get?_append (ms ns : Members) (k : String) :
    get? (ms ++ ns) k = (get? ms k).or (get? ns k) := by
  induction ms with
  | nil => simp [get?]
  | cons m rest ih =>
    obtain ⟨k', v'⟩ := m
    by_cases h : k' = k <;> simp [get?, h, ih]

theorem get?_insertNew (ms : Members) (key : String) (value : Json) (k : String) :
    get? (insertNew ms key value) k =
      if k = key then some ((get? ms key).getD value) else get? ms k := by
  unfold insertNew contains
  by_cases h : (get? ms key).isSome
  · obtain ⟨v, hv⟩ := Option.isSome_iff_exists.mp h
    by_cases hk : k = key
    · subst hk; simp [hv]
    · simp [hv, hk]
  · have hn : get? ms key = none := by simpa using h
    by_cases hk : k = key
    · subst hk; simp [hn, get?_append, get?]
    · simp [hn, get?_append, get?, hk, Ne.symm hk]

end Members

mutual

/-- Equality of values; doubles compare as numbers, so the two zeros are equal. -/
def same : Json → Json → Bool
  | .null, .null => true
  | .bool a, .bool b => a == b
  | .number a, .number b => a.same b
  | .string a, .string b => a == b
  | .array as, .array bs => sameItems as bs
  | .object as, .object bs => as.length == bs.length && sameMembers as bs
  | _, _ => false

def sameItems : List Json → List Json → Bool
  | [], [] => true
  | a :: as, b :: bs => same a b && sameItems as bs
  | _, _ => false

def sameMembers : Members → Members → Bool
  | [], _ => true
  | (k, v) :: rest, others =>
    (match Members.get? others k with
      | some w => same v w
      | none => false) && sameMembers rest others

end

mutual

/-- Equality as values are written: unlike `same` it looks at the order of members. -/
def identical : Json → Json → Bool
  | .null, .null => true
  | .bool a, .bool b => a == b
  | .number a, .number b => a == b
  | .string a, .string b => a == b
  | .array as, .array bs => identicalItems as bs
  | .object as, .object bs => identicalMembers as bs
  | _, _ => false

def identicalItems : List Json → List Json → Bool
  | [], [] => true
  | a :: as, b :: bs => identical a b && identicalItems as bs
  | _, _ => false

def identicalMembers : List (String × Json) → List (String × Json) → Bool
  | [], [] => true
  | (k, v) :: as, (l, w) :: bs => k == l && identical v w && identicalMembers as bs
  | _, _ => false

end

mutual

theorem identical_iff : ∀ a b : Json, identical a b = true ↔ a = b
  | .array as, b => by cases b <;> simp [identical, identicalItems_iff as]
  | .object as, b => by cases b <;> simp [identical, identicalMembers_iff as]
  | .null, b => by cases b <;> simp [identical]
  | .bool _, b => by cases b <;> simp [identical]
  | .number _, b => by cases b <;> simp [identical]
  | .string _, b => by cases b <;> simp [identical]

theorem identicalItems_iff : ∀ as bs : List Json, identicalItems as bs = true ↔ as = bs
  | [], bs => by cases bs <;> simp [identicalItems]
  | a :: as, bs => by
    cases bs <;> simp [identicalItems, identical_iff a, identicalItems_iff as]

theorem identicalMembers_iff :
    ∀ as bs : List (String × Json), identicalMembers as bs = true ↔ as = bs
  | [], bs => by cases bs <;> simp [identicalMembers]
  | (k, v) :: as, bs => by
    cases bs <;> simp [identicalMembers, identical_iff v, identicalMembers_iff as, Prod.ext_iff]

end

instance : DecidableEq Json := fun a b => decidable_of_iff _ (identical_iff a b)

def asObject? : Json → Option Members
  | .object ms => some ms
  | _ => none

def asString? : Json → Option String
  | .string s => some s
  | _ => none

def get? (j : Json) (key : String) : Option Json := j.asObject?.bind (Members.get? · key)

end Json

end SubscriptionGateway
