import SubscriptionGateway.Json.Numeral
import SubscriptionGateway.Text.Utf8

/-!
Reading JSON text in two steps. `Form.scan` recognises the form of a text; `Form.value?` gives
the value meant, and refuses a number beyond the doubles, half of a surrogate pair, a string with
ill-formed parts and nesting past a limit. A reader that looks at some members only values just
those: what a `Shape` does not name need not have a value.
-/
namespace SubscriptionGateway

/-- A JSON text before its numerals and strings are given values. -/
inductive Form where
  | null
  | bool (value : Bool)
  | number (written : Numeral)
  | string (value : Option String)
  | array (items : List Form)
  | object (members : List (Option String × Form))

namespace Form

def isSpace (c : Option Char) : Bool :=
  c == some ' ' || c == some '\n' || c == some '\t' || c == some '\r'

def skip (cs : Utf8.Chars) : Utf8.Chars := cs.dropWhile isSpace

def hexValue? (c : Char) : Option Nat :=
  let n := c.toNat
  if 48 ≤ n && n ≤ 57 then some (n - 48)
  else if 65 ≤ n && n ≤ 70 then some (n - 55)
  else if 97 ≤ n && n ≤ 102 then some (n - 87)
  else none

def hex4? (a b c d : Char) : Option Nat := do
  return (((← hexValue? a) * 16 + (← hexValue? b)) * 16 + (← hexValue? c)) * 16 + (← hexValue? d)

/-- A character of a string, the number of a `\u` escape, or an ill-formed part. -/
inductive Piece where
  | char (c : Char)
  | unit (n : Nat)
  | broken

def plainEscape? (c : Char) : Option Char :=
  match c with
  | '"' => some '"'
  | '\\' => some '\\'
  | '/' => some '/'
  | 'b' => some '\x08'
  | 'f' => some '\x0c'
  | 'n' => some '\n'
  | 'r' => some '\r'
  | 't' => some '\t'
  | _ => none

def scanString : Utf8.Chars → Option (List Piece × Utf8.Chars)
  | [] => none
  | some '"' :: rest => some ([], rest)
  | some '\\' :: some 'u' :: some a :: some b :: some c :: some d :: rest =>
    match hex4? a b c d, scanString rest with
    | some n, some (ps, rest) => some (.unit n :: ps, rest)
    | _, _ => none
  | some '\\' :: some c :: rest =>
    match plainEscape? c, scanString rest with
    | some c, some (ps, rest) => some (.char c :: ps, rest)
    | _, _ => none
  | some c :: rest =>
    if c.toNat < 32 || c == '\\' then none
    else match scanString rest with
      | some (ps, rest) => some (.char c :: ps, rest)
      | none => none
  | none :: rest =>
    match scanString rest with
    | some (ps, rest) => some (.broken :: ps, rest)
    | none => none

/-- Joins surrogate halves; none when a half stands alone or a part is ill-formed. -/
def join : List Piece → Option (List Char)
  | [] => some []
  | .broken :: _ => none
  | .char c :: rest => (join rest).map (c :: ·)
  | .unit high :: .unit low :: rest =>
    if 0xD800 ≤ high && high < 0xDC00 then
      if 0xDC00 ≤ low && low < 0xE000 then
        (join rest).map (Char.ofNat (0x10000 + (high - 0xD800) * 1024 + (low - 0xDC00)) :: ·)
      else none
    else if 0xDC00 ≤ high && high < 0xE000 then none
    else (join (.unit low :: rest)).map (Char.ofNat high :: ·)
  | .unit n :: rest =>
    if 0xD800 ≤ n && n < 0xE000 then none else (join rest).map (Char.ofNat n :: ·)

def stringOf (ps : List Piece) : Option String := (join ps).map String.ofList

def isNumeralPart (c : Char) : Bool := c.isDigit || "+-.eE".toList.contains c

def scanNumeral (cs : Utf8.Chars) : Option (Form × Utf8.Chars) :=
  let run := (cs.takeWhile fun c => (c.map isNumeralPart).getD false).filterMap id
  (Numeral.scan run).map fun (n, rest) =>
    (.number n, rest.map some ++ cs.drop run.length)

mutual

def scanFuel : Nat → Utf8.Chars → Option (Form × Utf8.Chars)
  | 0, _ => none
  | fuel + 1, cs =>
    match skip cs with
    | some 'n' :: some 'u' :: some 'l' :: some 'l' :: rest => some (.null, rest)
    | some 't' :: some 'r' :: some 'u' :: some 'e' :: rest => some (.bool true, rest)
    | some 'f' :: some 'a' :: some 'l' :: some 's' :: some 'e' :: rest => some (.bool false, rest)
    | some '"' :: rest => (scanString rest).map fun (ps, rest) => (.string (stringOf ps), rest)
    | some '[' :: rest =>
      match skip rest with
      | some ']' :: rest => some (.array [], rest)
      | rest => (scanItems fuel rest).map fun (items, rest) => (.array items, rest)
    | some '\x7b' :: rest =>
      match skip rest with
      | some '\x7d' :: rest => some (.object [], rest)
      | rest => (scanMembers fuel rest).map fun (members, rest) => (.object members, rest)
    | rest => scanNumeral rest

def scanItems : Nat → Utf8.Chars → Option (List Form × Utf8.Chars)
  | 0, _ => none
  | fuel + 1, cs =>
    match scanFuel fuel cs with
    | none => none
    | some (item, rest) =>
      match skip rest with
      | some ',' :: rest => (scanItems fuel rest).map fun (items, rest) => (item :: items, rest)
      | some ']' :: rest => some ([item], rest)
      | _ => none

def scanMembers : Nat → Utf8.Chars → Option (List (Option String × Form) × Utf8.Chars)
  | 0, _ => none
  | fuel + 1, cs =>
    match skip cs with
    | some '"' :: rest =>
      match scanString rest with
      | none => none
      | some (key, rest) =>
        match skip rest with
        | some ':' :: rest =>
          match scanFuel fuel rest with
          | none => none
          | some (value, rest) =>
            match skip rest with
            | some ',' :: rest =>
              (scanMembers fuel rest).map fun (members, rest) =>
                ((stringOf key, value) :: members, rest)
            | some '\x7d' :: rest => some ([(stringOf key, value)], rest)
            | _ => none
        | _ => none
    | _ => none

end

/-- Each step down or along a text takes a character, and each character two calls at most. -/
def scan (cs : Utf8.Chars) : Option (Form × Utf8.Chars) := scanFuel (2 * cs.length + 2) cs

def read? (cs : Utf8.Chars) : Option Form :=
  match scan cs with
  | some (form, rest) => if (skip rest).isEmpty then some form else none
  | none => none

/-- The key that marks an object as one that stands for the value of a text. It has to be the
first key, and the text all that the object holds. -/
def textMark : String := "$serde_json::private::RawValue"

mutual

/-- The value, when arrays and objects nest at most `limit` deep. `text` reads a text that an
object stands for. -/
def value? (text : String → Option Json) (limit : Nat) : Form → Option Json
  | .null => some .null
  | .bool b => some (.bool b)
  | .number n => n.value?.map .number
  | .string s => s.map .string
  | .array items =>
    match limit with
    | 0 => none
    | limit + 1 => (values? text limit items).map .array
  | .object members =>
    match limit with
    | 0 => none
    | limit + 1 =>
      if (members.head?.map (·.1)) == some (some textMark) then
        match members with
        | [(_, .string (some s))] => text s
        | _ => none
      else (memberValues? text limit members).map fun ms => .object (Json.Members.ofList ms)

def values? (text : String → Option Json) (limit : Nat) : List Form → Option (List Json)
  | [] => some []
  | item :: items =>
    match value? text limit item, values? text limit items with
    | some v, some vs => some (v :: vs)
    | _, _ => none

def memberValues? (text : String → Option Json) (limit : Nat) :
    List (Option String × Form) → Option (List (String × Json))
  | [] => some []
  | (key, value) :: members =>
    match key, value? text limit value, memberValues? text limit members with
    | some k, some v, some ms => some ((k, v) :: ms)
    | _, _, _ => none

end

end Form

namespace Json

def depthLimit : Nat := 127

/-- A text within a text is shorter, so their number is bounded by the length. -/
def readFuel : Nat → Utf8.Chars → Option Json
  | 0, _ => none
  | fuel + 1, cs =>
    (Form.read? cs).bind (Form.value? (fun s => readFuel fuel (s.toList.map some)) depthLimit)

def read? (cs : Utf8.Chars) : Option Json := readFuel (cs.length + 1) cs

def readText? (s : String) : Option Json := read? (s.toList.map some)

def readBytes? (bytes : List UInt8) : Option Json := read? (Utf8.chars bytes)

end Json

/-- Which parts of a text its reader looks at. Where it asks for a text, a list or a record, a
null may stand as well. -/
inductive Shape where
  | any
  | text
  | record (fields : List (String × Shape))
  | list (items : Shape)

namespace Shape

def field? (name : String) : List (String × Shape) → Option Shape
  | [] => none
  | (n, s) :: rest => if n = name then some s else field? name rest

mutual

/-- The value of the parts looked at. A record may also be written as the list of its fields; a
field that is looked at may stand only once. -/
def value? (shape : Shape) (limit : Nat) (form : Form) : Option Json :=
  match shape, form, limit with
  | .any, form, limit => form.value? Json.readText? limit
  | _, .null, _ => some .null
  | .text, .string s, _ => s.map .string
  | .record fields, .object members, limit + 1 =>
    if members.all (·.1.isSome) then
      let names := members.filterMap fun m => m.1.filter fun n => (field? n fields).isSome
      if names.Nodup then
        (memberValues? fields limit members).map .object
      else none
    else none
  | .record fields, .array items, limit + 1 => (fieldValues? fields limit items).map .array
  | .list item, .array items, limit + 1 => (items.mapM (value? item limit)).map .array
  | _, _, _ => none

def memberValues? (fields : List (String × Shape)) (limit : Nat)
    (members : List (Option String × Form)) : Option (List (String × Json)) :=
  match fields with
  | [] => some []
  | (name, shape) :: rest =>
    match members.find? (fun m => m.1 = some name), memberValues? rest limit members with
    | some (_, form), some ms => (value? shape limit form).map fun v => (name, v) :: ms
    | none, ms => ms
    | _, none => none

def fieldValues? (fields : List (String × Shape)) (limit : Nat) (items : List Form) :
    Option (List Json) :=
  match fields, items with
  | _, [] => some []
  | [], _ :: _ => none
  | (_, shape) :: rest, item :: items =>
    match value? shape limit item, fieldValues? rest limit items with
    | some v, some vs => some (v :: vs)
    | _, _ => none

end

end Shape

namespace Json

def readShaped? (shape : Shape) (cs : Utf8.Chars) : Option Json :=
  (Form.read? cs).bind (shape.value? depthLimit)

end Json

end SubscriptionGateway
