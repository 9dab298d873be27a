import SubscriptionGateway.Fault
import SubscriptionGateway.Json.Writer
import SubscriptionGateway.Text.Blank

/-!
Topic templates. A placeholder is what stands between two opening braces and the first two closing
braces after them; it names an argument, and the argument's text takes its place. That text is not
looked at again.
-/
namespace SubscriptionGateway

namespace Topic

inductive Piece where
  | literal (text : List Char)
  | placeholder (inner : List Char)
  | unclosed
  deriving DecidableEq

/-- What stands before and after the first place where a character comes twice. -/
def splitAtTwice (c : Char) : List Char → Option (List Char × List Char)
  | [] => none
  | [_] => none
  | a :: b :: rest =>
    if a = c ∧ b = c then some ([], rest)
    else (splitAtTwice c (b :: rest)).map fun (before, after) => (a :: before, after)

def piecesFuel : Nat → List Char → List Piece
  | 0, _ => []
  | fuel + 1, cs =>
    match splitAtTwice '\x7b' cs with
    | none => [.literal cs]
    | some (before, after) =>
      match splitAtTwice '\x7d' after with
      | none => [.literal before, .unclosed]
      | some (inner, rest) => .literal before :: .placeholder inner :: piecesFuel fuel rest

def pieces (template : String) : List Piece :=
  piecesFuel (template.length + 1) template.toList

inductive TemplateError where
  | unterminated (template : String)
  | unsupported (expression template : String)
  | missing (argument : String)
  | notScalar (argument : String) (value : Json)

def TemplateError.fault : TemplateError → Fault
  | .unterminated t => .config s!"unterminated template in topic '{t}'"
  | .unsupported e t => .config s!"unsupported template '{e}' in topic '{t}'"
  | .missing a => .invalidOperation s!"argument \"{a}\" is required to subscribe"
  | .notScalar a v => .invalidOperation s!"argument \"{a}\" must be a scalar, got {v.text}"

def scalarText? : Json → Option (List Char)
  | .string s => some s.toList
  | .number n => some n.chars
  | .bool b => some (toString b).toList
  | _ => none

def argumentText (arguments : Json.Members) (name : String) : Except TemplateError (List Char) :=
  match arguments.get? name with
  | none | some .null => .error (.missing name)
  | some v => match scalarText? v with
    | some t => .ok t
    | none => .error (.notScalar name v)

def pieceText (template : String) (arguments : Json.Members) :
    Piece → Except TemplateError (List Char)
  | .literal t => .ok t
  | .unclosed => .error (.unterminated template)
  | .placeholder inner =>
    let expression := Text.trim inner
    match Text.after? "args.".toList expression with
    | some name => argumentText arguments (String.ofList name)
    | none => .error (.unsupported (String.ofList expression) template)

def joinPieces (template : String) (arguments : Json.Members) :
    List Piece → Except TemplateError (List Char)
  | [] => .ok []
  | p :: ps =>
    match pieceText template arguments p with
    | .error e => .error e
    | .ok t =>
      match joinPieces template arguments ps with
      | .error e => .error e
      | .ok more => .ok (t ++ more)

def render (template : String) (arguments : Json.Members) : Except TemplateError String :=
  (joinPieces template arguments (pieces template)).map String.ofList

end Topic

end SubscriptionGateway
