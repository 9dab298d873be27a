import SubscriptionGateway.Log.Line
import SubscriptionGateway.Number.Double
import SubscriptionGateway.Text.Blank
import SubscriptionGateway.Text.CharacterClass

/-!
Which lines are logged. A filter is a list of directives, parted by commas. Of those that concern a
line the one that says most counts, and of equals the last; without one the line is left out.

A directive is a level for everything, `target=level` for the speakers whose name begins so, or a
target alone for all that they say. Between the two, brackets may hold the name of a span and, in
braces, that of a value: `target[span{name=pattern}]=level`. Spans are none of the programs' own,
so what is said of them, or of what a value has to be, concerns no line.
-/
namespace SubscriptionGateway.Log

/-- Lines up to a level; none at all for `none`. -/
abbrev Limit := Option Level

def limit? (cs : List Char) : Option Limit :=
  let s := String.ofList cs
  match Written.natBelow? 6 cs with
  | some 0 => some none
  | some n => (Level.all.find? (·.rank == n)).map some
  | none =>
    if Text.sameIgnoringCase s "off" then some none
    else (Level.all.find? fun l => Text.sameIgnoringCase s l.word).map some

structure ValueName where
  name : String
  pattern? : Option String := none
  deriving DecidableEq

structure Directive where
  target : String := ""
  span? : Option String := none
  value? : Option ValueName := none
  limit : Limit := some .trace
  deriving DecidableEq

inductive DirectiveError where
  | malformed
  | level
  deriving DecidableEq

def DirectiveError.message : DirectiveError → String
  | .malformed => "invalid filter directive"
  | .level => "error parsing level filter: expected one of \"off\", \"error\", \"warn\", " ++
      "\"info\", \"debug\", \"trace\", or a number 0-5"

/-- A part of a directive whose text is not known yet. -/
structure Unread where
  marks : List (Char × Char)
  tail : List Char

namespace Unread

/-- Blanks at the ends tell nothing apart; what is read starts at the first of them all the same. -/
def ofText (s : String) : Unread :=
  let marks := (Text.trim s.toList).zip s.toList
  ⟨marks, s.toList.drop marks.length⟩

def text (u : Unread) : List Char := u.marks.map (·.2) ++ u.tail

/-- Up to the first of some marks, which mark it is, and what follows. -/
def upTo (u : Unread) (ends : List Char) : List Char × Option (Char × Unread) :=
  let before := u.marks.takeWhile fun m => !ends.contains m.1
  (before.map (·.2),
    match u.marks.dropWhile fun m => !ends.contains m.1 with
    | [] => none
    | m :: rest => some (m.1, { u with marks := rest }))

end Unread

namespace Directive

def withLevel (d : Directive) (cs : List Char) : Except DirectiveError Directive :=
  if cs.isEmpty then .ok d
  else match limit? cs with
    | some limit => .ok { d with limit := limit }
    | none => .error .level

def ended (d : Directive) (u : Unread) : Except DirectiveError Directive :=
  match u.marks with
  | [] => .ok d
  | (c, _) :: rest =>
    if c = '=' then d.withLevel { u with marks := rest }.text else .error .malformed

def valueName (cs : List Char) : ValueName :=
  match (String.ofList cs).splitOn "=" with
  | name :: pattern :: _ => ⟨name, some pattern⟩
  | _ => { name := String.ofList cs }

def bracketed (d : Directive) (u : Unread) : Except DirectiveError Directive :=
  match u.upTo [']', '{'] with
  | (_, none) => .error .malformed
  | (span, some (']', rest)) => { d with span? := some (String.ofList span) }.ended rest
  | (span, some (_, rest)) =>
    match rest.upTo ['}'] with
    | (_, none) | ([], _) => .error .malformed
    | (value, some (_, rest)) =>
      match rest.marks with
      | (']', _) :: after =>
        { d with span? := if span.isEmpty then none else some (String.ofList span)
                 value? := some (valueName value) }.ended { rest with marks := after }
      | _ => .error .malformed

def isStart (c : Char) : Bool := c == '-' || c == ':' || c == '_' || Text.isAlphanumeric c

def ofText (s : String) : Except DirectiveError Directive :=
  let u := Unread.ofText s
  match u.marks with
  | [] => .error .malformed
  | (c, _) :: rest =>
    if c = '[' then bracketed {} { u with marks := rest }
    else if !isStart c then .error .malformed
    else match u.upTo ['=', '['] with
      | (_, none) => match limit? u.text with
        | some limit => .ok { limit := limit }
        | none => .ok { target := String.ofList u.text }
      | (target, some ('=', rest)) =>
        withLevel { target := String.ofList target } rest.text
      | (target, some (_, rest)) => bracketed { target := String.ofList target } rest

def ofLines (d : Directive) : Bool :=
  d.span?.isNone && (d.value?.bind ValueName.pattern?).isNone

/-- Whether it concerns a line: by who speaks, and by a value that the line has. The message of a
line is one of its values. -/
def concerns (d : Directive) (l : Line) : Bool :=
  d.ofLines && (Text.after? d.target.toList l.speaker.target.toList).isSome &&
    d.value?.all fun v => v.name == "message" || l.values.any (·.1 == v.name)

def valueKey (d : Directive) : String := (d.value?.map ValueName.name).getD ""

/-- How much directives say about the same line: the length of the target first, then whether they
name a value, then the order of such names. -/
def order (d e : Directive) : Ordering :=
  (compare d.target.length e.target.length).then
    ((compare d.value?.toList.length e.value?.toList.length).then
      (compare d.valueKey e.valueKey))

end Directive

abbrev Filter := List Directive

namespace Filter

def least : Filter := [{ limit := some .error }]

def orLeast (ds : Filter) : Filter := if ds.isEmpty then least else ds

def parts (s : String) : List String := (s.splitOn ",").filter (· ≠ "")

def strict? (s : String) : Option Filter :=
  match (parts s).mapM Directive.ofText with
  | .ok ds => some (orLeast ds)
  | .error _ => none

def ignored (s : String) : List (String × DirectiveError) :=
  (parts s).filterMap fun part => match Directive.ofText part with
    | .ok _ => none
    | .error e => some (part, e)

def lenient (s : String) : Filter :=
  orLeast ((parts s).filterMap fun part => (Directive.ofText part).toOption)

def ignoredMessage (part : String) (e : DirectiveError) : String :=
  "ignoring \x60" ++ part ++ "\x60: " ++ e.message

/-- The filter that is asked for, if it is one, else the one in the settings, and what is said of
the parts of that. -/
def choose (asked? : Option String) (settings : String) : Filter × List String :=
  match asked?.bind strict? with
  | some f => (f, [])
  | none => (lenient settings, (ignored settings).map fun (part, e) => ignoredMessage part e)

def larger (best? : Option Directive) (d : Directive) : Option Directive :=
  match best? with
  | some best => if best.order d = .gt then some best else some d
  | none => some d

def directive? (f : Filter) (l : Line) : Option Directive :=
  (f.filter (Directive.concerns · l)).foldl larger none

def passes (f : Filter) (l : Line) : Bool :=
  match (f.directive? l).bind Directive.limit with
  | some level => l.level.rank ≤ level.rank
  | none => false

end Filter

end SubscriptionGateway.Log
