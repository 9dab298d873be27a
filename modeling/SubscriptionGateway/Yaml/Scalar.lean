import SubscriptionGateway.Settings.Setting
import SubscriptionGateway.Yaml.Token

/-!
What scalars stand for. A plain one without a tag is null, a truth value or a number if it is
spelled like one; every other is a text, unless its tag says what it has to be.
-/
namespace SubscriptionGateway.Yaml

/-- A scalar or a collection; none for a scalar that does not fit its tag. -/
abbrev Node := Option Setting

/-- Spellings of the infinities and of the value that is no number which no setting can have. -/
def unusable : List String :=
  [".inf", ".Inf", ".INF", "+.inf", "+.Inf", "+.INF", "-.inf", "-.Inf", "-.INF", ".nan", ".NAN"]

def integer? (cs : List Char) : Option Int :=
  let marked? : Option Int := match cs with
    | '0' :: 'x' :: rest => Written.int64? 16 rest
    | '0' :: 'o' :: rest => Written.int64? 8 rest
    | '+' :: rest => Written.int64? 10 rest
    | _ => none
  marked?.or (Written.int64? 10 cs)

def plainSetting? (s : String) : Option Setting :=
  if s = "~" || s = "null" then some .null
  else if s = "true" then some (.bool true)
  else if s = "false" then some (.bool false)
  else match integer? s.toList with
    | some i => some (.integer i)
    | none =>
      if unusable.contains s then none
      else some (((Double.ofChars? s.toList).map Setting.double).getD (.text s))

def knownHandle : String := "tag:yaml.org,2002:"

def taggedNode? (t : Tag) (s : String) : Option Node :=
  if t.handle ≠ knownHandle then some (some (.text s))
  else match t.suffix with
    | "bool" =>
      some (if s = "true" then some (.bool true)
        else if s = "false" then some (.bool false) else none)
    | "int" => some ((Written.int64? 10 s.toList).map .integer)
    | "float" =>
      if unusable.contains s then none
      else some ((Double.ofChars? s.toList).map .double)
    | "null" => some (if s = "~" || s = "null" then some .null else none)
    | _ => some (some (.text s))

/-- What a scalar stands for; none when nothing can be made of the whole text because of it. -/
def scalarNode? (tag? : Option Tag) (plain : Bool) (s : String) : Option Node :=
  if !plain then some (some (.text s))
  else match tag? with
    | some t => taggedNode? t s
    | none => (plainSetting? s).map some

end SubscriptionGateway.Yaml
