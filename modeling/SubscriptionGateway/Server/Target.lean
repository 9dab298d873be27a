/-!
The target of a plain request: a path, an address of which a path is a part, a host alone or an
asterisk. The path says what is asked for; what follows a question mark or a number sign does not.
-/
namespace SubscriptionGateway.Server.Target

/-! ## Characters -/

def isVisible (c : Char) : Bool := '!' ≤ c && c ≤ '~'

def isPathChar (c : Char) : Bool := isVisible c && !"#<>?\x60".toList.contains c

def isQueryChar (c : Char) : Bool := isVisible c && !"\"#<>".toList.contains c

def isSchemeChar (c : Char) : Bool := c.isAlphanum || "+-.".toList.contains c

def isHostChar (c : Char) : Bool := c.isAlphanum || "!$&'()*+,-.;=_~".toList.contains c

def isMethodChar (c : Char) : Bool := c.isAlphanum || "!#$%&'*+-.^_\x60|~".toList.contains c

def isMethod (method : String) : Bool := method ≠ "" && method.toList.all isMethodChar

/-! ## Hosts -/

/-- What has been met of a host so far. What stands before an at sign, or between brackets, is not
held to the same rules as the rest. -/
structure Host where
  colons : Nat := 0
  escaped : Bool := false
  opened : Bool := false
  closed : Bool := false

def Host.step? (h : Host) (c : Char) : Option Host :=
  if c = ':' then if h.colons < 8 then some { h with colons := h.colons + 1 } else none
  else if c = '%' then some { h with escaped := true }
  else if c = '@' then some { h with colons := 0, escaped := false }
  else if c = '[' then if h.escaped || h.opened then none else some { h with opened := true }
  else if c = ']' then
    if h.opened && !h.closed then some { h with closed := true, colons := 0, escaped := false }
    else none
  else if isHostChar c then some h
  else none

/-- At most one colon is left for the port, brackets come in pairs, and something follows an at
sign. -/
def isHost (cs : List Char) : Bool :=
  match cs.foldlM Host.step? {} with
  | some h => h.colons ≤ 1 && !h.escaped && h.opened == h.closed && cs.getLast? != some '@'
  | none => false

/-! ## Paths -/

def pathOf? (cs : List Char) : Option (List Char) :=
  let whole := cs.takeWhile (· != '#')
  let path := whole.takeWhile (· != '?')
  if path.all isPathChar && (whole.drop (path.length + 1)).all isQueryChar then some path else none

def scheme? (cs : List Char) : Option (List Char × List Char) :=
  match cs.dropWhile isSchemeChar with
  | ':' :: '/' :: '/' :: rest => some (cs.takeWhile isSchemeChar, rest)
  | _ => none

def endsHost (c : Char) : Bool := c == '/' || c == '?' || c == '#'

/-- The path of a target, empty for a host alone. -/
def pathChars? (cs : List Char) : Option (List Char) :=
  match cs with
  | [] => none
  | ['*'] => some ['*']
  | '/' :: _ => pathOf? cs
  | _ => match scheme? cs with
    | none => if isHost cs then some [] else none
    | some (scheme, rest) =>
      let host := rest.takeWhile (!endsHost ·)
      if host.isEmpty || !isHost host || 64 < scheme.length then none
      else (pathOf? (rest.dropWhile (!endsHost ·))).map fun path =>
        if path.isEmpty then ['/'] else path

def path? (target : String) : Option String :=
  let cs := target.toList
  if cs.all isVisible then (pathChars? cs).map String.ofList else none

end SubscriptionGateway.Server.Target
