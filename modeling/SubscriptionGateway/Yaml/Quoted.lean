import SubscriptionGateway.Number.Double
import SubscriptionGateway.Yaml.Cursor

/-!
Scalars between quotes. Between single quotes a quote is written twice, between double quotes a
backslash begins an escape; line ends are folded.
-/
namespace SubscriptionGateway.Yaml

def hexNumber? (cs : List Char) : Option Nat :=
  (cs.mapM (Written.digit? 16)).map fun ds => ds.foldl (fun n d => n * 16 + d) 0

def hexChar? (digits : Nat) (cs : List Char) : Option (Char × Nat) :=
  if cs.length < digits then none
  else (hexNumber? (cs.take digits)).bind fun n =>
    if n.isValidChar then some (Char.ofNat n, digits + 2) else none

def escape? : List Char → Option (Char × Nat)
  | '0' :: _ => some ('\x00', 2)
  | 'a' :: _ => some ('\x07', 2)
  | 'b' :: _ => some ('\x08', 2)
  | 't' :: _ | '\t' :: _ => some ('\t', 2)
  | 'n' :: _ => some ('\n', 2)
  | 'v' :: _ => some ('\x0b', 2)
  | 'f' :: _ => some ('\x0c', 2)
  | 'r' :: _ => some ('\r', 2)
  | 'e' :: _ => some ('\x1b', 2)
  | ' ' :: _ => some (' ', 2)
  | '"' :: _ => some ('"', 2)
  | '/' :: _ => some ('/', 2)
  | '\\' :: _ => some ('\\', 2)
  | 'N' :: _ => some ('\u0085', 2)
  | '_' :: _ => some ('\u00a0', 2)
  | 'L' :: _ => some ('\u2028', 2)
  | 'P' :: _ => some ('\u2029', 2)
  | 'x' :: rest => hexChar? 2 rest
  | 'u' :: rest => hexChar? 4 rest
  | 'U' :: rest => hexChar? 8 rest
  | _ => none

/-- A run of characters that are neither blanks nor line ends, backwards; whether an escaped line
end ended it. -/
def quotedRun? (quote : Char) : Nat → List Char → Cursor → Option (List Char × Bool × Cursor)
  | 0, run, c => some (run, false, c)
  | fuel + 1, run, c =>
    match c.rest with
    | [] => some (run, false, c)
    | x :: rest =>
      if isGap x || x = '\n' then some (run, false, c)
      else if x = quote then
        if quote = '\'' && rest.head? == some '\'' then quotedRun? quote fuel
          ('\'' :: run) (c.advance 2)
        else some (run, false, c)
      else if x = '\\' && quote = '"' then
        if rest.head? == some '\n' then some (run, true, (c.advance 1).turn)
        else (escape? rest).bind fun (e, n) => quotedRun? quote fuel (e :: run) (c.advance n)
      else quotedRun? quote fuel (x :: run) (c.advance 1)

def quotedBetween? (indent : Int) :
    Nat → Between → (later : Bool) → Cursor → Option (Between × Bool × Cursor)
  | 0, b, later, c => some (b, later, c)
  | fuel + 1, b, later, c =>
    match c.rest with
    | [] => some (b, later, c)
    | x :: _ =>
      if x = '\n' then quotedBetween? indent fuel (b.turn later) true c.turn
      else if isGap x then
        if !later then quotedBetween? indent fuel { b with blanks := x :: b.blanks } later c.gap
        else if x = '\t' && (c.column : Int) < indent then none
        else quotedBetween? indent fuel b later c.gap
      else some (b, later, c)

def quotedFuel? (quote : Char) (indent : Int) :
    Nat → List Char → Cursor → Option (List Char × Cursor)
  | 0, _, _ => none
  | fuel + 1, text, c =>
    if c.betweenDocuments || c.atEnd || (c.column : Int) < indent then none
    else do
      let (run, escaped, c) ← quotedRun? quote c.rest.length [] c
      let text := text ++ run.reverse
      if c.rest.head? == some quote then return (text, c.advance 1)
      let (b, later, c) ← quotedBetween? indent c.rest.length {} escaped c
      quotedFuel? quote indent fuel (text ++ b.chars later) c

def mayFollowQuoted (flow : Bool) (line : Nat) (c : Cursor) : Bool :=
  match c.rest with
  | [] => true
  | x :: _ =>
    x == '\n' || (flow && (x == ',' || x == '}' || x == ']')) ||
      (x == ':' && (flow || line == c.line))

def quoted? (flow : Bool) (indent : Int) (c : Cursor) : Option (String × Cursor) :=
  match c.rest with
  | [] => none
  | quote :: rest => do
    let (text, d) ← quotedFuel? quote indent (rest.length + 1) [] (c.advance 1)
    let (_, d) ← d.gaps?
    if mayFollowQuoted flow c.line d then return (String.ofList text, d) else none

end SubscriptionGateway.Yaml
