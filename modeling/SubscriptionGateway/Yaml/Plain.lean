import SubscriptionGateway.Yaml.Cursor

/-!
Scalars without quotes. They go on over line ends while the lines are further in than the block
around them, and end before a comment, a colon that ends a key or a mark between brackets.
-/
namespace SubscriptionGateway.Yaml

def plainRun (flow : Bool) : Nat → List Char → Cursor → List Char × Cursor
  | 0, run, c => (run, c)
  | fuel + 1, run, c =>
    match c.rest with
    | [] => (run, c)
    | x :: _ =>
      if atGap c.rest || !goesOn flow c.rest then (run, c)
      else plainRun flow fuel (x :: run) (c.advance 1)

/-- The blanks and line ends before the next run. A tab in the indentation is allowed on a line
that holds nothing else. -/
def plainBetween? (least : Int) : Nat → Between → Cursor → Option (Between × Cursor)
  | 0, b, c => some (b, c)
  | fuel + 1, b, c =>
    match c.rest with
    | [] => some (b, c)
    | x :: _ =>
      if x = '\n' then plainBetween? least fuel (b.turn c.fresh) c.turn
      else if isGap x then
        if !c.fresh then plainBetween? least fuel { b with blanks := x :: b.blanks } c.gap
        else if x = '\t' && (c.column : Int) < least then do
          let (_, d) ← c.gaps?
          if atLineEnd d.rest then plainBetween? least fuel b d else none
        else plainBetween? least fuel b c.gap
      else some (b, c)

def plainFuel? (flow : Bool) (least : Int) :
    Nat → List Char → Between → Cursor → Option (List Char × Cursor)
  | 0, _, _, _ => none
  | fuel + 1, text, b, c =>
    if c.betweenDocuments then some (text, c)
    else match c.rest with
      | '#' :: _ => some (text, c)
      | rest =>
        if flow && rest.head? == some '-' && (rest.drop 1).head?.any isFlowMark then none
        else
          let (text, b, c) :=
            if !atGap rest && goesOn flow rest then
              let (run, d) := plainRun flow rest.length [] c
              (text ++ b.chars c.fresh ++ run.reverse, {}, d)
            else (text, b, c)
          if c.atEnd || !atGap c.rest then some (text, c)
          else do
            let (b, c) ← plainBetween? least c.rest.length b c
            if !flow && (c.column : Int) < least then return (text, c)
            plainFuel? flow least fuel text b c

def plain? (flow : Bool) (indent : Int) (c : Cursor) : Option (String × Cursor) :=
  let least := indent + 1
  if flow && (c.column : Int) < least then none
  else (plainFuel? flow least (c.rest.length + 1) [] {} c).map fun (text, c) =>
    (String.ofList text, c)

end SubscriptionGateway.Yaml
