import SubscriptionGateway.Entity.Source
import SubscriptionGateway.Proofs.GraphQL.Names

/-!
The text of a selection set is read as the fields that were written, without aliases, arguments and
directives. A name ends at the blank after it, and the character after that blank says what follows;
none of the marks that a reader looks for is ever there by accident.
-/
namespace SubscriptionGateway

namespace Selection

mutual

def node : Selection → GraphQL.Node
  | ⟨_, field, selections⟩ => .field none field [] [] (nodes selections)

def nodes : List Selection → List GraphQL.Node
  | [] => []
  | s :: rest => node s :: nodes rest

end

theorem mem_nodes {s : Selection} {set : List Selection} (member : s ∈ set) :
    s.node ∈ nodes set := by
  induction set with
  | nil => cases member
  | cons t set ih =>
    rcases List.mem_cons.mp member with rfl | later
    · exact List.mem_cons_self
    · exact List.mem_cons_of_mem _ (ih later)

theorem node_eq (s : Selection) : s.node = .field none s.field [] [] (nodes s.selections) := by
  obtain ⟨key, field, selections⟩ := s
  rfl

end Selection

namespace GraphQL

open Selection

variable {cs rest more : List Char} {c m : Char} {name : String} {s : Selection}
  {set : List Selection} {fuel : Nat}

/-! ## Names and marks -/

theorem namePart_not_ignored (part : isNamePart c = true) : isIgnored c = false ∧ c ≠ '#' := by
  have differs (d : Char) (other : isNamePart d = false) : c ≠ d := by
    rintro rfl
    rw [part] at other
    cases other
  refine ⟨?_, differs '#' (by decide)⟩
  simp [isIgnored, isLineEnd, differs ' ' (by decide), differs ',' (by decide),
    differs '\t' (by decide), differs '\uFEFF' (by decide), differs '\n' (by decide),
    differs '\r' (by decide)]

theorem namePart_of_start (start : isNameStart c = true) : isNamePart c = true := by
  rw [isNameStart, Bool.or_eq_true] at start
  rw [isNamePart, Bool.or_eq_true]
  exact start.imp_left fun letter => by simp [Char.isAlphanum, letter]

theorem skip_blank (cs : List Char) : skip (' ' :: cs) = skip cs := rfl

theorem skip_start (start : isNameStart c = true) : skip (c :: cs) = c :: cs := by
  obtain ⟨kept, mark⟩ := namePart_not_ignored (namePart_of_start start)
  rw [skip, skipFrom, if_neg mark, kept]
  rfl

theorem scanName_name (isName : IsName name) :
    scanName (name.toList ++ ' ' :: rest) = some (name, ' ' :: rest) := by
  obtain ⟨first, others, same, start, parts⟩ := isName
  have stops : isNamePart ' ' = false := by decide
  rw [same, List.cons_append, scanName, if_pos start, List.takeWhile_append_of_pos parts,
    List.dropWhile_append_of_pos parts, List.takeWhile_cons_of_neg (by simp [stops]),
    List.dropWhile_cons_of_neg (by simp [stops]), List.append_nil, ← same, String.ofList_toList]

theorem mark_hit (at_ : skip cs = m :: rest) : mark? m cs = some rest := by
  rw [mark?, at_]
  exact if_pos rfl

theorem mark_miss (at_ : skip cs = c :: rest) (differs : c ≠ m) : mark? m cs = none := by
  rw [mark?, at_]
  exact if_neg differs

theorem arguments_none (at_ : skip cs = c :: rest) (differs : c ≠ '(') :
    arguments cs = some ([], cs) := by
  rw [arguments, mark_miss at_ differs]

theorem directives_none (at_ : skip cs = c :: rest) (differs : c ≠ '@') :
    directives cs = some ([], cs) := by
  rw [directives, fuelFor, directivesFuel, mark_miss at_ differs]

/-! ## Fields -/

structure Following (cs : List Char) (c : Char) (more : List Char) : Prop where
  at_ : skip cs = c :: more
  blank : ∃ others, cs = ' ' :: others
  next : c = '\x7d' ∨ isNameStart c = true

theorem Following.differs (following : Following cs c more)
    (other : m ≠ '\x7d' ∧ isNameStart m = false) : c ≠ m := by
  rintro rfl
  rcases following.next with brace | start
  · exact other.1 brace
  · rw [other.2] at start
    cases start

theorem word_dots_miss (start : isNameStart c = true) (at_ : skip cs = c :: rest) :
    word? "..." cs = none := by
  have differs : '.' ≠ c := by
    rintro rfl
    exact absurd start (by decide)
  rw [word?, at_]
  exact if_neg differs

theorem fieldFuel_leaf (isName : IsName name) (at_ : skip cs = name.toList ++ rest)
    (following : Following rest c more) :
    fieldFuel (fuel + 1) cs = some (.field none name [] [] [], rest) := by
  obtain ⟨others, blank⟩ := following.blank
  have scanned : name? cs = some (name, rest) := by
    rw [name?, at_, blank]
    exact scanName_name isName
  rw [fieldFuel, scanned]
  simp only [mark_miss following.at_ (following.differs (m := ':') (by decide)),
    arguments_none following.at_ (following.differs (by decide)),
    directives_none following.at_ (following.differs (by decide)),
    mark_miss following.at_ (following.differs (m := '\x7b') (by decide))]

theorem fieldFuel_set (isName : IsName name) {inner : List Char}
    (at_ : skip cs = name.toList ++ ' ' :: '\x7b' :: inner) {below : List Node}
    (set : selectionSetFuel fuel (' ' :: '\x7b' :: inner) = some (below, rest)) :
    fieldFuel (fuel + 1) cs = some (.field none name [] [] below, rest) := by
  have scanned : name? cs = some (name, ' ' :: '\x7b' :: inner) := by
    rw [name?, at_]
    exact scanName_name isName
  have brace : skip (' ' :: '\x7b' :: inner) = '\x7b' :: inner := rfl
  rw [fieldFuel, scanned]
  simp only [mark_miss brace (m := ':') (by decide), arguments_none brace (by decide),
    directives_none brace (by decide), mark_hit brace, set, Option.map_some]

/-! ## Selection sets -/

theorem chars_name (named : s.Named) : ∃ first others, s.chars = first :: others ∧
    isNameStart first = true := by
  obtain ⟨first, others, same, start, -⟩ := named.isName
  obtain ⟨key, field, selections⟩ := s
  cases selections with
  | nil => exact ⟨first, others, by rw [chars, same], start⟩
  | cons t rest => exact ⟨first, _, by rw [chars, same, List.cons_append], start⟩

theorem skip_chars (named : s.Named) : skip (s.chars ++ rest) = s.chars ++ rest := by
  obtain ⟨first, others, same, start⟩ := chars_name named
  rw [same, List.cons_append, skip_start start]

theorem following_end : Following ([' ', '\x7d'] ++ rest) '\x7d' rest :=
  ⟨rfl, ⟨_, rfl⟩, .inl rfl⟩

theorem itemChars_more (s t : Selection) (set : List Selection) :
    itemChars (s :: t :: set) = s.chars ++ ' ' :: itemChars (t :: set) := by
  rw [itemChars]
  exact List.cons_ne_nil t set

theorem itemChars_begin (s : Selection) (set : List Selection) :
    ∃ others, itemChars (s :: set) = s.chars ++ ' ' :: others := by
  cases set with
  | nil => exact ⟨_, by rw [itemChars]⟩
  | cons t set => exact ⟨_, itemChars_more s t set⟩

theorem following_items {t : Selection} (named : t.Named) :
    ∃ c more, Following (' ' :: itemChars (t :: set) ++ rest) c more ∧ isNameStart c = true := by
  obtain ⟨first, others, same, start⟩ := chars_name named
  obtain ⟨after, begins⟩ := itemChars_begin t set
  have at_ : skip (' ' :: itemChars (t :: set) ++ rest) =
      first :: ((others ++ ' ' :: after) ++ rest) := by
    rw [List.cons_append, skip_blank, begins, same]
    exact skip_start start
  exact ⟨first, _, ⟨at_, ⟨_, rfl⟩, .inr start⟩, start⟩

mutual

theorem nodeFuel_chars :
    ∀ (s : Selection) {fuel : Nat} {cs rest more : List Char} {c : Char}, s.Named →
      s.chars.length + 1 ≤ fuel → skip cs = s.chars ++ rest → Following rest c more →
      nodeFuel fuel cs = some (s.node, rest)
  | ⟨key, field, selections⟩, fuel, cs, rest, more, c, named, enough, at_, following => by
    obtain ⟨fuel, rfl⟩ : ∃ n, fuel = n + 1 := ⟨fuel - 1, by omega⟩
    obtain ⟨first, others, same, start⟩ := chars_name named
    have noDots : word? "..." cs = none := word_dots_miss start (by rw [at_, same]; rfl)
    rw [nodeFuel, noDots]
    dsimp only
    cases selections with
    | nil =>
      rw [chars] at at_ enough
      obtain ⟨fuel, rfl⟩ : ∃ n, fuel = n + 1 := by
        obtain ⟨letter, letters, spelled, -⟩ := named.isName
        dsimp only at spelled
        rw [spelled, List.length_cons] at enough
        exact ⟨fuel - 1, by omega⟩
      exact fieldFuel_leaf named.isName at_ following
    | cons t below =>
      rw [chars, setChars] at at_ enough
      obtain ⟨fuel, rfl⟩ : ∃ n, fuel = n + 2 := by
        simp only [List.length_append, List.length_cons] at enough
        exact ⟨fuel - 2, by omega⟩
      rw [List.append_assoc, List.cons_append, List.cons_append, List.cons_append] at at_
      refine fieldFuel_set named.isName at_ ?_
      have brace : mark? '\x7b' (' ' :: '\x7b' :: ' ' :: (itemChars (t :: below) ++ rest)) =
          some (' ' :: (itemChars (t :: below) ++ rest)) := mark_hit rfl
      rw [selectionSetFuel, brace]
      refine nodesFuel_items (t :: below) (by simp) named.inner ?_ rfl
      simp only [List.length_append, List.length_cons] at enough
      omega

theorem nodesFuel_items :
    ∀ (set : List Selection) {fuel : Nat} {cs rest : List Char}, set ≠ [] →
      (∀ s ∈ set, s.Named) → (itemChars set).length ≤ fuel →
      skip cs = skip (itemChars set ++ rest) → nodesFuel fuel cs = some (nodes set, rest)
  | [], fuel, cs, rest, filled, named, enough, at_ => absurd rfl filled
  | [s], fuel, cs, rest, filled, named, enough, at_ => by
    have here := named s (List.mem_singleton_self s)
    rw [itemChars] at at_ enough
    obtain ⟨fuel, rfl⟩ : ∃ n, fuel = n + 1 := by
      simp only [List.length_append, List.length_cons] at enough
      exact ⟨fuel - 1, by omega⟩
    have read : nodeFuel fuel cs = some (s.node, [' ', '\x7d'] ++ rest) := by
      refine nodeFuel_chars s here ?_ ?_ following_end
      · simp only [List.length_append, List.length_cons, List.length_nil] at enough
        omega
      · rw [at_, List.append_assoc, skip_chars here]
    rw [nodesFuel, read]
    rfl
  | s :: t :: later, fuel, cs, rest, filled, named, enough, at_ => by
    have here := named s List.mem_cons_self
    have others := fun u member => named u (List.mem_cons_of_mem s member)
    have goesOn : ∃ c more, Following (' ' :: itemChars (t :: later) ++ rest) c more ∧
        isNameStart c = true := following_items (others t List.mem_cons_self)
    obtain ⟨c, more, following, start⟩ := goesOn
    obtain ⟨after, begins⟩ := itemChars_begin t later
    have room : 0 < (itemChars (t :: later)).length := by
      rw [begins, List.length_append, List.length_cons]
      omega
    rw [itemChars_more] at at_ enough
    simp only [List.length_append, List.length_cons] at enough
    obtain ⟨fuel, rfl⟩ : ∃ n, fuel = n + 1 := ⟨fuel - 1, by omega⟩
    have read : nodeFuel fuel cs = some (s.node, ' ' :: itemChars (t :: later) ++ rest) := by
      refine nodeFuel_chars s here ?_ ?_ following
      · omega
      · rw [at_, List.append_assoc, skip_chars here]
    have noBrace : mark? '\x7d' (' ' :: itemChars (t :: later) ++ rest) = none := by
      refine mark_miss following.at_ ?_
      rintro rfl
      exact absurd start (by decide)
    have continued : nodesFuel fuel (' ' :: itemChars (t :: later) ++ rest) =
        some (nodes (t :: later), rest) :=
      nodesFuel_items (t :: later) (by simp) others (by omega) rfl
    rw [nodesFuel, read]
    simp only [noBrace, continued, Option.map_some]
    rfl

end

/-! ## The query for entities -/

/-- The fields of an entity that a text asks for: it has one operation, of one field, with one
fragment that selects them. -/
def askedFor? (text : String) : Option (List Node) :=
  match definitionsFuel (text.toList.length + 1) text.toList with
  | some [.operation none o] =>
    match o.selections with
    | [.field none "_entities" _ _ [.inline _ nodes]] => some nodes
    | _ => none
  | _ => none

theorem typeCondition_name (isName : IsName name) :
    typeCondition? (" on ".toList ++ (name.toList ++ ' ' :: rest)) = some (name, ' ' :: rest) := by
  have word : word? "on" (" on ".toList ++ (name.toList ++ ' ' :: rest)) =
      some (' ' :: (name.toList ++ ' ' :: rest)) := by rfl
  have unblanked :
    (name.toList ++ ' ' :: rest).dropWhile isIgnored = name.toList ++ ' ' :: rest := by
    obtain ⟨first, others, same, start, -⟩ := isName
    rw [same, List.cons_append, List.dropWhile_cons_of_neg]
    rw [(namePart_not_ignored (namePart_of_start start)).1]
    exact Bool.false_ne_true
  rw [typeCondition?, word]
  dsimp only
  rw [if_pos (show isIgnored ' ' = true by rfl), unblanked, scanName_name isName]

theorem nodeFuel_inline (isName : IsName name) (named : ∀ s ∈ set, s.Named) (filled : set ≠ [])
    (enough : (itemChars set).length ≤ fuel) :
    nodeFuel (fuel + 3) (" ... on ".toList ++ (name.toList ++ ' ' :: (setChars set ++ rest))) =
      some (.inline [] (Selection.nodes set), rest) := by
  have dots : word? "..." (" ... on ".toList ++ (name.toList ++ ' ' :: (setChars set ++ rest))) =
      some (" on ".toList ++ (name.toList ++ ' ' :: (setChars set ++ rest))) := by rfl
  have brace :
    skip (' ' :: (setChars set ++ rest)) = '\x7b' :: (' ' :: (itemChars set ++ rest)) := by
    rw [setChars]
    rfl
  have items : nodesFuel fuel (' ' :: (itemChars set ++ rest)) = some (Selection.nodes set, rest) :=
    nodesFuel_items set filled named enough rfl
  rw [nodeFuel, dots]
  dsimp only
  rw [typeCondition_name isName]
  dsimp only
  rw [inlineFuel, directives_none brace (by decide)]
  dsimp only
  rw [selectionSetFuel, mark_hit brace]
  dsimp only
  rw [items, Option.map_some]

theorem arguments_representations :
    arguments ("(representations: $representations)".toList ++ rest) =
      some ([("representations", .variable "representations")], rest) := by
  have opens : mark? '(' ("(representations: $representations)".toList ++ rest) =
      some ("representations: $representations)".toList ++ rest) := by rfl
  have name : name? ("representations: $representations)".toList ++ rest) =
      some ("representations", ": $representations)".toList ++ rest) := by rfl
  have colon : mark? ':' (": $representations)".toList ++ rest) =
      some (" $representations)".toList ++ rest) := by rfl
  have dollar : skip (" $representations)".toList ++ rest) =
      '$' :: ("representations)".toList ++ rest) := by rfl
  have variable_ : name? ("representations)".toList ++ rest) =
      some ("representations", ")".toList ++ rest) := by rfl
  have closes : mark? ')' (")".toList ++ rest) = some rest := by rfl
  have value : literal false (" $representations)".toList ++ rest) =
      some (.variable "representations", ")".toList ++ rest) := by
    rw [literal, fuelFor, literalFuel, dollar]
    simp only [Bool.false_eq_true, ↓reduceIte, variable_, Option.map_some]
  rw [arguments, opens]
  dsimp only
  rw [fuelFor, argumentsFuel, name]
  dsimp only
  rw [colon, Option.bind_some, value]
  dsimp only
  rw [closes]

def entitiesField (below : List Node) : Node :=
  .field none "_entities" [("representations", .variable "representations")] [] below

theorem selectionSetFuel_entities {node : Node}
    (inner : nodeFuel fuel (" ... on ".toList ++ rest) = some (node, " \x7d \x7d".toList)) :
    selectionSetFuel (fuel + 6) (" \x7b".toList ++ (" _entities".toList ++
      ("(representations: $representations)".toList ++
        (" \x7b".toList ++ (" ... on ".toList ++ rest))))) =
      some ([entitiesField [node]], []) := by
  have opens (cs : List Char) : mark? '\x7b' (" \x7b".toList ++ cs) = some cs := by rfl
  have noDots (cs : List Char) : word? "..." (" _entities".toList ++ cs) = none := by rfl
  have name (cs : List Char) :
    name? (" _entities".toList ++ ("(representations: $representations)".toList ++ cs)) =
      some ("_entities", "(representations: $representations)".toList ++ cs) := by rfl
  have noColon (cs : List Char) :
    mark? ':' ("(representations: $representations)".toList ++ cs) = none := by rfl
  have plain (cs : List Char) :
    directives (" \x7b".toList ++ cs) = some ([], " \x7b".toList ++ cs) := by rfl
  have closes : mark? '\x7d' " \x7d \x7d".toList = some " \x7d".toList := by rfl
  have closesAll : mark? '\x7d' " \x7d".toList = some [] := by rfl
  simp only [selectionSetFuel, nodesFuel, nodeFuel, fieldFuel, opens, noDots, name, noColon,
    arguments_representations, plain, inner, closes, closesAll, Option.map_some, entitiesField]

theorem definition_entities {nodes : List Node}
    (set : selectionSet (" \x7b".toList ++ rest) = some (nodes, below)) :
    ∃ declared, definition
      ("query".toList ++ ("($representations: [_Any!]!)".toList ++ (" \x7b".toList ++ rest))) =
      some (.operation none ⟨.query, declared, [], nodes⟩, below) := by
  have kind (cs : List Char) : operationKind? ("query".toList ++ cs) = some (.query, cs) := by rfl
  have unnamed (cs : List Char) :
    name? ("($representations: [_Any!]!)".toList ++ cs) = none := by rfl
  have declares (cs : List Char) :
    variableDefinitions ("($representations: [_Any!]!)".toList ++ cs) =
      some ([⟨"representations", [], none⟩], cs) := by rfl
  have plain : directives (" \x7b".toList ++ rest) = some ([], " \x7b".toList ++ rest) := by rfl
  refine ⟨[⟨"representations", [], none⟩], ?_⟩
  rw [definition, kind]
  simp only [unnamed, declares, plain, set, Option.bind_eq_bind, Option.bind_some]
  rfl

theorem query_chars (typeName : String) (set : List Selection) :
    (Subgraph.query typeName set).toList =
      "query".toList ++ ("($representations: [_Any!]!)".toList ++ (" \x7b".toList ++
        (" _entities".toList ++ ("(representations: $representations)".toList ++ (" \x7b".toList ++
          (" ... on ".toList ++
            (typeName.toList ++ ' ' :: (setChars set ++ " \x7d \x7d".toList)))))))) := by
  have parts : Subgraph.query typeName set =
      "query" ++ "($representations: [_Any!]!)" ++ " \x7b" ++ " _entities" ++
        "(representations: $representations)" ++ " \x7b" ++ " ... on " ++ typeName ++ " " ++
        setText set ++ " \x7d \x7d" := by rfl
  have written : (setText set).toList = setChars set := String.toList_ofList
  rw [parts]
  simp only [String.toList_append, written, List.append_assoc]
  rfl

theorem askedFor_query {typeName : String} (isName : IsName typeName)
    (named : ∀ s ∈ set, s.Named) (filled : set ≠ []) :
    askedFor? (Subgraph.query typeName set) = some (Selection.nodes set) := by
  have asked := query_chars typeName set
  generalize same : " _entities".toList ++ ("(representations: $representations)".toList ++
    (" \x7b".toList ++ (" ... on ".toList ++
      (typeName.toList ++ ' ' :: (setChars set ++ " \x7d \x7d".toList))))) = field at asked
  have enough : (itemChars set).length + 2 ≤ field.length := by
    rw [← same, setChars]
    simp only [List.length_append, List.length_cons]
    omega
  obtain ⟨fuel, counted⟩ : ∃ fuel, 2 * fuelFor (" \x7b".toList ++ field) = fuel + 3 + 6 := by
    refine ⟨2 * fuelFor (" \x7b".toList ++ field) - 9, ?_⟩
    simp only [fuelFor, List.length_append]
    omega
  have inner : nodeFuel (fuel + 3) (" ... on ".toList ++
      (typeName.toList ++ ' ' :: (setChars set ++ " \x7d \x7d".toList))) =
      some (.inline [] (Selection.nodes set), " \x7d \x7d".toList) := by
    refine nodeFuel_inline isName named filled ?_
    simp only [fuelFor, List.length_append] at counted
    omega
  have read : selectionSet (" \x7b".toList ++ field) =
      some ([entitiesField [.inline [] (Selection.nodes set)]], []) := by
    rw [selectionSet, counted, ← same]
    exact selectionSetFuel_entities inner
  obtain ⟨declared, whole⟩ := definition_entities read
  rw [askedFor?, asked, definitionsFuel, whole]
  rfl

end GraphQL

end SubscriptionGateway
