import SubscriptionGateway.Json.Writer
import SubscriptionGateway.Proofs.Json.Numerals
import SubscriptionGateway.Proofs.Json.Values

/-!
What is written for a value is one JSON text and its form is the form of the value, however deep the
value nests and whatever stands after it. A reader that rounds numerals to the nearest double and
keeps all members reads the value back. The reader with a limit does so up to what it makes of the
doubles, and of an object that stands for a text.
-/
namespace SubscriptionGateway

namespace Form

open Json

/-! ## Strings -/

variable {rest : Utf8.Chars}

theorem hexValue?_hexDigit {n : Nat} (small : n < 16) : hexValue? (hexDigit n) = some n := by
  have all : ∀ n, n < 16 → hexValue? (hexDigit n) = some n := by decide
  exact all n small

theorem hex4?_control {n : Nat} (small : n < 32) :
    hex4? '0' '0' (hexDigit (n / 16)) (hexDigit (n % 16)) = some n := by
  unfold hex4?
  rw [hexValue?_hexDigit (by omega), hexValue?_hexDigit (by omega)]
  simp only [show hexValue? '0' = some 0 from rfl, Option.bind_eq_bind, Option.bind_some,
    Option.pure_def,
    Option.some.injEq]
  omega

/-- A part of a string that stands for one character. -/
def Means (p : Piece) (c : Char) : Prop := ∀ ps, join (p :: ps) = (join ps).map (c :: ·)

theorem means_char (c : Char) : Means (.char c) c := fun _ => rfl

/-- The number of a character that is no half of a pair stands for it, whatever follows. -/
theorem means_unit {c : Char} (low : c.toNat < 0xD800) : Means (.unit c.toNat) c := by
  intro ps
  have alone : ¬ (0xD800 ≤ c.toNat ∧ c.toNat < 0xDC00) := by omega
  have alone' : ¬ (0xDC00 ≤ c.toNat ∧ c.toNat < 0xE000) := by omega
  have alone'' : ¬ (0xD800 ≤ c.toNat ∧ c.toNat < 0xE000) := by omega
  cases ps with
  | nil => simp [join, alone'', Char.ofNat_toNat]
  | cons p ps => cases p <;> simp [join, alone, alone', alone'', Char.ofNat_toNat]

theorem scanString_named {e c : Char} (other : e ≠ 'u') (named : plainEscape? e = some c) :
    scanString (some '\\' :: some e :: rest) =
      (scanString rest).map fun read => (.char c :: read.1, read.2) := by
  rw [scanString, named]
  · cases scanString rest <;> rfl
  · intro _ _ _ _ _ _ same
    exact absurd same other

theorem scanString_unit {a b c d : Char} {n : Nat} (digits : hex4? a b c d = some n) :
    scanString (some '\\' :: some 'u' :: some a :: some b :: some c :: some d :: rest) =
      (scanString rest).map fun read => (.unit n :: read.1, read.2) := by
  rw [scanString, digits]
  cases scanString rest <;> rfl

theorem scanString_plain {c : Char} (quote : c ≠ '"') (escaped : c ≠ '\\') (above : 32 ≤ c.toNat) :
    scanString (some c :: rest) =
      (scanString rest).map fun read => (.char c :: read.1, read.2) := by
  have kept : ¬ (decide (c.toNat < 32) || c == '\\') = true := by simp [above, escaped]
  rw [scanString, if_neg kept]
  · cases scanString rest <;> rfl
  · exact quote
  · intro _ _ _ _ _ _
    exact escaped
  · intro _ _ _
    exact escaped

theorem scanString_escape (c : Char) (rest : Utf8.Chars) : ∃ p, Means p c ∧
    scanString ((escape c).map some ++ rest) =
      (scanString rest).map fun read => (p :: read.1, read.2) := by
  have named : ∀ e d : Char, e ≠ 'u' → plainEscape? e = some d → c.toNat = d.toNat →
      ∃ p, Means p c ∧ scanString (['\\', e].map some ++ rest) =
        (scanString rest).map fun read => (p :: read.1, read.2) := by
    intro e d other escapes same
    rw [← Char.toNat_inj.mp same] at escapes
    exact ⟨_, means_char c, scanString_named other escapes⟩
  unfold escape
  split
  next h => exact named '"' '"' (by decide) rfl (by rw [h])
  next quote =>
  split
  next h => exact named '\\' '\\' (by decide) rfl (by rw [h])
  next escaped =>
  split
  next h => exact named 'b' '\x08' (by decide) rfl h
  split
  next h => exact named 't' '\t' (by decide) rfl h
  split
  next h => exact named 'n' '\n' (by decide) rfl h
  split
  next h => exact named 'f' '\x0c' (by decide) rfl h
  split
  next h => exact named 'r' '\r' (by decide) rfl h
  split
  next control => exact ⟨_, means_unit (by omega), scanString_unit (hex4?_control control)⟩
  next above => exact ⟨_, means_char c, scanString_plain quote escaped (by omega)⟩

theorem scanString_quoted (s : String) (rest : Utf8.Chars) : ∃ ps, stringOf ps = some s ∧
    scanString ((s.toList.flatMap escape ++ ['"']).map some ++ rest) = some (ps, rest) := by
  suffices read : ∀ cs : List Char, ∃ ps, join ps = some cs ∧
      scanString ((cs.flatMap escape ++ ['"']).map some ++ rest) = some (ps, rest) by
    obtain ⟨ps, joined, read⟩ := read s.toList
    exact ⟨ps, by rw [stringOf, joined, Option.map_some, String.ofList_toList], read⟩
  intro cs
  induction cs with
  | nil => exact ⟨[], rfl, rfl⟩
  | cons c cs ih =>
    obtain ⟨ps, joined, read⟩ := ih
    obtain ⟨p, stands, scans⟩ := scanString_escape c ((cs.flatMap escape ++ ['"']).map some ++ rest)
    refine ⟨p :: ps, by rw [stands, joined, Option.map_some], ?_⟩
    rw [List.flatMap_cons, List.append_assoc, List.map_append, List.append_assoc, scans, read,
      Option.map_some]

/-! ## Numerals -/

/-- No numeral goes on here. -/
def Ends (cs : Utf8.Chars) : Prop := ∀ c ∈ cs.head?, (c.map isNumeralPart).getD false = false

theorem ends_nil : Ends [] := by simp [Ends]

theorem ends_cons {c : Char} {cs : Utf8.Chars} (other : isNumeralPart c = false) :
    Ends (some c :: cs) := by
  simp [Ends, other]

theorem isNumeralPart_of_isDigit {c : Char} (digit : c.isDigit = true) :
    isNumeralPart c = true := by
  simp [isNumeralPart, digit]

theorem spelling_parts {s : Spelling} (proper : s.Proper) :
    ∀ c ∈ s.chars, isNumeralPart c = true := by
  have digits : ∀ {ds}, Spelling.Digits ds → ∀ c ∈ ds, isNumeralPart c = true :=
    fun digits c member => isNumeralPart_of_isDigit (digits.2 c member)
  have sign : ∀ negative, ∀ c ∈ Spelling.sign negative, isNumeralPart c = true := by
    intro negative
    cases negative <;> simp [Spelling.sign, isNumeralPart]
  intro c member
  unfold Spelling.chars at member
  simp only [List.mem_append] at member
  rcases member with signed | whole | fraction | exponent
  · exact sign _ c signed
  · exact digits proper.whole c whole
  · unfold Spelling.fractionChars at fraction
    cases given : s.fraction with
    | none => simp [given] at fraction
    | some ds =>
      rw [given] at fraction
      rcases List.mem_cons.mp fraction with rfl | digit
      · decide
      · exact digits (proper.fraction ds given) c digit
  · unfold Spelling.exponentChars at exponent
    cases given : s.exponent with
    | none => simp [given] at exponent
    | some e =>
      rw [given] at exponent
      rcases List.mem_cons.mp exponent with rfl | member
      · decide
      · rcases List.mem_append.mp member with signed | digit
        · exact sign _ c signed
        · exact digits (proper.exponent e given) c digit

theorem number_parts (n : JsonNumber) : ∀ c ∈ n.chars, isNumeralPart c = true := by
  obtain ⟨s, proper, chars, -⟩ := n.spelled
  rw [← chars]
  exact spelling_parts proper

theorem scanNumeral_number (n : JsonNumber) (ends : Ends rest) :
    scanNumeral (n.chars.map some ++ rest) = some (.number n.numeral, rest) := by
  have stop : rest.takeWhile (fun c => (c.map isNumeralPart).getD false) = [] := by
    cases rest with
    | nil => rfl
    | cons c cs => exact List.takeWhile_cons_of_neg (by simp [ends c rfl])
  have all : ∀ c ∈ n.chars.map some, (c.map isNumeralPart).getD false = true := by
    intro c member
    obtain ⟨d, digit, rfl⟩ := List.mem_map.mp member
    exact number_parts n d digit
  have run :
    ((n.chars.map some ++ rest).takeWhile fun c => (c.map isNumeralPart).getD false).filterMap id =
      n.chars := by
    rw [List.takeWhile_append_of_pos all, stop, List.append_nil, List.filterMap_map]
    simp
  unfold scanNumeral
  dsimp only
  rw [run, n.scan_chars]
  simp

/-! ## Values -/

mutual

/-- The form of what is written for a value. -/
def of : Json → Form
  | .null => .null
  | .bool b => .bool b
  | .number n => .number n.numeral
  | .string s => .string (some s)
  | .array items => .array (ofItems items)
  | .object members => .object (ofMembers members)

def ofItems : List Json → List Form
  | [] => []
  | item :: items => of item :: ofItems items

def ofMembers : List (String × Json) → List (Option String × Form)
  | [] => []
  | (key, value) :: members => (some key, of value) :: ofMembers members

end

theorem skip_cons {c : Char} {cs : Utf8.Chars} (other : isSpace (some c) = false) :
    skip (some c :: cs) = some c :: cs :=
  List.dropWhile_cons_of_neg (by simp [other])

theorem number_head (n : JsonNumber) :
    ∃ c cs, n.chars = c :: cs ∧ (c = '-' ∨ c.isDigit = true) := by
  obtain ⟨s, proper, chars, -⟩ := n.spelled
  obtain ⟨c, cs, whole, digit⟩ := Spelling.digits_head proper.whole
  rw [← chars]
  unfold Spelling.chars Spelling.sign
  cases s.negative with
  | true => exact ⟨'-', _, rfl, .inl rfl⟩
  | false => exact ⟨c, _, by rw [whole]; rfl, .inr digit⟩

theorem chars_head (j : Json) : ∃ c cs, j.chars = c :: cs ∧
    isSpace (some c) = false ∧ c ≠ ']' ∧ c ≠ '\x7d' := by
  cases j with
  | null => exact ⟨_, _, rfl, by decide⟩
  | bool b => cases b <;> exact ⟨_, _, rfl, by decide⟩
  | number n =>
    obtain ⟨c, cs, chars, start⟩ := number_head n
    refine ⟨c, cs, chars, ?_⟩
    rcases start with rfl | digit
    · decide
    · have apart : ∀ d : Char, d.isDigit = false → c ≠ d := by
        rintro d other rfl
        rw [digit] at other
        cases other
      refine ⟨?_, apart _ (by decide), apart _ (by decide)⟩
      simp [isSpace, apart ' ' (by decide), apart '\n' (by decide), apart '\t' (by decide),
        apart '\r' (by decide)]
  | string s => exact ⟨_, _, rfl, by decide⟩
  | array items => cases items <;> exact ⟨_, _, rfl, by decide⟩
  | object members => cases members <;> exact ⟨_, _, rfl, by decide⟩

theorem skip_chars (j : Json) (rest : Utf8.Chars) :
    skip (j.chars.map some ++ rest) = j.chars.map some ++ rest := by
  obtain ⟨c, cs, chars, other, -⟩ := chars_head j
  rw [chars]
  exact skip_cons other

theorem chars_positive (j : Json) : 0 < j.chars.length := by
  obtain ⟨c, cs, chars, -⟩ := chars_head j
  rw [chars]
  exact Nat.succ_pos _

theorem scanFuel_number (n : JsonNumber) (fuel : Nat) (ends : Ends rest) :
    scanFuel (fuel + 1) (n.chars.map some ++ rest) = some (.number n.numeral, rest) := by
  have read := scanNumeral_number n ends
  have skips := skip_chars (.number n) rest
  obtain ⟨c, cs, chars, start⟩ := number_head n
  have apart : ∀ d : Char, d.isDigit = false → d ≠ '-' → c ≠ d := by
    rintro d other minus rfl
    exact start.elim minus (by simp [other])
  rw [Json.chars, chars, List.map_cons, List.cons_append] at skips
  rw [chars, List.map_cons, List.cons_append] at read ⊢
  rw [scanFuel, skips]
  split
  next h => exact absurd (Option.some.inj (List.cons.inj h).1) (apart 'n' (by decide) (by decide))
  next h => exact absurd (Option.some.inj (List.cons.inj h).1) (apart 't' (by decide) (by decide))
  next h => exact absurd (Option.some.inj (List.cons.inj h).1) (apart 'f' (by decide) (by decide))
  next h => exact absurd (Option.some.inj (List.cons.inj h).1) (apart '"' (by decide) (by decide))
  next h => exact absurd (Option.some.inj (List.cons.inj h).1) (apart '[' (by decide) (by decide))
  next h =>
    exact absurd (Option.some.inj (List.cons.inj h).1) (apart '\x7b' (by decide) (by decide))
  next => exact read

theorem scanFuel_string (s : String) (fuel : Nat) :
    scanFuel (fuel + 1) ((quoted s).map some ++ rest) = some (.string (some s), rest) := by
  obtain ⟨ps, joined, read⟩ := scanString_quoted s rest
  have skips : skip ((quoted s).map some ++ rest) =
      some '"' :: ((s.toList.flatMap escape ++ ['"']).map some ++ rest) := skip_cons (by decide)
  rw [scanFuel, skips]
  simp only [read, Option.map_some, joined]

theorem scanFuel_array (item : Json) (tail : Utf8.Chars) (fuel : Nat) :
    scanFuel (fuel + 1) (some '[' :: (item.chars.map some ++ tail)) =
      (scanItems fuel (item.chars.map some ++ tail)).map fun (items, rest) =>
        (.array items, rest) := by
  have skips := skip_chars item tail
  obtain ⟨c, cs, chars, -, other, -⟩ := chars_head item
  rw [chars, List.map_cons, List.cons_append] at skips ⊢
  rw [scanFuel, skip_cons (by decide)]
  simp only [skips]
  split
  next h => exact absurd (Option.some.inj (List.cons.inj h).1) other
  next => rfl

theorem scanFuel_object (key : String) (tail : Utf8.Chars) (fuel : Nat) :
    scanFuel (fuel + 1) (some '\x7b' :: ((quoted key).map some ++ tail)) =
      (scanMembers fuel ((quoted key).map some ++ tail)).map fun (members, rest) =>
        (.object members, rest) := by
  have skips : skip ((quoted key).map some ++ tail) = (quoted key).map some ++ tail :=
    skip_cons (by decide)
  rw [scanFuel, skip_cons (by decide)]
  simp only [skips]
  rfl

theorem ends_comma (cs : Utf8.Chars) : Ends (some ',' :: cs) := ends_cons (by decide)

theorem ends_items (items : List Json) (rest : Utf8.Chars) :
    Ends ((itemChars items).map some ++ rest) := by
  cases items with
  | nil => exact ends_cons (by decide)
  | cons item items => exact ends_comma _

theorem ends_members (members : Members) (rest : Utf8.Chars) :
    Ends ((memberChars members).map some ++ rest) := by
  cases members with
  | nil => exact ends_cons (by decide)
  | cons member members => exact ends_comma _

theorem itemChars_positive (items : List Json) : 0 < (itemChars items).length := by
  cases items <;> exact Nat.succ_pos _

theorem memberChars_positive (members : Members) : 0 < (memberChars members).length := by
  cases members <;> exact Nat.succ_pos _

theorem scanMembers_key (key : String) (tail : Utf8.Chars) (fuel : Nat) :
    scanMembers (fuel + 1) ((quoted key).map some ++ some ':' :: tail) =
      match scanFuel fuel tail with
      | none => none
      | some (value, rest) =>
        match skip rest with
        | some ',' :: rest =>
          (scanMembers fuel rest).map fun (members, rest) => ((some key, value) :: members, rest)
        | some '\x7d' :: rest => some ([(some key, value)], rest)
        | _ => none := by
  obtain ⟨ps, joined, read⟩ := scanString_quoted key (some ':' :: tail)
  have skips : skip ((quoted key).map some ++ some ':' :: tail) =
      some '"' :: ((key.toList.flatMap escape ++ ['"']).map some ++ some ':' :: tail) :=
    skip_cons (by decide)
  rw [scanMembers, skips]
  simp only [read, skip_cons (show isSpace (some ':') = false by decide)]
  exact joined ▸ rfl

/-!
Two calls at most for each character: one for a value, and one along the items it stands among.
-/

mutual

theorem scanFuel_chars : ∀ (j : Json) (fuel : Nat) (rest : Utf8.Chars),
    2 * j.chars.length ≤ fuel + 1 → Ends rest →
    scanFuel fuel (j.chars.map some ++ rest) = some (of j, rest)
  | j, 0, rest, enough, _ => by
    have := chars_positive j
    omega
  | .null, fuel + 1, rest, _, _ => by
    rw [scanFuel, skip_chars]
    rfl
  | .bool b, fuel + 1, rest, _, _ => by
    rw [scanFuel, skip_chars]
    cases b <;> rfl
  | .number n, fuel + 1, rest, _, ends => scanFuel_number n fuel ends
  | .string s, fuel + 1, rest, _, _ => scanFuel_string s fuel
  | .array [], fuel + 1, rest, _, _ => by
    rw [scanFuel, skip_chars]
    rfl
  | .array (item :: items), fuel + 1, rest, enough, _ => by
    have read := scanItems_chars item items fuel rest (by simp [Json.chars] at enough ⊢; omega)
    rw [Json.chars, List.map_cons, List.map_append, List.cons_append, List.append_assoc,
      scanFuel_array,
      read]
    rfl
  | .object [], fuel + 1, rest, _, _ => by
    rw [scanFuel, skip_chars]
    rfl
  | .object ((key, value) :: members), fuel + 1, rest, enough, _ => by
    have read := scanMembers_chars key value members fuel rest
      (by simp [Json.chars] at enough ⊢; omega)
    rw [show (Json.object ((key, value) :: members)).chars.map some ++ rest =
        some '\x7b' :: ((quoted key).map some ++ some ':' ::
          (value.chars.map some ++ ((memberChars members).map some ++ rest))) by simp [Json.chars],
      scanFuel_object, read]
    rfl

theorem scanItems_chars : ∀ (item : Json) (items : List Json) (fuel : Nat) (rest : Utf8.Chars),
    2 * (item.chars.length + (itemChars items).length) ≤ fuel + 2 →
    scanItems fuel (item.chars.map some ++ ((itemChars items).map some ++ rest)) =
      some (of item :: ofItems items, rest)
  | item, items, 0, rest, enough => by
    have := chars_positive item
    have := itemChars_positive items
    omega
  | item, [], fuel + 1, rest, enough => by
    have read := scanFuel_chars item fuel ((itemChars []).map some ++ rest)
      (by simp [itemChars] at enough; omega) (ends_items [] rest)
    rw [scanItems, read]
    rfl
  | item, next :: items, fuel + 1, rest, enough => by
    have read := scanFuel_chars item fuel ((itemChars (next :: items)).map some ++ rest)
      (by simp [itemChars] at enough; omega) (ends_items (next :: items) rest)
    have others := scanItems_chars next items fuel rest (by simp [itemChars] at enough; omega)
    rw [scanItems, read]
    simp only [itemChars, List.map_cons, List.map_append, List.cons_append, List.append_assoc,
      skip_cons (show isSpace (some ',') = false by decide), others, Option.map_some]
    rfl

theorem scanMembers_chars : ∀ (key : String) (value : Json) (members : Members) (fuel : Nat)
    (rest : Utf8.Chars),
    2 * (value.chars.length + (memberChars members).length) ≤ fuel + 2 →
    scanMembers fuel ((quoted key).map some ++ some ':' ::
      (value.chars.map some ++ ((memberChars members).map some ++ rest))) =
      some ((some key, of value) :: ofMembers members, rest)
  | key, value, members, 0, rest, enough => by
    have := chars_positive value
    have := memberChars_positive members
    omega
  | key, value, [], fuel + 1, rest, enough => by
    have read := scanFuel_chars value fuel ((memberChars []).map some ++ rest)
      (by simp [memberChars] at enough; omega) (ends_members [] rest)
    rw [scanMembers_key, read]
    rfl
  | key, value, (key', value') :: members, fuel + 1, rest, enough => by
    have read :=
      scanFuel_chars value fuel ((memberChars ((key', value') :: members)).map some ++ rest)
      (by simp [memberChars] at enough; omega) (ends_members _ rest)
    have others := scanMembers_chars key' value' members fuel rest
      (by simp [memberChars] at enough; omega)
    rw [scanMembers_key, read]
    simp only [memberChars, List.map_cons, List.map_append, List.cons_append, List.append_assoc,
      skip_cons (show isSpace (some ',') = false by decide), others, Option.map_some]
    rfl

end

/-- The text of a value is a whole text and its form is the form of the value. -/
theorem read?_chars (j : Json) : read? (j.chars.map some) = some (of j) := by
  have read := scanFuel_chars j (2 * (j.chars.map some).length + 2) []
    (by rw [List.length_map]; omega) ends_nil
  rw [List.append_nil] at read
  unfold read? scan
  rw [read]
  rfl

/-! ## A reader of all that stands in a text -/

mutual

/-- The value of a form in which nothing is changed or refused: every numeral has its meaning, and
every member keeps its place. -/
def meaning? : Form → Option Json
  | .null => some .null
  | .bool b => some (.bool b)
  | .number n => n.nearest?.map .number
  | .string s => s.map .string
  | .array items => (meanings? items).map .array
  | .object members => (memberMeanings? members).map .object

def meanings? : List Form → Option (List Json)
  | [] => some []
  | item :: items =>
    match meaning? item, meanings? items with
    | some v, some vs => some (v :: vs)
    | _, _ => none

def memberMeanings? : List (Option String × Form) → Option Members
  | [] => some []
  | (key, value) :: members =>
    match key, meaning? value, memberMeanings? members with
    | some k, some v, some ms => some ((k, v) :: ms)
    | _, _, _ => none

end

mutual

theorem meaning?_of : ∀ j : Json, (of j).meaning? = some j
  | .null | .bool _ | .string _ => rfl
  | .number n => by rw [of, meaning?, n.nearest_numeral]; rfl
  | .array items => by rw [of, meaning?, meanings?_of items]; rfl
  | .object members => by rw [of, meaning?, memberMeanings?_of members]; rfl

theorem meanings?_of : ∀ items : List Json, meanings? (ofItems items) = some items
  | [] => rfl
  | item :: items => by rw [ofItems, meanings?, meaning?_of item, meanings?_of items]

theorem memberMeanings?_of : ∀ members : Members, memberMeanings? (ofMembers members) = some members
  | [] => rfl
  | (key, value) :: members => by
    simp only [ofMembers, memberMeanings?, meaning?_of value, memberMeanings?_of members]

end

end Form

namespace Json

def parse? (text : String) : Option Json := (Form.read? (text.toList.map some)).bind Form.meaning?

theorem parse?_text (j : Json) : parse? j.text = some j := by
  unfold parse? text
  rw [String.toList_ofList, Form.read?_chars, Option.bind_some, Form.meaning?_of]

theorem text_injective : Function.Injective text := by
  intro a b same
  have read := parse?_text a
  rw [same, parse?_text b] at read
  exact (Option.some.inj read).symm

/-! ## The reader with a limit -/

/-- An object that stands for a text. -/
def isMarked (members : Members) : Bool := (members.head?.map (·.1)) == some Form.textMark

mutual

def depth : Json → Nat
  | .array items => depths items + 1
  | .object members => memberDepths members + 1
  | _ => 0

def depths : List Json → Nat
  | [] => 0
  | item :: items => max (depth item) (depths items)

def memberDepths : Members → Nat
  | [] => 0
  | (_, value) :: members => max (depth value) (memberDepths members)

end

mutual

def Distinct : Json → Prop
  | .array items => DistinctItems items
  | .object members => (Members.keys members).Nodup ∧ DistinctMembers members
  | _ => True

def DistinctItems : List Json → Prop
  | [] => True
  | item :: items => Distinct item ∧ DistinctItems items

def DistinctMembers : Members → Prop
  | [] => True
  | (_, value) :: members => Distinct value ∧ DistinctMembers members

end

mutual

/-- What comes back when a value is written and read: each double as its digits are scaled, and for
an object that stands for a text the value of that text. -/
def reread? : Json → Option Json
  | .number n => n.numeral.value?.map .number
  | .array items => (rereadItems? items).map .array
  | .object members =>
    if isMarked members then
      match members with
      | [(_, .string s)] => readText? s
      | _ => none
    else (rereadMembers? members).map .object
  | j => some j

def rereadItems? : List Json → Option (List Json)
  | [] => some []
  | item :: items =>
    match reread? item, rereadItems? items with
    | some v, some vs => some (v :: vs)
    | _, _ => none

def rereadMembers? : Members → Option Members
  | [] => some []
  | (key, value) :: members =>
    match reread? value, rereadMembers? members with
    | some v, some ms => some ((key, v) :: ms)
    | _, _ => none

end

theorem keys_reread : ∀ {members read : Members}, rereadMembers? members = some read →
    Members.keys read = Members.keys members
  | [], read, h => by rw [← Option.some.inj h]
  | (key, value) :: members, read, h => by
    rw [rereadMembers?] at h
    split at h
    next v ms _ others =>
      rw [← Option.some.inj h]
      exact congrArg (key :: ·) (keys_reread others)
    next => cases h

theorem ofMembers_marked (members : Members) :
    (((Form.ofMembers members).head?.map (·.1)) == some (some Form.textMark)) =
      isMarked members := by
  cases members with
  | nil => rfl
  | cons member members => simp [Form.ofMembers, isMarked]

theorem text_of (members : Members) :
    (match Form.ofMembers members with
      | [(_, .string (some s))] => readText? s
      | _ => none) =
    (match members with
      | [(_, .string s)] => readText? s
      | _ => none) := by
  match members with
  | [] => rfl
  | [(_, value)] => cases value <;> rfl
  | (_, _) :: (_, _) :: _ => simp [Form.ofMembers]

mutual

theorem value?_of : ∀ (j : Json) (limit : Nat), j.Distinct → j.depth ≤ limit →
    (Form.of j).value? readText? limit = j.reread?
  | .null, limit, _, _ | .bool _, limit, _, _ | .string _, limit, _, _ | .number _,
      limit, _, _ => by
    simp [Form.of, Form.value?, reread?]
  | .array items, 0, _, shallow => by simp [depth] at shallow
  | .array items, limit + 1, distinct, shallow => by
    rw [Form.of, Form.value?, reread?,
      values?_of items limit distinct (by simpa [depth] using shallow)]
  | .object members, 0, _, shallow => by simp [depth] at shallow
  | .object members, limit + 1, distinct, shallow => by
    have read := memberValues?_of members limit distinct.2 (by simpa [depth] using shallow)
    unfold Form.of Form.value? reread?
    dsimp only
    rw [ofMembers_marked]
    split
    next => exact text_of members
    next =>
      rw [read]
      cases others : rereadMembers? members with
      | none => rfl
      | some ms =>
        have distinct' : (Members.keys ms).Nodup := keys_reread others ▸ distinct.1
        rw [Option.map_some, Option.map_some, Members.ofList_eq distinct']

theorem values?_of : ∀ (items : List Json) (limit : Nat), DistinctItems items →
    depths items ≤ limit →
    Form.values? readText? limit (Form.ofItems items) = rereadItems? items
  | [], _, _, _ => rfl
  | item :: items, limit, distinct, shallow => by
    rw [depths] at shallow
    rw [Form.ofItems, Form.values?, value?_of item limit distinct.1 (by omega),
      values?_of items limit distinct.2 (by omega)]
    rfl

theorem memberValues?_of : ∀ (members : Members) (limit : Nat), DistinctMembers members →
    memberDepths members ≤ limit →
    Form.memberValues? readText? limit (Form.ofMembers members) = rereadMembers? members
  | [], _, _, _ => rfl
  | (key, value) :: members, limit, distinct, shallow => by
    rw [memberDepths] at shallow
    simp only [Form.ofMembers, Form.memberValues?, value?_of value limit distinct.1 (by omega),
      memberValues?_of members limit distinct.2 (by omega)]
    rw [rereadMembers?]
    cases value.reread? <;> cases rereadMembers? members <;> rfl

end

mutual

/-- No double is rounded off its value when it is read, and no object stands for a text. -/
def Stable : Json → Prop
  | .number n => n.numeral.value? = some n
  | .array items => StableItems items
  | .object members => isMarked members = false ∧ StableMembers members
  | _ => True

def StableItems : List Json → Prop
  | [] => True
  | item :: items => Stable item ∧ StableItems items

def StableMembers : Members → Prop
  | [] => True
  | (_, value) :: members => Stable value ∧ StableMembers members

end

theorem stable_integer (i : Int) (fits : IntegerRange i) : (number (.integer i fits)).Stable :=
  JsonNumber.value_integer i fits

mutual

theorem reread?_stable : ∀ j : Json, j.Stable → j.reread? = some j
  | .null, _ | .bool _, _ | .string _, _ => rfl
  | .number n, settled => by rw [reread?, settled]; rfl
  | .array items, settled => by rw [reread?, rereadItems?_stable items settled]; rfl
  | .object members, settled => by
    unfold reread?
    rw [if_neg (by rw [settled.1]; decide), rereadMembers?_stable members settled.2]
    rfl

theorem rereadItems?_stable : ∀ items : List Json, StableItems items →
    rereadItems? items = some items
  | [], _ => rfl
  | item :: items, settled => by
    rw [rereadItems?, reread?_stable item settled.1, rereadItems?_stable items settled.2]

theorem rereadMembers?_stable : ∀ members : Members, StableMembers members →
    rereadMembers? members = some members
  | [], _ => rfl
  | (key, value) :: members, settled => by
    rw [rereadMembers?, reread?_stable value settled.1, rereadMembers?_stable members settled.2]

end

end Json

end SubscriptionGateway
