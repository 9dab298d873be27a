import SubscriptionGateway.Event.Topic
import Mathlib.Data.List.Forall2
import Mathlib.Data.List.Infix
import Mathlib.Data.List.TakeWhile

/-!
What becomes of a template. It is read as texts with placeholders between them, each placeholder
from the first two opening braces to the first two closing braces after them. A placeholder gives
way to the text of the argument that it names, and nobody reads that text again. The first piece
that has no text decides why a template has none.
-/
namespace SubscriptionGateway

namespace Text

variable {cs core : List Char}

/-- What is left of a text when the blanks at both ends are gone. -/
def Trims (cs core : List Char) : Prop :=
  (∃ lead trail, cs = lead ++ core ++ trail ∧ (∀ c ∈ lead, isBlank c = true) ∧
    ∀ c ∈ trail, isBlank c = true) ∧
  (∀ c, core.head? = some c → isBlank c = false) ∧ ∀ c, core.getLast? = some c → isBlank c = false

theorem dropWhile_blank {lead : List Char} (blank : ∀ c ∈ lead, isBlank c = true)
    (visible : ∀ c, core.head? = some c → isBlank c = false) :
    (lead ++ core).dropWhile isBlank = core := by
  rw [List.dropWhile_append_of_pos blank]
  cases core with
  | nil => rfl
  | cons c core => exact List.dropWhile_cons_of_neg (by simp [visible c rfl])

theorem trims_trim (cs : List Char) : Trims cs (trim cs) := by
  have first := List.takeWhile_append_dropWhile (p := isBlank) (l := cs)
  generalize right : (cs.dropWhile isBlank).reverse = back
  have second := List.takeWhile_append_dropWhile (p := isBlank) (l := back)
  have trimmed : trim cs = (back.dropWhile isBlank).reverse := by rw [trim, right]
  have middle : cs.dropWhile isBlank =
      (back.dropWhile isBlank).reverse ++ (back.takeWhile isBlank).reverse := by
    rw [← List.reverse_append, second, ← right, List.reverse_reverse]
  refine ⟨⟨cs.takeWhile isBlank, (back.takeWhile isBlank).reverse, ?_, ?_, ?_⟩, ?_, ?_⟩
  · rw [trimmed, List.append_assoc, ← middle, first]
  · exact fun c member => List.mem_takeWhile_imp member
  · exact fun c member => List.mem_takeWhile_imp (List.mem_reverse.mp member)
  · intro c begins
    have head : (cs.dropWhile isBlank).head? = some c := by
      rw [middle, List.head?_append, ← trimmed, begins]
      rfl
    have visible := List.head?_dropWhile_not isBlank cs
    rw [head] at visible
    simpa using visible
  · intro c ends
    rw [trimmed, List.getLast?_reverse] at ends
    have visible := List.head?_dropWhile_not isBlank back
    rw [ends] at visible
    simpa using visible

theorem trims_iff : Trims cs core ↔ trim cs = core := by
  constructor
  · rintro ⟨⟨lead, trail, rfl, leading, trailing⟩, head, last⟩
    have back : trail.reverse ++ core.reverse = (core ++ trail).reverse := by simp
    have ends : (core ++ trail).reverse.dropWhile isBlank = core.reverse := by
      rw [← back]
      refine dropWhile_blank (fun c member => trailing c (List.mem_reverse.mp member))
        fun c begins => ?_
      exact last c (by rwa [List.head?_reverse] at begins)
    cases core with
    | nil =>
      have none : (lead ++ [] ++ trail).dropWhile isBlank = [] := by
        rw [List.dropWhile_eq_nil_iff]
        intro c member
        rcases List.mem_append.mp member with first | second
        · exact leading c (by simpa using first)
        · exact trailing c second
      rw [trim, none]
      rfl
    | cons c rest =>
      have begins : (lead ++ (c :: rest ++ trail)).dropWhile isBlank = c :: rest ++ trail :=
        dropWhile_blank leading fun d same => head d (by simpa using same)
      rw [trim, List.append_assoc, begins, ends, List.reverse_reverse]
  · rintro rfl
    exact trims_trim cs

end Text

namespace Topic

open Text (Trims trims_iff)

variable {c : Char} {cs before after before' after' : List Char} {ps qs : List Piece} {p : Piece}
  {template : String} {arguments : Json.Members} {text : List Char} {fault : Fault}

/-! ## Pieces -/

/-- The first place where a character comes twice. -/
def Cut (c : Char) (cs before after : List Char) : Prop :=
  cs = before ++ c :: c :: after ∧ ¬ [c, c] <:+: before ++ [c]

inductive Segments : List Char → List Piece → Prop where
  | literal {cs : List Char} : ¬ ['\x7b', '\x7b'] <:+: cs → Segments cs [.literal cs]
  | unclosed {cs before after : List Char} : Cut '\x7b' cs before after →
      ¬ ['\x7d', '\x7d'] <:+: after →
      Segments cs [.literal before, .unclosed]
  | placeholder {cs before after inner rest : List Char} {ps : List Piece} :
      Cut '\x7b' cs before after →
      Cut '\x7d' after inner rest → Segments rest ps →
      Segments cs (.literal before :: .placeholder inner :: ps)

theorem Cut.twice (cut : Cut c cs before after) : [c, c] <:+: cs :=
  ⟨before, after, by rw [cut.1]; simp⟩

theorem Cut.length_le (cut : Cut c cs before after) (other : Cut c cs before' after') :
    before'.length ≤ before.length := by
  have first : before ++ [c, c] <+: cs := ⟨after, by rw [cut.1]; simp⟩
  have second : before' ++ [c] <+: cs := ⟨c :: after', by rw [other.1]; simp⟩
  by_contra longer
  have inside : before ++ [c, c] <+: before' ++ [c] := by
    refine List.prefix_of_prefix_length_le first second ?_
    simp only [List.length_append, List.length_cons, List.length_nil]
    omega
  exact other.2 ((List.suffix_append before [c, c]).isInfix.trans inside.isInfix)

theorem Cut.unique (cut : Cut c cs before after) (other : Cut c cs before' after') :
    before = before' ∧ after = after' := by
  have size : before.length = before'.length := by
    have le := other.length_le cut
    have ge := cut.length_le other
    omega
  have same : before ++ c :: c :: after = before' ++ c :: c :: after' := cut.1.symm.trans other.1
  obtain ⟨rfl, rest⟩ := List.append_inj same size
  simpa using rest

theorem splitAtTwice_cut (found : splitAtTwice c cs = some (before, after)) :
    Cut c cs before after := by
  fun_induction splitAtTwice c cs generalizing before with
  | case1 => cases found
  | case2 => cases found
  | case3 a b rest here =>
    obtain ⟨rfl, rfl⟩ := here
    cases found
    exact ⟨rfl, fun twice => by simpa using twice.length_le⟩
  | case4 a b rest elsewhere ih =>
    obtain ⟨⟨inner, _⟩, later, same⟩ := Option.map_eq_some_iff.mp found
    cases same
    obtain ⟨joined, first⟩ := ih later
    refine ⟨by rw [joined]; rfl, fun early => ?_⟩
    rw [List.cons_append, List.infix_cons_iff] at early
    rcases early with here | early
    · -- The two would be the first two characters of all.
      obtain ⟨rfl, next⟩ := List.cons_prefix_cons.mp here
      cases inner with
      | nil => exact elsewhere ⟨rfl, (List.cons.inj joined).1⟩
      | cons d inner =>
        obtain ⟨rfl, -⟩ := List.cons_prefix_cons.mp next
        exact elsewhere ⟨rfl, (List.cons.inj joined).1⟩
    · exact first early

theorem splitAtTwice_none (none : splitAtTwice c cs = none) : ¬ [c, c] <:+: cs := by
  fun_induction splitAtTwice c cs with
  | case1 => simp
  | case2 a =>
    intro twice
    have := twice.length_le
    simp at this
  | case3 => cases none
  | case4 a b rest elsewhere ih =>
    intro twice
    rcases List.infix_cons_iff.mp twice with here | later
    · obtain ⟨rfl, next⟩ := List.cons_prefix_cons.mp here
      obtain ⟨rfl, -⟩ := List.cons_prefix_cons.mp next
      exact elsewhere ⟨rfl, rfl⟩
    · exact ih (by simpa using none) later

theorem segments_piecesFuel {fuel : Nat} (enough : cs.length < fuel) :
    Segments cs (piecesFuel fuel cs) := by
  induction fuel generalizing cs with
  | zero => omega
  | succ fuel ih =>
    rw [piecesFuel]
    split
    · next none => exact .literal (splitAtTwice_none none)
    · next before after found =>
      have cut := splitAtTwice_cut found
      split
      · next none => exact .unclosed cut (splitAtTwice_none none)
      · next inner rest closed =>
        have close := splitAtTwice_cut closed
        refine .placeholder cut close (ih ?_)
        have size := congrArg List.length cut.1
        have less := congrArg List.length close.1
        simp only [List.length_append, List.length_cons] at size less
        omega

theorem segments_unique (segments : Segments cs ps) (other : Segments cs qs) : ps = qs := by
  induction segments generalizing qs with
  | literal absent =>
    cases other with
    | literal => rfl
    | unclosed cut => exact absurd cut.twice absent
    | placeholder cut => exact absurd cut.twice absent
  | unclosed cut open_ =>
    cases other with
    | literal absent => exact absurd cut.twice absent
    | unclosed cut' => rw [(cut.unique cut').1]
    | placeholder cut' close =>
      obtain ⟨rfl, rfl⟩ := cut.unique cut'
      exact absurd close.twice open_
  | placeholder cut close _ ih =>
    cases other with
    | literal absent => exact absurd cut.twice absent
    | unclosed cut' open_ =>
      obtain ⟨rfl, rfl⟩ := cut.unique cut'
      exact absurd close.twice open_
    | placeholder cut' close' rest =>
      obtain ⟨rfl, rfl⟩ := cut.unique cut'
      obtain ⟨rfl, rfl⟩ := close.unique close'
      rw [ih rest]

theorem segments_iff : Segments template.toList ps ↔ pieces template = ps := by
  have whole : Segments template.toList (pieces template) :=
    segments_piecesFuel (by simp [String.length])
  constructor
  · exact segments_unique whole
  · rintro rfl
    exact whole

/-! ## Texts of pieces -/

inductive Scalar : Json → List Char → Prop where
  | string (s : String) : Scalar (.string s) s.toList
  | number (n : JsonNumber) : Scalar (.number n) n.chars
  | yes : Scalar (.bool true) "true".toList
  | no : Scalar (.bool false) "false".toList

def Names (inner : List Char) (argument : String) : Prop :=
  Trims inner ("args.".toList ++ argument.toList)

/-- What stands in the place of a piece. The text of an argument stands there as it is. -/
inductive Fills (arguments : Json.Members) : Piece → List Char → Prop where
  | literal (text : List Char) : Fills arguments (.literal text) text
  | argument {inner text : List Char} {name : String} {value : Json} : Names inner name →
      arguments.get? name = some value →
      Scalar value text → Fills arguments (.placeholder inner) text

/-- Why nothing can stand in the place of a piece. -/
inductive Offends (template : String) (arguments : Json.Members) : Piece → Fault → Prop where
  | unterminated : Offends template arguments .unclosed
      (.config s!"unterminated template in topic '{template}'")
  | unsupported {inner expression : List Char} : Trims inner expression →
      ¬ "args.".toList <+: expression →
      Offends template arguments (.placeholder inner)
        (.config s!"unsupported template '{String.ofList expression}' in topic '{template}'")
  | absent {inner : List Char} {name : String} : Names inner name → arguments.get? name = none →
      Offends template arguments (.placeholder inner)
        (.invalidOperation s!"argument \"{name}\" is required to subscribe")
  | null {inner : List Char} {name : String} : Names inner name → arguments.get? name = some .null →
      Offends template arguments (.placeholder inner)
        (.invalidOperation s!"argument \"{name}\" is required to subscribe")
  | list {inner : List Char} {name : String} {items : List Json} : Names inner name →
      arguments.get? name = some (.array items) →
      Offends template arguments (.placeholder inner)
        (.invalidOperation s!"argument \"{name}\" must be a scalar, got {(Json.array items).text}")
  | object {inner : List Char} {name : String} {members : Json.Members} : Names inner name →
      arguments.get? name = some (.object members) →
      Offends template arguments (.placeholder inner)
        (.invalidOperation
          s!"argument \"{name}\" must be a scalar, got {(Json.object members).text}")

def Told (template : String) (arguments : Json.Members) (p : Piece) :
    Except TemplateError (List Char) → Prop
  | .ok text => Fills arguments p text
  | .error e => Offends template arguments p e.fault

theorem names_iff {inner : List Char} {name : String} :
    Names inner name ↔ Text.after? "args.".toList (Text.trim inner) = some name.toList := by
  rw [Names, trims_iff, Text.after?_eq_some_iff]

theorem argumentText_told {inner : List Char} {name : String} (named : Names inner name) :
    Told template arguments (.placeholder inner) (argumentText arguments name) := by
  rw [argumentText]
  cases given : arguments.get? name with
  | none => exact .absent named given
  | some value =>
    cases value with
    | null => exact .null named given
    | bool b => cases b with
      | true => exact .argument named given .yes
      | false => exact .argument named given .no
    | number n => exact .argument named given (.number n)
    | string s => exact .argument named given (.string s)
    | array items => exact .list named given
    | object members => exact .object named given

theorem pieceText_told (template : String) (arguments : Json.Members) (p : Piece) :
    Told template arguments p (pieceText template arguments p) := by
  cases p with
  | literal text => exact .literal text
  | unclosed => exact .unterminated
  | placeholder inner =>
    simp only [pieceText]
    split
    · next name found => exact argumentText_told (names_iff.mpr (by simpa using found))
    · next none =>
      refine .unsupported (trims_iff.mpr rfl) ?_
      rintro ⟨name, same⟩
      rw [Text.after?_eq_some_iff.mpr same.symm] at none
      cases none

theorem pieceText_of_names {inner : List Char} {name : String} (named : Names inner name) :
    pieceText template arguments (.placeholder inner) = argumentText arguments name := by
  simp only [pieceText, names_iff.mp named, String.ofList_toList]

theorem pieceText_of_fills (fills : Fills arguments p text) :
    pieceText template arguments p = .ok text := by
  cases fills with
  | literal => rfl
  | argument named given scalar =>
    rw [pieceText_of_names named, argumentText, given]
    cases scalar <;> rfl

theorem pieceText_of_offends (offends : Offends template arguments p fault) :
    ∃ e, pieceText template arguments p = .error e ∧ e.fault = fault := by
  cases offends with
  | unterminated => exact ⟨.unterminated template, rfl, rfl⟩
  | @unsupported inner expression trimmed differs =>
    obtain rfl := trims_iff.mp trimmed
    refine ⟨.unsupported (String.ofList (Text.trim inner)) template, ?_, rfl⟩
    cases found : Text.after? "args.".toList (Text.trim inner) with
    | none => simp only [pieceText, found]
    | some name => exact absurd ⟨name, (Text.after?_eq_some_iff.mp found).symm⟩ differs
  | absent named given | null named given =>
    exact ⟨.missing _, by rw [pieceText_of_names named, argumentText, given], rfl⟩
  | list named given | object named given =>
    exact ⟨.notScalar _ _, by rw [pieceText_of_names named, argumentText, given]; rfl, rfl⟩

theorem fills_iff : Fills arguments p text ↔ pieceText template arguments p = .ok text := by
  refine ⟨pieceText_of_fills, fun done => ?_⟩
  have told := pieceText_told template arguments p
  rwa [done] at told

theorem offends_iff : Offends template arguments p fault ↔
    ∃ e, pieceText template arguments p = .error e ∧ e.fault = fault := by
  refine ⟨pieceText_of_offends, ?_⟩
  rintro ⟨e, failed, rfl⟩
  have told := pieceText_told template arguments p
  rwa [failed] at told

/-! ## Rows of pieces -/

theorem joinPieces_ok : joinPieces template arguments ps = .ok text ↔
    ∃ texts, List.Forall₂ (Fills arguments) ps texts ∧ text = texts.flatten := by
  induction ps generalizing text with
  | nil => simp [joinPieces, eq_comm]
  | cons p ps ih =>
    constructor
    · intro done
      unfold joinPieces at done
      split at done
      · cases done
      · next first told =>
        split at done
        · cases done
        · next more rest =>
          cases done
          obtain ⟨texts, fill, rfl⟩ := ih.mp rest
          exact ⟨first :: texts, .cons (fills_iff.mpr told) fill, rfl⟩
    · rintro ⟨_, fill, rfl⟩
      cases fill with
      | cons first rest =>
        simp only [joinPieces, fills_iff.mp first, ih.mpr ⟨_, rest, rfl⟩, List.flatten_cons]

theorem joinPieces_error {e : TemplateError} : joinPieces template arguments ps = .error e ↔
    ∃ before p after, ps = before ++ p :: after ∧ (∀ q ∈ before, ∃ text, Fills arguments q text) ∧
      pieceText template arguments p = .error e := by
  induction ps with
  | nil => simp [joinPieces]
  | cons p ps ih =>
    constructor
    · intro failed
      unfold joinPieces at failed
      split at failed
      · next told =>
        cases failed
        exact ⟨[], p, ps, rfl, by simp, told⟩
      · next first told =>
        split at failed
        · next rest =>
          cases failed
          obtain ⟨before, q, after, rfl, fill, offends⟩ := ih.mp rest
          refine ⟨p :: before, q, after, rfl, ?_, offends⟩
          exact List.forall_mem_cons.mpr ⟨⟨first, fills_iff.mpr told⟩, fill⟩
        · cases failed
    · rintro ⟨before, q, after, row, fill, offends⟩
      cases before with
      | nil =>
        cases row
        simp only [joinPieces, offends]
      | cons _ before =>
        cases row
        obtain ⟨⟨first, told⟩, fill⟩ := List.forall_mem_cons.mp fill
        simp only [joinPieces, fills_iff.mp told, ih.mpr ⟨before, q, after, rfl, fill, offends⟩]

theorem render_ok {topic : String} : render template arguments = .ok topic ↔
    joinPieces template arguments (pieces template) = .ok topic.toList := by
  rw [render]
  cases joinPieces template arguments (pieces template) with
  | error e => simp [Except.map]
  | ok out => simp [Except.map, String.ext_iff]

theorem render_error {e : TemplateError} : render template arguments = .error e ↔
    joinPieces template arguments (pieces template) = .error e := by
  rw [render]
  cases joinPieces template arguments (pieces template) <;> simp [Except.map]

/-- A template has a topic if each of its pieces has a text, and it is those texts in a row. If one
has none, the first that has none says why. -/
theorem render_exact (template : String) (arguments : Json.Members) : ∃ ps,
    Segments template.toList ps ∧ (∀ qs, Segments template.toList qs → qs = ps) ∧
    (∀ topic, render template arguments = .ok topic ↔
      ∃ texts, List.Forall₂ (Fills arguments) ps texts ∧ topic.toList = texts.flatten) ∧
    ∀ fault, (∃ e, render template arguments = .error e ∧ e.fault = fault) ↔
      ∃ before p after, ps = before ++ p :: after ∧ (∀ q ∈ before, ∃ text, Fills arguments q text) ∧
        Offends template arguments p fault := by
  refine ⟨pieces template, segments_iff.mpr rfl, fun qs other => (segments_iff.mp other).symm,
    fun topic => render_ok.trans joinPieces_ok, fun fault => ?_⟩
  simp only [render_error, joinPieces_error, offends_iff]
  constructor
  · rintro ⟨e, ⟨before, p, after, row, fill, failed⟩, same⟩
    exact ⟨before, p, after, row, fill, e, failed, same⟩
  · rintro ⟨before, p, after, row, fill, e, failed, same⟩
    exact ⟨e, ⟨before, p, after, row, fill, failed⟩, same⟩

/-- Braces that an argument brings are no placeholder. -/
example : render "orders.\x7b\x7b args.id \x7d\x7d" [("id", .string "\x7b\x7bargs.id\x7d\x7d")] =
    .ok "orders.\x7b\x7bargs.id\x7d\x7d" := by
  rfl

end Topic

end SubscriptionGateway
