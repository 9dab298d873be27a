import SubscriptionGateway.WebSocket.Readiness
import Mathlib.Algebra.Order.BigOperators.Group.List
import Mathlib.Algebra.Order.Group.Nat
import Mathlib.Data.List.TakeWhile

/-!
Waiting again and again for what a socket has to say, until it ends or is cancelled. Whoever waits
for items and cancellation together hears what is said before the cancellation. Whoever reads with a
deadline looks at the cancellation before each read only, so the read that is under way when the
cancellation comes goes on to its deadline: what is said first until then is heard as well, and
nothing after it. Apart from that one read both hear the same.
-/
namespace SubscriptionGateway.WebSocket

variable {α : Type}

def Readiness.isIdle : Readiness α → Bool
  | .idle => true
  | _ => false

def Readiness.isLast : Readiness α → Bool
  | .closed | .cancelled => true
  | _ => false

/-- When the read ends that is under way at a time, if reads follow each other from `since` on. -/
def readEnd (ms since time : Nat) : Nat := since + (time - since + (ms - 1)) / ms * ms

theorem readEnd_within {ms since time : Nat} (later : since < time) (within : time ≤ since + ms) :
    readEnd ms since time = since + ms := by
  have one : (time - since + (ms - 1)) / ms = 1 :=
    Nat.div_eq_of_lt_le (by omega) (by omega)
  simp [readEnd, one]

theorem readEnd_next {ms since time : Nat} (positive : 0 < ms) (beyond : since + ms ≤ time) :
    readEnd ms (since + ms) time = readEnd ms since time := by
  have one : (time - since + (ms - 1)) / ms = (time - (since + ms) + (ms - 1)) / ms + 1 := by
    rw [← Nat.add_div_right _ positive]
    congr 1
    omega
  simp only [readEnd, one, Nat.add_mul, Nat.one_mul]
  omega

theorem le_readEnd {ms since time : Nat} (positive : 0 < ms) : time ≤ readEnd ms since time := by
  have whole := Nat.lt_div_mul_add (a := time - since + (ms - 1)) positive
  unfold readEnd
  omega

def ReadStrategy.hears (strategy : ReadStrategy) (cancelledAt : Option Nat)
    (since time : Nat) : Bool :=
  match cancelledAt with
  | none => true
  | some c => match strategy with
    | .evented => time < c
    | .deadline ms => since < c && decide (time ≤ readEnd ms since c)

def ReadStrategy.hearing (strategy : ReadStrategy) (cancelledAt : Option Nat) :
    Nat → List (Nat × Readiness α) → List (Readiness α)
  | _, [] => if cancelledAt.isSome then [.cancelled] else []
  | since, (time, r) :: rest =>
    if strategy.hears cancelledAt since time then
      r :: if r.isLast then [] else strategy.hearing cancelledAt time rest
    else [.cancelled]

namespace Socket

/-- What the socket says, each at its time: its items, and at last its end. -/
def sayings (s : Socket α) : List (Nat × Readiness α) :=
  s.arrivals.map (fun x => (x.1, .item x.2)) ++ (s.endsAt.map fun t => (t, .closed)).toList

def outcomes (strategy : ReadStrategy) : Nat → Nat → Socket α → List (Readiness α)
  | 0, _, _ => []
  | n + 1, now, s =>
    match s.nextItem strategy now with
    | none => []
    | some (r, t, s') => r :: if r.isLast then [] else outcomes strategy n t s'

def heard (strategy : ReadStrategy) (n now : Nat) (s : Socket α) : List (Readiness α) :=
  (outcomes strategy n now s).filter (!·.isIdle)

def hearing (strategy : ReadStrategy) (now : Nat) (s : Socket α) : List (Readiness α) :=
  strategy.hearing s.cancelledAt now s.sayings

/-- Everything is said in the order of its time, and from the first wait on. -/
structure Timely (now : Nat) (s : Socket α) : Prop where
  sorted : s.sayings.Pairwise (·.1 ≤ ·.1)
  fresh : ∀ x ∈ s.sayings, now ≤ x.1

variable {strategy : ReadStrategy} {now t c : Nat} {s : Socket α} {r : Readiness α}
  {rest : List (Nat × Readiness α)}

theorem news_eq (s : Socket α) (t : Nat) :
    s.news t = (s.sayings.head?.filter (·.1 ≤ t)).map (·.2) := by
  unfold news sayings
  cases s.arrivals with
  | nil => cases s.endsAt <;> simp [Option.filter, apply_ite]
  | cons x more => simp [Option.filter, apply_ite]

theorem news_said (said : s.sayings = (t, r) :: rest) (t' : Nat) :
    s.news t' = if t ≤ t' then some r else none := by
  simp [news_eq, said, Option.filter, apply_ite]

theorem news_nothing (said : s.sayings = []) (t' : Nat) : s.news t' = none := by
  simp [news_eq, said]

theorem news_quiet (quiet : ∀ x ∈ s.sayings, t < x.1) : s.news t = none := by
  cases said : s.sayings with
  | nil => exact news_nothing said t
  | cons x rest =>
    have later := quiet x (by simp [said])
    simp [news_eq, said, Option.filter, later]

/-- A wait ends at the first of its instants at which there is something to see. -/
theorem nextItem_of_first (here : t ∈ instants strategy now s)
    (seen : lookAt strategy now s t = some r)
    (silent : ∀ t' ∈ instants strategy now s, t' < t → lookAt strategy now s t' = none) :
    nextItem strategy now s = some (r, t, s.after r) := by
  have first : ((instants strategy now s).filter fun t =>
      (lookAt strategy now s t).isSome).min? = some t := by
    refine List.min?_eq_some_iff.mpr ⟨by simp [here, seen], fun t' later => ?_⟩
    simp only [List.mem_filter] at later
    refine Nat.le_of_not_lt fun early => ?_
    simp [silent t' later.1 early] at later
  simp [nextItem, first, seen]

theorem nextItem_of_silent
    (silent : ∀ t ∈ instants strategy now s, lookAt strategy now s t = none) :
    nextItem strategy now s = none := by
  have nothing : (instants strategy now s).filter (fun t =>
      (lookAt strategy now s t).isSome) = [] := by
    simpa [List.filter_eq_nil_iff] using silent
  simp [nextItem, nothing]

theorem le_of_mem_instants (here : t ∈ instants strategy now s) : now ≤ t := by
  simp only [instants, List.mem_map] at here
  obtain ⟨t', -, rfl⟩ := here
  exact Nat.le_max_left ..

theorem now_mem_instants : now ∈ instants strategy now s := by
  simp [instants]

theorem said_mem_instants (said : s.sayings = (t, r) :: rest) (fresh : now ≤ t) :
    t ∈ instants strategy now s := by
  have named : (s.arrivals.head?).map (·.1) = some t ∨ s.endsAt = some t := by
    unfold sayings at said
    cases arrived : s.arrivals with
    | nil => right; cases ends : s.endsAt <;> simp_all
    | cons x more => left; simp_all
  rcases named with arrives | ends
  · exact List.mem_map.mpr ⟨t, by simp [arrives], by omega⟩
  · exact List.mem_map.mpr ⟨t, by simp [ends], by omega⟩

theorem cancelled_mem_instants (c? : s.cancelledAt = some c) :
    max now c ∈ instants strategy now s :=
  List.mem_map_of_mem (by simp [c?])

theorem due_mem_instants (due : strategy.due? now = some (now + t)) :
    now + t ∈ instants strategy now s :=
  List.mem_map.mpr ⟨now + t, by simp [due], by omega⟩

theorem evented_hears (said : s.sayings = (t, r) :: rest) (fresh : now ≤ t)
    (hears : ReadStrategy.evented.hears s.cancelledAt now t) :
    s.nextItem .evented now = some (r, t, s.after r) := by
  have uncancelled : ∀ t' ≤ t, s.isCancelled t' = false := by
    intro t' early
    unfold isCancelled
    cases c? : s.cancelledAt with
    | none => rfl
    | some c =>
      simp only [ReadStrategy.hears, c?, decide_eq_true_eq] at hears
      simp; omega
  refine nextItem_of_first (said_mem_instants said fresh) ?_ fun t' _ early => ?_
  · simp [lookAt, ReadStrategy.look, uncancelled t (Nat.le_refl t), news_said said]
  · simp [lookAt, ReadStrategy.look, uncancelled t' (by omega), news_said said]; omega

theorem evented_cancelled (c? : s.cancelledAt = some c)
    (quiet : ∀ x ∈ s.sayings, c ≤ x.1) :
    s.nextItem .evented now = some (.cancelled, max now c, s) := by
  refine nextItem_of_first (cancelled_mem_instants c?) ?_ fun t' here early => ?_
  · simp [lookAt, ReadStrategy.look, isCancelled, c?]
  · have later := le_of_mem_instants here
    have uncancelled : s.isCancelled t' = false := by simp [isCancelled, c?]; omega
    simp only [lookAt, ReadStrategy.look, uncancelled, Bool.false_eq_true, ↓reduceIte]
    exact news_quiet fun x said => Nat.lt_of_lt_of_le (by omega) (quiet x said)

theorem evented_waits (uncancelled : s.cancelledAt = none) (said : s.sayings = []) :
    s.nextItem .evented now = none :=
  nextItem_of_silent fun t _ => by
    simp [lookAt, ReadStrategy.look, isCancelled, uncancelled, news_nothing said]

variable {ms : Nat}

theorem deadline_cancelled (cancelled : s.isCancelled now) :
    s.nextItem (.deadline ms) now = some (.cancelled, now, s) :=
  nextItem_of_first now_mem_instants (by simp [lookAt, ReadStrategy.look, cancelled])
    fun t' here early => absurd (le_of_mem_instants here) (by omega)

theorem deadline_hears (uncancelled : s.isCancelled now = false)
    (said : s.sayings = (t, r) :: rest) (fresh : now ≤ t) (soon : t ≤ now + ms) :
    s.nextItem (.deadline ms) now = some (r, t, s.after r) := by
  refine nextItem_of_first (said_mem_instants said fresh) ?_ fun t' here early => ?_
  · simp [lookAt, ReadStrategy.look, uncancelled, news_said said]
  · have := le_of_mem_instants here
    simp [lookAt, ReadStrategy.look, uncancelled, news_said said]; omega

theorem deadline_idle (uncancelled : s.isCancelled now = false)
    (quiet : ∀ x ∈ s.sayings, now + ms < x.1) :
    s.nextItem (.deadline ms) now = some (.idle, now + ms, s) := by
  have silent : ∀ t' ≤ now + ms, s.news t' = none := fun t' early =>
    news_quiet fun x said => Nat.lt_of_le_of_lt early (quiet x said)
  refine nextItem_of_first (due_mem_instants rfl) ?_ fun t' here early => ?_
  · simp [lookAt, ReadStrategy.look, uncancelled, silent _ (Nat.le_refl _)]
  · have := le_of_mem_instants here
    simp [lookAt, ReadStrategy.look, uncancelled, silent t' (by omega)]; omega

theorem Timely.late {b : Nat} (timely : s.Timely now) (first : ∀ x ∈ s.sayings.head?, b ≤ x.1) :
    ∀ x ∈ s.sayings, b ≤ x.1 := by
  have ordered := timely.sorted
  cases said : s.sayings with
  | nil => simp
  | cons y rest =>
    have late : b ≤ y.1 := by simpa [said] using first
    simp only [said, List.pairwise_cons] at ordered
    rintro x (_ | ⟨_, later⟩)
    · exact late
    · exact Nat.le_trans late (ordered.1 x later)

inductive Waited (strategy : ReadStrategy) (now : Nat) (s : Socket α) :
    Option (Readiness α × Nat × Socket α) → Prop
  | never (uncancelled : s.cancelledAt = none) (silent : s.sayings = []) :
      Waited strategy now s none
  | said {t : Nat} {r : Readiness α} {rest : List (Nat × Readiness α)}
      (said : s.sayings = (t, r) :: rest)
      (hears : strategy.hears s.cancelledAt now t) : Waited strategy now s (some (r, t, s.after r))
  | idle {t : Nat} (later : now < t) (due : strategy.due? now = some t)
      (uncancelled : s.isCancelled now = false) (quiet : ∀ x ∈ s.sayings, t < x.1) :
      Waited strategy now s (some (.idle, t, s))
  | cancelled {t : Nat} (cancelled : s.cancelledAt.isSome)
      (unheard : ∀ x ∈ s.sayings.head?, strategy.hears s.cancelledAt now x.1 = false) :
      Waited strategy now s (some (.cancelled, t, s))

theorem evented_waited (timely : s.Timely now) :
    Waited .evented now s (s.nextItem .evented now) := by
  by_cases hears : ∃ x ∈ s.sayings.head?, ReadStrategy.evented.hears s.cancelledAt now x.1
  · obtain ⟨⟨t, r⟩, first, hears⟩ := hears
    obtain ⟨rest, said⟩ := List.head?_eq_some_iff.mp first
    rw [evented_hears said (timely.fresh (t, r) (by simp [said])) hears]
    exact .said said hears
  · replace hears : ∀ x ∈ s.sayings.head?,
        ReadStrategy.evented.hears s.cancelledAt now x.1 = false := by simpa using hears
    cases c? : s.cancelledAt with
    | none =>
      have silent : s.sayings = [] := by
        cases said : s.sayings with
        | nil => rfl
        | cons x rest => simp [said, ReadStrategy.hears, c?] at hears
      rw [evented_waits c? silent]
      exact .never c? silent
    | some c =>
      have quiet : ∀ x ∈ s.sayings, c ≤ x.1 :=
        timely.late (by simpa [ReadStrategy.hears, c?] using hears)
      rw [evented_cancelled c? quiet]
      exact .cancelled (by simp [c?]) hears

theorem deadline_waited (positive : 0 < ms) (timely : s.Timely now) :
    Waited (.deadline ms) now s (s.nextItem (.deadline ms) now) := by
  cases cancelled : s.isCancelled now with
  | true =>
    obtain ⟨c, c?, past⟩ : ∃ c, s.cancelledAt = some c ∧ c ≤ now := by
      unfold isCancelled at cancelled
      cases c? : s.cancelledAt <;> simp_all
    rw [deadline_cancelled cancelled]
    exact .cancelled (by simp [c?]) (by simp [c?, ReadStrategy.hears]; omega)
  | false =>
    have awaited : ∀ c, s.cancelledAt = some c → now < c := by
      intro c c?
      simpa [isCancelled, c?] using cancelled
    by_cases soon : ∃ x ∈ s.sayings.head?, x.1 ≤ now + ms
    · obtain ⟨⟨t, r⟩, first, soon⟩ := soon
      obtain ⟨rest, said⟩ := List.head?_eq_some_iff.mp first
      rw [deadline_hears cancelled said (timely.fresh (t, r) (by simp [said])) soon]
      refine .said said ?_
      cases c? : s.cancelledAt with
      | none => rfl
      | some c =>
        have := awaited c c?
        simp only [ReadStrategy.hears, Bool.and_eq_true, decide_eq_true_eq]
        refine ⟨this, ?_⟩
        rcases Nat.le_total c (now + ms) with within | beyond
        · rw [readEnd_within this within]; exact soon
        · exact Nat.le_trans soon (Nat.le_trans beyond (le_readEnd positive))
    · have quiet : ∀ x ∈ s.sayings, now + ms < x.1 := timely.late fun x first =>
        Nat.lt_of_not_le fun early => soon ⟨x, first, early⟩
      rw [deadline_idle cancelled quiet]
      exact .idle (by omega) rfl cancelled quiet

theorem waited (positive : strategy ≠ .deadline 0) (timely : s.Timely now) :
    Waited strategy now s (s.nextItem strategy now) := by
  cases strategy with
  | evented => exact evented_waited timely
  | deadline ms =>
    refine deadline_waited (Nat.pos_of_ne_zero fun zero => ?_) timely
    exact positive (zero ▸ rfl)

@[simp] theorem cancelledAt_after (r : Readiness α) :
    (s.after r).cancelledAt = s.cancelledAt := by
  cases r <;> rfl

theorem sayings_after (said : s.sayings = (t, r) :: rest) (more : r.isLast = false) :
    (s.after r).sayings = rest := by
  unfold sayings at said
  cases arrived : s.arrivals with
  | nil =>
    cases ends : s.endsAt with
    | none => simp [arrived, ends] at said
    | some e =>
      obtain ⟨⟨-, rfl⟩, -⟩ : (e = t ∧ .closed = r) ∧ [] = rest := by
        simpa [arrived, ends] using said
      cases more
  | cons x later =>
    obtain ⟨⟨-, rfl⟩, rfl⟩ : (x.1 = t ∧ .item x.2 = r) ∧ _ = rest := by
      simpa [arrived] using said
    simp [after, sayings, arrived]

theorem Timely.after (timely : s.Timely now) (said : s.sayings = (t, r) :: rest)
    (more : r.isLast = false) : (s.after r).Timely t := by
  have ordered := timely.sorted
  simp only [said, List.pairwise_cons] at ordered
  exact ⟨by rw [sayings_after said more]; exact ordered.2,
    by rw [sayings_after said more]; exact ordered.1⟩

theorem Timely.later (timely : s.Timely now) (quiet : ∀ x ∈ s.sayings, t < x.1) : s.Timely t :=
  ⟨timely.sorted, fun x said => Nat.le_of_lt (quiet x said)⟩

theorem hearing_said (said : s.sayings = (t, r) :: rest)
    (hears : strategy.hears s.cancelledAt now t) :
    s.hearing strategy now = r :: if r.isLast then [] else (s.after r).hearing strategy t := by
  cases last : r.isLast with
  | true => simp [hearing, said, ReadStrategy.hearing, hears, last]
  | false =>
    simp [hearing, said, ReadStrategy.hearing, hears, last, sayings_after said last]

theorem hearing_cancelled (cancelled : s.cancelledAt.isSome)
    (unheard : ∀ x ∈ s.sayings.head?, strategy.hears s.cancelledAt now x.1 = false) :
    s.hearing strategy now = [.cancelled] := by
  unfold hearing
  cases said : s.sayings with
  | nil => simp [ReadStrategy.hearing, cancelled]
  | cons x rest =>
    have := unheard x (by simp [said])
    simp [ReadStrategy.hearing, this]

theorem hearing_idle (due : strategy.due? now = some t) (later : now < t)
    (uncancelled : s.isCancelled now = false) (quiet : ∀ x ∈ s.sayings, t < x.1) :
    s.hearing strategy t = s.hearing strategy now := by
  obtain ⟨ms, rfl, rfl⟩ : ∃ ms, strategy = .deadline ms ∧ now + ms = t := by
    cases strategy <;> simp_all [ReadStrategy.due?]
  unfold hearing
  cases said : s.sayings with
  | nil => rfl
  | cons x rest =>
    have late := quiet x (by simp [said])
    have same : (ReadStrategy.deadline ms).hears s.cancelledAt (now + ms) x.1 =
        (ReadStrategy.deadline ms).hears s.cancelledAt now x.1 := by
      cases c? : s.cancelledAt with
      | none => rfl
      | some c =>
        have awaited : now < c := by simpa [isCancelled, c?] using uncancelled
        rcases Nat.lt_or_ge (now + ms) c with beyond | within
        · simp [ReadStrategy.hears, beyond, awaited,
            readEnd_next (by omega) (Nat.le_of_lt beyond)]
        · have past : ¬ now + ms < c := by omega
          have missed : ¬ x.1 ≤ now + ms := by omega
          simp [ReadStrategy.hears, readEnd_within awaited within, past, missed]
    simp [ReadStrategy.hearing, same]

theorem said_item_or_closed {x : Nat × Readiness α} (said : x ∈ s.sayings) :
    (∃ a, x.2 = .item a) ∨ x.2 = .closed := by
  simp only [sayings, List.mem_append, List.mem_map, Option.mem_toList,
    Option.map_eq_some_iff] at said
  rcases said with ⟨y, -, rfl⟩ | ⟨t, -, rfl⟩
  · exact .inl ⟨y.2, rfl⟩
  · exact .inr rfl

theorem heard_nothing (positive : strategy ≠ .deadline 0) (uncancelled : s.cancelledAt = none)
    (silent : s.sayings = []) (n now : Nat) : s.heard strategy n now = [] := by
  induction n generalizing now with
  | zero => rfl
  | succ n ih =>
    have timely : s.Timely now := ⟨by simp [silent], by simp [silent]⟩
    have outcome := waited positive timely
    generalize next : s.nextItem strategy now = w at outcome
    cases outcome with
    | never => simp [heard, outcomes, next]
    | said said => simp [silent] at said
    | idle => simpa [heard, outcomes, next, Readiness.isLast, Readiness.isIdle] using ih _
    | cancelled cancelled => simp [uncancelled] at cancelled

/-- Enough waits hear all there is to hear: every wait hears something or comes closer to the last
time at which anything happens. -/
theorem heard_eq {n : Nat} (positive : strategy ≠ .deadline 0) (timely : s.Timely now)
    (horizon : Nat)
    (said : ∀ x ∈ s.sayings, x.1 ≤ horizon) (cancelled : ∀ c ∈ s.cancelledAt, c ≤ horizon)
    (enough : s.sayings.length + (horizon - now) < n) :
    s.heard strategy n now = s.hearing strategy now := by
  induction n generalizing now s with
  | zero => omega
  | succ n ih =>
    have outcome := waited positive timely
    generalize next : s.nextItem strategy now = w at outcome
    cases outcome with
    | never uncancelled silent =>
      simp [heard, outcomes, next, hearing, silent, ReadStrategy.hearing, uncancelled]
    | @said t r rest first hears =>
      have awake : r.isIdle = false := by
        rcases said_item_or_closed (x := (t, r)) (s := s) (by simp [first]) with ⟨a, rfl⟩ | rfl
          <;> rfl
      rw [hearing_said first hears]
      cases last : r.isLast with
      | true => simp [heard, outcomes, next, last, awake]
      | false =>
        have shorter := sayings_after first last
        have := timely.fresh (t, r) (by simp [first])
        have rest := ih (s := s.after r) (timely.after first last)
          (by rw [shorter]; exact fun x later => said x (by simp [first, later]))
          (by simpa using cancelled) (by simp [shorter, first] at *; omega)
        simpa [heard, outcomes, next, last, awake] using rest
    | @idle t later due uncancelled quiet =>
      by_cases done : s.cancelledAt = none ∧ s.sayings = []
      · rw [heard_nothing positive done.1 done.2]
        simp [hearing, done.2, ReadStrategy.hearing, done.1]
      · have ahead : now < horizon := by
          cases c? : s.cancelledAt with
          | some c =>
            have awaited : now < c := by simpa [isCancelled, c?] using uncancelled
            exact Nat.lt_of_lt_of_le awaited (cancelled c c?)
          | none =>
            obtain ⟨x, here⟩ := List.exists_mem_of_ne_nil _ fun silent => done ⟨c?, silent⟩
            exact Nat.lt_of_lt_of_le (Nat.lt_trans later (quiet x here)) (said x here)
        have rest := ih (timely.later quiet) said cancelled (by omega)
        rw [← hearing_idle due later uncancelled quiet, ← rest]
        simp [heard, outcomes, next, Readiness.isLast, Readiness.isIdle]
    | cancelled cancelled unheard =>
      simp [heard, outcomes, next, Readiness.isLast, Readiness.isIdle,
        hearing_cancelled cancelled unheard]

def saidBefore (s : Socket α) (time : Nat) : List (Nat × Readiness α) :=
  s.sayings.takeWhile (·.1 < time)

def saidFrom (s : Socket α) (time : Nat) : List (Nat × Readiness α) :=
  s.sayings.dropWhile (·.1 < time)

def lastTime (since : Nat) (said : List (Nat × Readiness α)) : Nat :=
  (said.getLast?.map (·.1)).getD since

/-- What is heard of a cancelled socket by whoever hears so much of it. -/
def untilCancelled (said : List (Nat × Readiness α)) : List (Readiness α) :=
  said.map (·.2) ++ if said.any (·.2.isLast) then [] else [.cancelled]

/-- What the read hears that is under way at the time of a cancellation. -/
def overheard (ms cancelledAt since : Nat) (late : List (Nat × Readiness α)) :
    List (Nat × Readiness α) :=
  late.head?.toList.filter fun x => since < cancelledAt && x.1 ≤ readEnd ms since cancelledAt

def EndsLast (said : List (Nat × Readiness α)) : Prop :=
  said.Pairwise fun x _ => x.2.isLast = false

variable {early late : List (Nat × Readiness α)} {since : Nat}

theorem endsLast_sayings (s : Socket α) : EndsLast s.sayings := by
  refine List.pairwise_append.mpr ⟨?_, ?_, ?_⟩
  · exact List.pairwise_map.mpr (List.pairwise_of_forall fun _ _ => rfl)
  · cases s.endsAt <;> simp
  · simp only [List.mem_map, forall_exists_index, and_imp, forall_apply_eq_imp_iff₂]
    intro x _ y _
    rfl

theorem EndsLast.nil_of_isLast {x : Nat × Readiness α} (ends : EndsLast (x :: late))
    (last : x.2.isLast) : late = [] := by
  refine List.eq_nil_iff_forall_not_mem.mpr fun y later => ?_
  have := (List.pairwise_cons.mp ends).1 y later
  simp [last] at this

theorem hearing_uncancelled (ends : EndsLast late) :
    strategy.hearing none since late = late.map (·.2) := by
  induction late generalizing since with
  | nil => rfl
  | cons x late ih =>
    have hears : strategy.hears none since x.1 := rfl
    rw [ReadStrategy.hearing, if_pos hears, List.map_cons, ih ends.of_cons]
    split
    · next last => simp [ends.nil_of_isLast last]
    · rfl

/-- What is said before the cancellation is heard, whoever waits. -/
theorem hearing_append (positive : strategy ≠ .deadline 0) (awaited : early ≠ [] → since < c)
    (before : ∀ x ∈ early, x.1 < c) (ends : EndsLast (early ++ late)) :
    strategy.hearing (some c) since (early ++ late) = early.map (·.2) ++
      if early.any (·.2.isLast) then [] else
        strategy.hearing (some c) (lastTime since early) late := by
  induction early generalizing since with
  | nil => rfl
  | cons x early ih =>
    have early? : x.1 < c := before x (by simp)
    have hears : strategy.hears (some c) since x.1 := by
      cases strategy with
      | evented => simpa [ReadStrategy.hears] using early?
      | deadline ms =>
        have : c ≤ readEnd ms since c :=
          le_readEnd (Nat.pos_of_ne_zero fun zero => positive (zero ▸ rfl))
        simp only [ReadStrategy.hears, Bool.and_eq_true, decide_eq_true_eq]
        exact ⟨awaited (by simp), by omega⟩
    have rest := @ih x.1 (fun _ => early?)
      (fun y later => before y (by simp [later])) ends.of_cons
    rw [List.cons_append, ReadStrategy.hearing, if_pos hears, rest]
    cases last : x.2.isLast with
    | true =>
      obtain ⟨rfl, rfl⟩ : early = [] ∧ late = [] := by
        simpa using ends.nil_of_isLast last
      simp [last]
    | false =>
      have same : lastTime since (x :: early) = lastTime x.1 early := by
        simp [lastTime, List.getLast?_cons]
      rw [same, List.any_cons, last, Bool.false_or, if_neg Bool.false_ne_true]
      rfl

theorem evented_hearing_late (after : ∀ x ∈ late, c ≤ x.1) :
    ReadStrategy.evented.hearing (some c) since late = [.cancelled] := by
  cases late with
  | nil => rfl
  | cons x late =>
    have := after x (by simp)
    simp [ReadStrategy.hearing, ReadStrategy.hears]; omega

theorem deadline_hearing_late (after : ∀ x ∈ late, c ≤ x.1) :
    (ReadStrategy.deadline ms).hearing (some c) since late =
      untilCancelled (overheard ms c since late) := by
  cases late with
  | nil => rfl
  | cons x late =>
    have done : ∀ more : List (Nat × Readiness α),
        (ReadStrategy.deadline ms).hearing (some c) x.1 more = [.cancelled] := by
      have := after x (by simp)
      rintro (_ | ⟨y, more⟩)
      · rfl
      · simp [ReadStrategy.hearing, ReadStrategy.hears]; omega
    by_cases hears : (ReadStrategy.deadline ms).hears (some c) since x.1
    · have heard : overheard ms c since (x :: late) = [x] := by
        simpa [overheard, ReadStrategy.hears] using hears
      rw [ReadStrategy.hearing, if_pos hears, heard, done]
      simp [untilCancelled]
    · have heard : overheard ms c since (x :: late) = [] := by
        simpa [overheard, ReadStrategy.hears] using hears
      rw [ReadStrategy.hearing, if_neg hears, heard]
      rfl

theorem saidBefore_append_saidFrom (s : Socket α) (time : Nat) :
    s.saidBefore time ++ s.saidFrom time = s.sayings :=
  List.takeWhile_append_dropWhile

theorem of_mem_saidBefore {x : Nat × Readiness α} (said : x ∈ s.saidBefore c) : x.1 < c := by
  simpa using List.mem_takeWhile_imp said

theorem Timely.of_mem_saidFrom {x : Nat × Readiness α} (timely : s.Timely now)
    (said : x ∈ s.saidFrom c) : c ≤ x.1 := by
  have ordered := timely.sorted.sublist (List.dropWhile_sublist (fun y => y.1 < c))
  change (s.saidFrom c).Pairwise _ at ordered
  cases late : s.saidFrom c with
  | nil => simp [late] at said
  | cons y rest =>
    have first : c ≤ y.1 := by
      have := List.head?_dropWhile_not (fun y : Nat × Readiness α => decide (y.1 < c)) s.sayings
      simp only [saidFrom] at late
      simpa [late] using this
    simp only [late, List.pairwise_cons, List.mem_cons] at ordered said
    rcases said with rfl | later
    · exact first
    · exact Nat.le_trans first (ordered.1 x later)

/-- What a reader with a deadline hears of a socket that is cancelled by then. -/
def heardLate (ms cancelledAt now : Nat) (s : Socket α) : List (Nat × Readiness α) :=
  overheard ms cancelledAt (lastTime now (s.saidBefore cancelledAt)) (s.saidFrom cancelledAt)

theorem hearing_cancelled_before (positive : strategy ≠ .deadline 0) (timely : s.Timely now)
    (c? : s.cancelledAt = some c) :
    s.hearing strategy now = (s.saidBefore c).map (·.2) ++
      if (s.saidBefore c).any (·.2.isLast) then [] else
        strategy.hearing (some c) (lastTime now (s.saidBefore c)) (s.saidFrom c) := by
  have awaited : s.saidBefore c ≠ [] → now < c := by
    intro some
    obtain ⟨x, early⟩ := List.exists_mem_of_ne_nil _ some
    have said : x ∈ s.sayings := (List.takeWhile_sublist _).mem early
    exact Nat.lt_of_le_of_lt (timely.fresh x said) (of_mem_saidBefore early)
  have split := saidBefore_append_saidFrom s c
  rw [hearing, c?, ← split]
  exact hearing_append positive awaited (fun x => of_mem_saidBefore)
    (by rw [split]; exact endsLast_sayings s)

theorem saidFrom_of_ended (ended : (s.saidBefore c).any (·.2.isLast)) : s.saidFrom c = [] := by
  refine List.eq_nil_iff_forall_not_mem.mpr fun y late => ?_
  obtain ⟨x, early, last⟩ := List.any_eq_true.mp ended
  have ends := endsLast_sayings s
  rw [← saidBefore_append_saidFrom s c] at ends
  have := (List.pairwise_append.mp ends).2.2 x early y late
  simp [last] at this

theorem untilCancelled_append {rest : List (Nat × Readiness α)}
    (ended : early.any (·.2.isLast) → rest = []) :
    untilCancelled (early ++ rest) =
      early.map (·.2) ++ if early.any (·.2.isLast) then [] else untilCancelled rest := by
  by_cases last : early.any (·.2.isLast)
  · simp [untilCancelled, ended last, last]
  · rw [Bool.not_eq_true] at last
    simp only [untilCancelled, List.map_append, List.append_assoc, List.any_append, last,
      Bool.false_or, Bool.false_eq_true, ↓reduceIte]

theorem heardLate_of_ended (ended : (s.saidBefore c).any (·.2.isLast)) :
    s.heardLate ms c now = [] := by
  simp [heardLate, overheard, saidFrom_of_ended ended]

theorem evented_hearing_eq (timely : s.Timely now) (c? : s.cancelledAt = some c) :
    s.hearing .evented now = untilCancelled (s.saidBefore c) := by
  rw [hearing_cancelled_before (by simp) timely c?,
    evented_hearing_late fun x late => timely.of_mem_saidFrom late]
  rfl

theorem deadline_hearing_eq (positive : 0 < ms) (timely : s.Timely now)
    (c? : s.cancelledAt = some c) :
    s.hearing (.deadline ms) now = untilCancelled (s.saidBefore c ++ s.heardLate ms c now) := by
  rw [hearing_cancelled_before (by simp; omega) timely c?,
    deadline_hearing_late fun x late => timely.of_mem_saidFrom late,
    untilCancelled_append heardLate_of_ended]
  rfl

theorem untilCancelled_heardLate :
    untilCancelled (s.saidBefore c) = untilCancelled (s.saidBefore c ++ s.heardLate ms c now) ↔
      s.heardLate ms c now = [] := by
  constructor
  · intro same
    rw [untilCancelled_append heardLate_of_ended, untilCancelled, List.append_cancel_left_eq]
      at same
    by_cases ended : (s.saidBefore c).any (·.2.isLast)
    · exact heardLate_of_ended ended
    · cases heard : s.heardLate ms c now with
      | nil => rfl
      | cons x more =>
        have said : x ∈ s.sayings := by
          have here : x ∈ s.heardLate ms c now := by simp [heard]
          have late : x ∈ (s.saidFrom c).head?.toList := (List.mem_filter.mp here).1
          exact (List.dropWhile_sublist _).mem
            (List.mem_of_mem_head? (Option.mem_toList.mp late))
        have first : .cancelled = x.2 := by
          simp only [ended, heard, untilCancelled] at same
          simpa using congrArg List.head? same
        rcases said_item_or_closed said with ⟨a, item⟩ | closed
        · simp [item] at first
        · simp [closed] at first
  · intro nothing
    rw [nothing, List.append_nil]

/-- Whoever waits for items and cancellation together hears what is said before the cancellation,
and whoever reads with a deadline hears besides that the next thing said, if the read that is under
way at the cancellation lasts until then. Without such a thing both hear the same. -/
theorem strategies_hear (positive : 0 < ms) (timely : s.Timely now) :
    ∃ enough, ∀ n, enough ≤ n →
      (s.cancelledAt = none →
        s.heard .evented n now = s.sayings.map (·.2) ∧
        s.heard (.deadline ms) n now = s.sayings.map (·.2)) ∧
      ∀ c, s.cancelledAt = some c →
        s.heard .evented n now = untilCancelled (s.saidBefore c) ∧
        s.heard (.deadline ms) n now =
          untilCancelled (s.saidBefore c ++ s.heardLate ms c now) ∧
        (s.heard .evented n now = s.heard (.deadline ms) n now ↔ s.heardLate ms c now = []) := by
  obtain ⟨horizon, said, cancelled⟩ : ∃ horizon, (∀ x ∈ s.sayings, x.1 ≤ horizon) ∧
      ∀ c ∈ s.cancelledAt, c ≤ horizon := by
    refine ⟨(s.sayings.map (·.1)).sum + s.cancelledAt.getD 0, fun x here => ?_, fun c c? => ?_⟩
    · exact Nat.le_trans (List.le_sum_of_mem (List.mem_map_of_mem here)) (Nat.le_add_right ..)
    · simp [Option.mem_def.mp c?]
  refine ⟨s.sayings.length + (horizon - now) + 1, fun n enough => ?_⟩
  have evented : s.heard .evented n now = s.hearing .evented now :=
    heard_eq (by simp) timely horizon said cancelled (by omega)
  have deadline : s.heard (.deadline ms) n now = s.hearing (.deadline ms) now :=
    heard_eq (by simp; omega) timely horizon said cancelled (by omega)
  refine ⟨fun uncancelled => ?_, fun c c? => ?_⟩
  · rw [evented, deadline, hearing, hearing, uncancelled]
    exact ⟨hearing_uncancelled (endsLast_sayings s), hearing_uncancelled (endsLast_sayings s)⟩
  · rw [evented, deadline, evented_hearing_eq timely c?, deadline_hearing_eq positive timely c?]
    exact ⟨rfl, rfl, untilCancelled_heardLate⟩

def lateSocket : Socket Nat where
  arrivals := [(20, 7)]
  endsAt := none
  cancelledAt := some 10

theorem late_socket_heard :
    (0 < 100 ∧ lateSocket.Timely 0) ∧ lateSocket.heardLate 100 10 0 = [(20, .item 7)] ∧
      ∃ enough, ∀ n, enough ≤ n →
        lateSocket.heard .evented n 0 = [.cancelled] ∧
        lateSocket.heard (.deadline 100) n 0 = [.item 7, .cancelled] := by
  have timely : lateSocket.Timely 0 := ⟨by simp [sayings, lateSocket], by simp⟩
  refine ⟨⟨by decide, timely⟩, by decide, ?_⟩
  obtain ⟨enough, hears⟩ := strategies_hear (show 0 < 100 by decide) timely
  refine ⟨enough, fun n long => ?_⟩
  obtain ⟨evented, deadline, -⟩ := (hears n long).2 10 rfl
  exact ⟨evented.trans (by decide), deadline.trans (by decide)⟩

end Socket

end SubscriptionGateway.WebSocket
