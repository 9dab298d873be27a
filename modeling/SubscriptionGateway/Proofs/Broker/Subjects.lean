import SubscriptionGateway.Broker.Server

/-!
Patterns over subjects. A pattern none of whose tokens is a wildcard is matched by itself alone, and
any other pattern by another subject as well.
-/
namespace SubscriptionGateway.Broker

/-- A subject no token of which stands for other ones. -/
def Literal (subject : String) : Prop := "*" ∉ tokens subject ∧ ">" ∉ tokens subject

theorem tokens_inj {p s : String} (same : tokens p = tokens s) : p = s := by
  have pieces : p.toList.splitOn '.' = s.toList.splitOn '.' :=
    (List.map_inj_right fun _ _ => String.ofList_inj.mp).mp same
  have chars := congrArg (['.'].intercalate) pieces
  rw [List.intercalate_splitOn, List.intercalate_splitOn] at chars
  exact String.toList_injective chars

theorem mem_splitOn {separator x : Char} {chars piece : List Char}
    (member : piece ∈ chars.splitOn separator) (here : x ∈ piece) : x ∈ chars ∧ x ≠ separator := by
  induction chars generalizing piece with
  | nil =>
    rw [List.splitOn_nil, List.mem_singleton] at member
    simp [member] at here
  | cons c chars ih =>
    rw [List.splitOn_cons_eq_if_modifyHead] at member
    split at member
    · rcases List.mem_cons.mp member with rfl | later
      · cases here
      · exact (ih later here).imp_left (List.mem_cons_of_mem c)
    · next other =>
      cases split : chars.splitOn separator with
      | nil => exact (List.splitOn_ne_nil _ _ split).elim
      | cons first rest =>
        rw [split, List.modifyHead_cons] at member
        have known : ∀ piece ∈ first :: rest, x ∈ piece → x ∈ chars ∧ x ≠ separator :=
          fun piece member => ih (split ▸ member)
        rcases List.mem_cons.mp member with rfl | later
        · rcases List.mem_cons.mp here with rfl | here
          · exact ⟨List.mem_cons_self .., by simpa using other⟩
          · exact (known first (List.mem_cons_self ..) here).imp_left (List.mem_cons_of_mem c)
        · exact (known piece (List.mem_cons_of_mem _ later) here).imp_left (List.mem_cons_of_mem c)

theorem mem_tokens {subject token : String} {x : Char} (member : token ∈ tokens subject)
    (here : x ∈ token.toList) : x ∈ subject.toList ∧ x ≠ '.' := by
  obtain ⟨piece, there, rfl⟩ := List.mem_map.mp member
  exact mem_splitOn there (by simpa using here)

theorem tokens_ne_nil (subject : String) : tokens subject ≠ [] := by
  simp [tokens, List.splitOn_ne_nil]

theorem tokens_surjective {ts : List String} (some : ts ≠ []) (dotless : ∀ t ∈ ts, '.' ∉ t.toList) :
    ∃ subject, tokens subject = ts := by
  refine ⟨String.ofList (['.'].intercalate (ts.map String.toList)), ?_⟩
  rw [tokens, String.toList_ofList, List.splitOn_intercalate _ (by simpa using dotless) (by simpa)]
  simp

theorem tokensMatch_literal {ps ts : List String} (star : "*" ∉ ps) (rest : ">" ∉ ps) :
    tokensMatch ps ts = true ↔ ps = ts := by
  induction ps generalizing ts with
  | nil => cases ts <;> simp [tokensMatch]
  | cons p ps ih =>
    simp only [List.mem_cons, not_or] at star rest
    cases ts with
    | nil => simp [tokensMatch]
    | cons t ts =>
      have same : tokensMatch ps ts = true ↔ ps = ts := ih star.2 rest.2
      rw [tokensMatch]
      · simp [same, Ne.symm star.1]
      · exact fun more => absurd more.symm rest.1

/-- A token for each token of a pattern, none of them a wildcard. -/
def instantiated (ps : List String) : List String :=
  ps.map fun p => if p = "*" ∨ p = ">" then "a" else p

theorem tokensMatch_instantiated (ps : List String) : tokensMatch ps (instantiated ps) = true := by
  induction ps with
  | nil => rfl
  | cons p ps ih =>
    unfold instantiated at ih ⊢
    rw [List.map_cons]
    by_cases rest : p = ">"
    · simp [rest, tokensMatch]
    · rw [tokensMatch]
      · by_cases star : p = "*" <;> simp [star, rest, ih]
      · exact rest

theorem literal_iff (p : String) : Literal p ↔ ∀ s, subjectMatches p s = true → s = p := by
  constructor
  · rintro ⟨star, rest⟩ s fits
    exact tokens_inj ((tokensMatch_literal star rest).mp fits).symm
  · intro alone
    obtain ⟨s, made⟩ : ∃ s, tokens s = instantiated (tokens p) := by
      refine tokens_surjective (by simp [instantiated, tokens_ne_nil]) fun t member => ?_
      obtain ⟨token, known, rfl⟩ := List.mem_map.mp member
      split
      · decide
      · exact fun dot => (mem_tokens known dot).2 rfl
    have fits : subjectMatches p s = true := by
      rw [subjectMatches, made]
      exact tokensMatch_instantiated _
    have plain : ∀ w, w = "*" ∨ w = ">" → w ∉ tokens p := by
      intro w wild member
      rw [alone s fits] at made
      rw [made] at member
      obtain ⟨token, -, same⟩ := List.mem_map.mp member
      split at same
      · rcases wild with rfl | rfl <;> simp at same
      · next other => exact other (same ▸ wild)
    exact ⟨plain "*" (.inl rfl), plain ">" (.inr rfl)⟩

end SubscriptionGateway.Broker
