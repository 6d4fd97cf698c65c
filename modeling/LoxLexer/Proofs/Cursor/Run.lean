import LoxLexer.Proofs.Cursor.Steps

/-!
# Reading by position never slips

Reading goes on step by step until the text is at its end between two tokens. Since every step keeps what
the states keep, no state is reached from which the next step would slip; since every step comes nearer to
the end, the end is reached; and since each token that is begun has a character of its own, no more tokens
are begun than there are characters.

* `Cursor.Reaches`: the states that are reached, with the number of tokens begun.
* `Cursor.Keeps.of_reaches`: they keep what states keep.
* `Cursor.scan_safe`: every state is safe, every step is progress, and reading ends at the end of the text.
-/

namespace LoxLexer.Cursor

open String.Pos (Raw)

variable {source : String} {n : Nat} {r s : Cursor}

/-! ## §1 The states that are reached -/

/-- **Steps from one state to another**, with the number of tokens that are begun on the way. -/
inductive Reaches (source : String) : Nat → Cursor → Cursor → Prop where
  | refl (r : Cursor) : Reaches source 0 r r
  /-- After some steps, one that begins a token. -/
  | begun {n : Nat} {r s t : Cursor} (h : Reaches source n r s) (htask : s.task = .next)
      (hmore : s.isFinished source = false) (hstep : step source s = .ok t) : Reaches source (n + 1) r t
  /-- After some steps, one in a loop. -/
  | looped {n : Nat} {r s t : Cursor} (h : Reaches source n r s) (htask : s.task ≠ .next)
      (hstep : step source s = .ok t) : Reaches source n r t

theorem isFinished_eq_false_of_ne (h : r.task ≠ .next) : r.isFinished source = false := by
  simp [isFinished, h]

theorem Keeps.of_reaches {m : Nat} (h : Keeps source m r) (hreach : Reaches source n r s) :
    Keeps source (m + n) s := by
  induction hreach with
  | refl => exact h
  | begun _ htask hmore hstep ih =>
    obtain ⟨t, ht, hkeeps⟩ := keeps_step (ih h) hmore
    rw [hstep] at ht
    obtain rfl := Except.ok.inj ht
    rwa [if_pos htask] at hkeeps
  | looped _ htask hstep ih =>
    obtain ⟨t, ht, hkeeps⟩ := keeps_step (ih h) (isFinished_eq_false_of_ne htask)
    rw [hstep] at ht
    obtain rfl := Except.ok.inj ht
    rwa [if_neg htask] at hkeeps

theorem keeps_of_reaches (h : Reaches source n initial r) : Keeps source n r := by
  have hkeeps := (keeps_initial source).of_reaches h
  rwa [Nat.zero_add] at hkeeps

/-! ## §2 Positions -/

/-- Where the positions of a cursor and its line may be. -/
structure InBounds (source : String) (r : Cursor) : Prop where
  start_le_current : r.start ≤ r.current
  current_le_end : r.current ≤ source.rawEndPos
  isValid_start : Raw.IsValid source r.start
  isValid_current : Raw.IsValid source r.current
  one_le_line : 1 ≤ r.line

theorem At.inBounds {before text rest : List Char} {k : Nat} (h : At source before text rest r)
    (hline : r.line = 1 + k) : InBounds source r where
  start_le_current := h.start_le_current
  current_le_end := h.isValid_current.le_rawEndPos
  isValid_start := h.isValid_start
  isValid_current := h.isValid_current
  one_le_line := hline ▸ Nat.le_add_right 1 k

theorem Keeps.inBounds (h : Keeps source n r) : InBounds source r := by
  cases h with
  | next hat _ _ _ hline => exact hat.inBounds hline
  | loop h _ _ => exact h.stands.inBounds h.line_eq

theorem Progress.current_le (h : Progress source r s) : r.current ≤ s.current := by
  cases h with
  | begun _ _ hread => exact Nat.le_of_lt hread
  | round _ _ hread _ => exact Nat.le_of_lt hread
  | settled _ _ hread => exact Nat.le_of_eq (congrArg Raw.byteIdx hread)
  | left _ _ hread => exact hread

/-- The step that begins a token reads a character. -/
theorem Progress.current_lt (h : Progress source r s) (htask : r.task = .next) : r.current < s.current := by
  cases h with
  | begun _ _ hread => exact hread
  | round hloop => exact absurd htask hloop
  | settled hreading => exact absurd (htask.symm.trans hreading) (by simp)
  | left hloop => exact absurd htask hloop

theorem Reaches.current_le (h : Reaches source n r s) : r.current ≤ s.current := by
  induction h with
  | refl => exact Nat.le_refl _
  | begun _ _ _ hstep ih => exact Nat.le_trans ih (progress_of_step hstep).current_le
  | looped _ _ hstep ih => exact Nat.le_trans ih (progress_of_step hstep).current_le

/-- A token that is begun moves the current position, and so do those after it. -/
theorem Reaches.current_lt (h : Reaches source n r s) (hn : 0 < n) : r.current < s.current := by
  induction h with
  | refl => exact absurd hn (Nat.lt_irrefl 0)
  | begun hbefore htask _ hstep _ =>
    exact Nat.lt_of_le_of_lt hbefore.current_le ((progress_of_step hstep).current_lt htask)
  | looped _ _ hstep ih => exact Nat.lt_of_lt_of_le (ih hn) (progress_of_step hstep).current_le

/-! ## §3 The number of tokens begun -/

/-- A text has no more spans than characters. -/
theorem length_spans_le (cs : List Char) : (spans cs).length ≤ cs.length := by
  fun_induction spans cs with
  | case1 => exact Nat.le_refl 0
  | case2 c cs ih => exact Nat.succ_le_succ (Nat.le_trans ih (Step.length_rest_le c cs))

theorem Keeps.le_length (h : Keeps source n r) : n ≤ source.length := by
  -- each token that has been begun is one of the spans
  have hspans := length_spans_le source.toList
  rw [String.length_toList] at hspans
  refine Nat.le_trans ?_ hspans
  cases h with
  | next _ _ h _ _ =>
    rw [h, List.length_append]
    exact Nat.le_add_right _ _
  | loop h _ _ =>
    rw [h.spans_eq, List.length_append, List.length_cons]
    omega

/-! ## §4 The end -/

/-- What is left when there is nothing to do any more: all spans have been begun, and their tokens and
diagnostics made. -/
theorem Keeps.of_isFinished (h : Keeps source n r) (hend : r.isFinished source = true) :
    r.current = source.rawEndPos ∧ n = (spans source.toList).length ∧
      r.tokens = LoxLexer.tokens source ∧ r.diagnostics = LoxLexer.diagnostics source ∧
      r.line = lastLine source := by
  obtain ⟨htask, hend⟩ : r.task = .next ∧ r.atEnd source = true := by simpa [isFinished] using hend
  cases h with
  | loop _ hloop => exact absurd htask hloop
  | @next _ before text rest done hat _ hspans hdone hline =>
    -- there is no rest, so that the spans before are all
    have hcurrent := hat.current_eq_of_atEnd hend
    rw [hat.atEnd_eq, List.isEmpty_iff] at hend
    subst hend
    rw [spans, List.append_nil] at hspans
    refine ⟨hcurrent, by rw [hspans], ?_, ?_, ?_⟩
    · rw [hdone.tokens_eq, LoxLexer.tokens, placedSpans, hspans]
    · rw [hdone.diagnostics_eq, LoxLexer.diagnostics, placedSpans, hspans]
    · rw [lastLine_eq, hat.source_eq', List.append_nil, hline]

theorem run_of_isFinished (h : r.isFinished source = true) : run source r = .ok r := by
  rw [run, if_pos h]

theorem run_of_step (hmore : r.isFinished source = false) (hstep : step source r = .ok s) :
    run source r = run source s := by
  rw [run, if_neg (by simp [hmore])]
  split
  · next h => exact absurd (h.symm.trans hstep) (by simp)
  · next t h => rw [Except.ok.inj (h.symm.trans hstep)]

/-- **The end is reached** from every state that is reached. -/
theorem exists_finished (h : Reaches source n initial r) :
    ∃ m s, Reaches source m initial s ∧ s.isFinished source = true ∧ run source r = .ok s := by
  -- the steps that are left are fewer after each
  induction hbound : r.bound source using Nat.strong_induction_on generalizing n r with
  | h k ih =>
    subst hbound
    cases hmore : r.isFinished source with
    | true => exact ⟨n, r, h, hmore, run_of_isFinished hmore⟩
    | false =>
      obtain ⟨s, hstep, -⟩ := keeps_step (keeps_of_reaches h) hmore
      have hlt := (progress_of_step hstep).bound_lt
      rw [run_of_step hmore hstep]
      by_cases htask : r.task = .next
      · exact ih _ hlt (h.begun htask hmore hstep) rfl
      · exact ih _ hlt (h.looped htask hstep) rfl

/-- **Cursor safety and progress.** In every state that reading comes to, the two positions are between
characters of the source, the first not after the second, and lines are counted from one. As long as
something is left to do the next step does not slip: it takes no slice out of range or through a character
and reads nothing at the end of the text. In a loop it reads a character, comes to a terminal state of a
number, or leaves the loop; and the second position is further on after each token that is begun. There are
no more of these than there are characters. Reading comes to an end, with the second position at the end of
the text, and has made the tokens and the diagnostics of the scan. -/
theorem scan_safe (source : String) :
    (∀ n r, Reaches source n initial r → InBounds source r ∧ n ≤ source.length ∧
      (r.isFinished source = false → ∃ s, step source r = .ok s ∧ Progress source r s) ∧
      (∀ m s, Reaches source (m + 1) r s → r.current < s.current)) ∧
    ∃ n r, Reaches source n initial r ∧ r.isFinished source = true ∧ scan source = .ok r ∧
      r.current = source.rawEndPos ∧ n = (spans source.toList).length ∧
      r.tokens = LoxLexer.tokens source ∧ r.diagnostics = LoxLexer.diagnostics source ∧
      r.line = lastLine source := by
  constructor
  · intro n r h
    have hkeeps := keeps_of_reaches h
    refine ⟨hkeeps.inBounds, hkeeps.le_length, ?_, fun m s hs => hs.current_lt m.succ_pos⟩
    intro hmore
    obtain ⟨s, hstep, -⟩ := keeps_step hkeeps hmore
    exact ⟨s, hstep, progress_of_step hstep⟩
  · obtain ⟨n, r, hreach, hend, hrun⟩ := exists_finished (@Reaches.refl source initial)
    exact ⟨n, r, hreach, hend, hrun, (keeps_of_reaches hreach).of_isFinished hend⟩

/-- An open string after a character of two bytes: it is the second token that is begun. A NUL is read in
it, and then a NUL is seen once more, where the text is at its end. -/
theorem scan_safe_null :
    ∃ r s, Reaches "é\"\x00" 2 initial r ∧ r.start = ⟨2⟩ ∧ r.current = ⟨4⟩ ∧ r.task = .string ∧
      peek "é\"\x00" r = .ok '\x00' ∧ InBounds "é\"\x00" r ∧ 2 ≤ "é\"\x00".length ∧
      step "é\"\x00" r = .ok s ∧ Progress "é\"\x00" r s := by
  have hfirst : Reaches "é\"\x00" 1 initial
      (addFault (.unexpectedCharacter 'é') { initial with current := ⟨2⟩ }) :=
    (Reaches.refl initial).begun rfl rfl rfl
  have hopen : Reaches "é\"\x00" 2 initial { addFault (.unexpectedCharacter 'é') initial with
      start := ⟨2⟩, current := ⟨3⟩, task := .string } :=
    hfirst.begun rfl rfl rfl
  have hnull : Reaches "é\"\x00" 2 initial { addFault (.unexpectedCharacter 'é') initial with
      start := ⟨2⟩, current := ⟨4⟩, task := .string } :=
    hopen.looped (by decide) rfl
  obtain ⟨hbounds, hlength, hstep, -⟩ := (scan_safe "é\"\x00").1 _ _ hnull
  obtain ⟨s, hs, hprogress⟩ := hstep rfl
  exact ⟨_, s, hnull, rfl, rfl, rfl, rfl, hbounds, hlength, hs, hprogress⟩

end LoxLexer.Cursor
