import LoxLexer.Proofs.Number.Rounding
import LoxLexer.Proofs.Scan.TokenShapes

/-!
# The values of numbers

A number lexeme need not be a numeral: it may go on with a sign after its first digit, and its exponent
may lack digits. The part of it that counts can be cut out by looking at the second character and at the
end alone, and it is the longest numeral that the lexeme begins with. Every number token therefore has a
value, which is not a NaN, and every list of tokens is equal to itself.

* `NumberLexeme.valuePart`: the part of a lexeme that counts.
* `NumberLexeme.text_read`: reading a lexeme finds this part.
* `number_values`: the values of the number tokens of a source.
-/

namespace LoxLexer

namespace NumberLexeme

/-! ## §1 The part that counts -/

/-- Whether a character is a sign. -/
def isSign (c : Char) : Bool :=
  c == '+' || c == '-'

/-- Whether a text is an exponent that lacks its digits: the letter alone, or the letter and a sign. -/
def isOpenExponent : List Char → Bool
  | [l] => isLetter l
  | [l, s] => isLetter l && isSign s
  | _ => false

/-- A text up to the exponent at its end that lacks its digits, and all of it if it does not end in one. -/
def withoutOpenExponent : List Char → List Char
  | [] => []
  | c :: cs => if isOpenExponent (c :: cs) then [] else c :: withoutOpenExponent cs

/-- The part of a lexeme that its value is read from: the first digit alone if a sign comes second, and
otherwise all but an exponent at the end that lacks its digits. -/
def valuePart : List Char → List Char
  | d :: c :: rest => if isSign c then [d] else withoutOpenExponent (d :: c :: rest)
  | lexeme => withoutOpenExponent lexeme

variable {u v w : List Char} {c d : Char}

theorem isSign_iff : isSign c = true ↔ c = '+' ∨ c = '-' := by
  rw [isSign, Bool.or_eq_true, beq_iff_eq, beq_iff_eq]

/-- What begins a run is a digit unless it is a sign. -/
theorem isDigit_of_beginsRun (h : beginsRun c = true) (hsign : isSign c = false) :
    isDigit c = true := by
  rw [beginsRun, Bool.or_assoc, Bool.or_eq_true] at h
  apply h.resolve_right
  intro hc
  rw [isSign, hc] at hsign
  exact Bool.noConfusion hsign

theorem isLetter_eq_false_of_isDigit (h : isDigit c = true) : isLetter c = false := by
  apply Bool.eq_false_iff.mpr
  intro hletter
  exact Phase.not_isDigit_of_isLetter hletter h

/-- A sign is no part of a number but in front of digits. -/
theorem of_isSign (h : isSign c = true) : isDigit c = false ∧ isLetter c = false ∧ c ≠ '.' := by
  rcases isSign_iff.mp h with rfl | rfl <;> decide

theorem isSign_eq_false_of_isDigit (h : isDigit c = true) : isSign c = false := by
  apply Bool.eq_false_iff.mpr
  intro hsign
  exact absurd h (Bool.eq_false_iff.mp (of_isSign hsign).1)

theorem isOpenExponent_of_not_isLetter (h : isLetter c = false) : isOpenExponent (c :: w) = false := by
  cases w with
  | nil => exact h
  | cons s w =>
    cases w with
    | nil => rw [isOpenExponent, h, Bool.false_and]
    | cons _ _ => rfl

/-- An exponent that lacks its digits has none. -/
theorem not_isDigit_of_isOpenExponent (h : isOpenExponent w = true) :
    ∀ c ∈ w, isDigit c = false := by
  intro c hc
  apply Bool.eq_false_iff.mpr
  intro hd
  unfold isOpenExponent at h
  split at h
  · rw [List.mem_singleton.mp hc] at hd
    exact Phase.not_isDigit_of_isLetter h hd
  · next l s =>
    rw [Bool.and_eq_true] at h
    rcases List.mem_pair.mp hc with rfl | rfl
    · exact Phase.not_isDigit_of_isLetter h.1 hd
    · exact absurd hd (Bool.eq_false_iff.mp (of_isSign h.2).1)
  · exact Bool.noConfusion h

/-- Where no sign comes second, all of a lexeme counts but for an open exponent. -/
theorem valuePart_cons (h : ∀ c ∈ w.head?, isSign c = false) :
    valuePart (d :: w) = withoutOpenExponent (d :: w) := by
  cases w with
  | nil => rfl
  | cons c w =>
    rw [valuePart, h c rfl]
    rfl

/-- A text without the letters of exponents stays, whatever comes after it. -/
theorem withoutOpenExponent_append (h : ∀ c ∈ u, isLetter c = false) :
    withoutOpenExponent (u ++ v) = u ++ withoutOpenExponent v := by
  induction u with
  | nil => rfl
  | cons c u ih =>
    have hc : isLetter c = false := h c List.mem_cons_self
    have hu : ∀ c ∈ u, isLetter c = false := fun c hc => h c (List.mem_cons_of_mem _ hc)
    simp [withoutOpenExponent, isOpenExponent_of_not_isLetter hc, ih hu]

/-- An exponent with digits stays as a whole. -/
theorem withoutOpenExponent_text {x : Exponent} (hx : x.Proper) :
    withoutOpenExponent x.text = x.text := by
  have hopen : isOpenExponent x.text = false := by
    apply Bool.eq_false_iff.mpr
    intro h
    obtain ⟨d, hd⟩ := List.exists_mem_of_ne_nil x.digits hx.digits_ne_nil
    have hmem : d ∈ x.text := List.mem_cons_of_mem _ (List.mem_append_right _ hd)
    exact absurd (hx.digits d hd) (Bool.eq_false_iff.mp (not_isDigit_of_isOpenExponent h d hmem))
  -- after the letter there are only a sign and digits
  have hmore : ∀ c ∈ x.sign.toList ++ x.digits, isLetter c = false := by
    intro c hc
    rcases List.mem_append.mp hc with hc | hc
    · exact (of_isSign (isSign_iff.mpr (hx.sign c (Option.mem_toList.mp hc)))).2.1
    · exact isLetter_eq_false_of_isDigit (hx.digits c hc)
  have hself := withoutOpenExponent_append (v := []) hmore
  rw [List.append_nil, withoutOpenExponent, List.append_nil] at hself
  rw [Exponent.text] at hopen ⊢
  rw [withoutOpenExponent, hopen, hself]
  rfl

/-! ## §2 Reading a lexeme -/

/-- At the end of a lexeme an exponent is read as a whole if it has digits, and otherwise left. -/
theorem read?_of_mem_exponents (h : v ∈ 1 + exponents) :
    (Exponent.read? v = none ∧ withoutOpenExponent v = []) ∨
      ∃ x, Exponent.read? v = some (x, []) ∧ withoutOpenExponent v = v := by
  have hproper : ∀ x : Exponent, x.Proper → ∃ y, Exponent.read? x.text = some (y, []) ∧
      withoutOpenExponent x.text = x.text :=
    fun x hx => ⟨x, Exponent.read?_text hx, withoutOpenExponent_text hx⟩
  cases v with
  | nil => exact .inl ⟨rfl, rfl⟩
  | cons l v =>
    rw [cons_mem_optional, Phase.cons_mem_exponents, Phase.language] at h
    obtain ⟨hl, hv⟩ := h
    have hletter : l = 'e' ∨ l = 'E' := by simpa [isLetter] using hl
    cases v with
    | nil =>
      -- the letter alone
      left
      simp [Exponent.read?, Exponent.readSign, withoutOpenExponent, isOpenExponent, hl]
    | cons b ds =>
      rw [cons_mem_optional, Phase.cons_mem_runs, Phase.language, mem_one_kstar] at hv
      obtain ⟨hb, hds⟩ := hv
      cases hsign : isSign b with
      | true =>
        have hb' : b = '+' ∨ b = '-' := isSign_iff.mp hsign
        cases ds with
        | nil =>
          -- a sign without digits
          left
          simp [Exponent.read?, Exponent.readSign, withoutOpenExponent, isOpenExponent, hl, hsign, hb']
        | cons d ds =>
          -- a sign with digits after it
          right
          apply hproper ⟨l, some b, d :: ds⟩
          refine ⟨hletter, ?_, List.cons_ne_nil d ds, hds⟩
          intro c hc
          obtain rfl : b = c := Option.some.inj hc
          exact hb'
      | false =>
        -- the run has no sign, and so it begins with a digit
        right
        apply hproper ⟨l, none, b :: ds⟩
        refine ⟨hletter, ?_, List.cons_ne_nil b ds, ?_⟩
        · intro c hc
          exact absurd hc (Option.not_mem_none c)
        · exact List.forall_mem_cons.mpr ⟨isDigit_of_beginsRun hb hsign, hds⟩

theorem head?_of_mem_exponents (hv : v ∈ 1 + exponents) : ∀ c ∈ v.head?, isLetter c = true := by
  intro c hc
  obtain ⟨v, rfl⟩ := List.head?_eq_some_iff.mp hc
  rw [cons_mem_optional, Phase.cons_mem_exponents] at hv
  exact hv.1

theorem head?_of_mem_fractions (hv : v ∈ 1 + fractions) : ∀ c ∈ v.head?, c = '.' := by
  intro c hc
  obtain ⟨v, rfl⟩ := List.head?_eq_some_iff.mp hc
  rw [cons_mem_optional, Phase.cons_mem_fractions] at hv
  exact hv.1

/-- A lexeme with digits up to the point is read to its end, but for an open exponent. -/
theorem text_read_append (hu : ∀ c ∈ u, isDigit c = true) (hv : v ∈ 1 + fractions) :
    (Numeral.read (u ++ v)).1.text = withoutOpenExponent (u ++ v) := by
  have hpoint : ∀ c ∈ v.head?, isDigit c = false := by
    intro c hc
    rw [head?_of_mem_fractions hv c hc]
    rfl
  obtain ⟨htake, hdrop⟩ := takeWhile_append_eq hu hpoint
  rw [withoutOpenExponent_append fun c hc => isLetter_eq_false_of_isDigit (hu c hc)]
  rw [Numeral.read, htake, hdrop]
  cases v with
  | nil => simp [Numeral.readFraction, Exponent.read?, Numeral.text, withoutOpenExponent]
  | cons c v =>
    rw [cons_mem_optional, Phase.cons_mem_fractions, Phase.language] at hv
    obtain ⟨rfl, hv⟩ := hv
    obtain ⟨ds, hds, e, he, rfl⟩ := Language.mem_mul.mp hv
    rw [mem_one_kstar] at hds
    have hexponent : ∀ c ∈ e.head?, isDigit c = false := fun c hc =>
      Bool.eq_false_iff.mpr (Phase.not_isDigit_of_isLetter (head?_of_mem_exponents he c hc))
    have hletters : ∀ c ∈ '.' :: ds, isLetter c = false := by
      rw [List.forall_mem_cons]
      exact ⟨rfl, fun c hc => isLetter_eq_false_of_isDigit (hds c hc)⟩
    have hcut : withoutOpenExponent ('.' :: (ds ++ e)) = '.' :: (ds ++ withoutOpenExponent e) :=
      withoutOpenExponent_append hletters
    rw [hcut, Numeral.readFraction_point hds hexponent]
    -- what is left is an exponent, of which all is read or nothing
    rcases read?_of_mem_exponents he with ⟨hread, hopen⟩ | ⟨x, hread, hwhole⟩
    · simp [hread, hopen, Numeral.text]
    · have htext := Exponent.text_append_of_read? hread
      rw [List.append_nil] at htext
      simp [hread, hwhole, Numeral.text, htext]

/-- Nothing is read from a sign on. -/
theorem read_sign {rest : List Char} (hd : isDigit d = true) (hsign : isSign c = true) :
    Numeral.read (d :: c :: rest) = (⟨[d], none, none⟩, c :: rest) := by
  obtain ⟨hdigit, hletter, hpoint⟩ := of_isSign hsign
  have hread : Exponent.read? (c :: rest) = none := by
    rw [Exponent.read?, if_neg]
    exact Bool.eq_false_iff.mp hletter
  have hfraction : Numeral.readFraction (c :: rest) = (none, c :: rest) := by
    apply Numeral.readFraction_of_ne
    intro h
    exact hpoint (Option.some.inj h)
  simp [Numeral.read, hd, hdigit, hfraction, hread]

/-- **Reading a lexeme finds the part of it that counts.** -/
theorem text_read (h : w ∈ grammar) : (Numeral.read w).1.text = valuePart w := by
  obtain ⟨u, ⟨d, hd, rfl⟩, w, hw, rfl⟩ := Language.mem_mul.mp h
  obtain ⟨r, hr, v, hv, rfl⟩ := Language.mem_mul.mp hw
  -- no sign comes second if all is digits up to the point
  have hwhole : ∀ u, (∀ c ∈ d :: u, isDigit c = true) →
      (Numeral.read (d :: u ++ v)).1.text = valuePart (d :: u ++ v) := by
    intro u hu
    have hsecond : ∀ c ∈ (u ++ v).head?, isSign c = false := by
      intro c hc
      cases u with
      | nil =>
        rw [head?_of_mem_fractions hv c hc]
        rfl
      | cons a u =>
        obtain rfl : a = c := Option.some.inj hc
        apply isSign_eq_false_of_isDigit
        exact hu a (List.mem_cons_of_mem d List.mem_cons_self)
    rw [List.cons_append, valuePart_cons hsecond]
    exact text_read_append hu hv
  cases r with
  | nil => exact hwhole [] (by simpa using hd)
  | cons b ds =>
    rw [cons_mem_optional, Phase.cons_mem_runs, Phase.language, mem_one_kstar] at hr
    obtain ⟨hb, hds⟩ := hr
    cases hsign : isSign b with
    | true =>
      -- the first digit is read, and it is what counts
      simp [read_sign hd hsign, valuePart, hsign, Numeral.text]
    | false =>
      apply hwhole
      simpa using ⟨hd, isDigit_of_beginsRun hb hsign, hds⟩

/-- **The part that counts is the longest numeral** at the front of a lexeme, and the value of the
lexeme is its number. -/
theorem longest_valuePart (h : w ∈ grammar) :
    IsLongestPrefix Numeral.texts w (valuePart w) ∧
      Numeral.convert? (valuePart w) = some (value w) := by
  rcases hread : Numeral.read w with ⟨n, rest⟩
  have htext : n.text = valuePart w := by
    rw [← text_read h, hread]
  -- a lexeme begins with a digit, which is read in any case
  have hne : n.whole ≠ [] := by
    have hwhole := Numeral.whole_read w
    obtain ⟨_, ⟨d, hd, rfl⟩, more, -, rfl⟩ := Language.mem_mul.mp h
    rw [hread, List.singleton_append, List.takeWhile_cons_of_pos hd] at hwhole
    rw [hwhole]
    exact List.cons_ne_nil d _
  obtain ⟨hn, -, -⟩ := (Numeral.read_eq_iff hne).mp hread
  rw [← htext]
  constructor
  · exact Numeral.longest_of_read hread hne
  · rw [Numeral.convert?_eq_some_iff, value, hread]
    exact ⟨n, hn, rfl, rfl⟩

end NumberLexeme

/-! ## §3 Tokens -/

namespace Lexeme

/-- A token is equal to itself, since the value of a number is no NaN. -/
theorem same_token (l : Lexeme) (line : Nat) : (l.token line).same (l.token line) = true := by
  have hliteral : sameLiteral l.literal l.literal = true := by
    cases l with
    | string body => exact beq_self_eq_true _
    | number digits hmem =>
      -- of all literals only a NaN would differ from itself
      have hvalue := Numeral.isMagnitude_of_convert? (NumberLexeme.longest_valuePart hmem).2
      show (NumberLexeme.value digits).same (NumberLexeme.value digits) = true
      rw [Binary64.same_self, hvalue.notNaN]
      rfl
    | _ => rfl
  simp [Token.same, token, hliteral]

end Lexeme

/-- **Number values come from a known part of the lexeme.** Numerals are converted, and no other texts,
each to the number that what it stands for is rounded to. The literal of a number token is what the part of
its lexeme that counts is converted to, which is the longest numeral at the front of the lexeme and the one
that a search from the end of the lexeme comes to; it is neither a NaN nor negative. So the tokens of a
source are equal to themselves. -/
theorem number_values (source : String) :
    (∀ w x, Numeral.convert? w = some x ↔
      ∃ n : Numeral, n.Proper ∧ n.text = w ∧ n.value = x) ∧
    (∀ (n : Numeral) x, n.value = x ↔ Binary64.Rounds n.magnitude x) ∧
    (∀ t ∈ tokens source, t.kind = .number → ∃ x, t.literal = some (.number x) ∧
      let lexeme := t.lexeme.toList
      let part := NumberLexeme.valuePart lexeme
      NumberLexeme.IsLongestPrefix Numeral.texts lexeme part ∧
        Numeral.convert? part = some x ∧ Numeral.searchBack lexeme = some x ∧ x.IsMagnitude) ∧
    (tokens source).isEqv (tokens source) Token.same = true := by
  refine ⟨fun w x => Numeral.convert?_eq_some_iff, Numeral.value_eq_iff, ?_, ?_⟩
  · intro t ht hkind
    obtain ⟨l, line, rfl⟩ := exists_lexeme_of_mem_tokens ht
    obtain ⟨hmem, hliteral⟩ := Lexeme.mem_grammar_of_kind hkind
    obtain ⟨hlongest, hconvert⟩ := NumberLexeme.longest_valuePart hmem
    refine ⟨NumberLexeme.value l.text, hliteral, ?_⟩
    rw [Lexeme.token, String.toList_ofList]
    refine ⟨hlongest, hconvert, ?_, Numeral.isMagnitude_of_convert? hconvert⟩
    rw [Numeral.searchBack_eq hlongest, hconvert]
  · have hsame : ∀ t ∈ tokens source, t.same t = true := by
      intro t ht
      obtain ⟨l, line, rfl⟩ := exists_lexeme_of_mem_tokens ht
      exact l.same_token line
    rw [List.isEqv_eq_decide, dif_pos rfl, decide_eq_true_iff]
    intro i hi
    exact hsame _ (List.getElem_mem hi)

/-- In `2.5e-` the letter and the sign do not count, and the value is that of `2.5`. -/
theorem number_values_open_exponent :
    ∃ t ∈ tokens "2.5e-", t.kind = .number ∧ t.literal = some (.number ⟨0x4004000000000000⟩) ∧
      NumberLexeme.IsLongestPrefix Numeral.texts "2.5e-".toList "2.5".toList := by
  have htokens : tokens "2.5e-" =
      [⟨.number, "2.5e-", some (.number ⟨0x4004000000000000⟩), 1⟩] := by decide +kernel
  have ht : ⟨.number, "2.5e-", some (.number ⟨0x4004000000000000⟩), 1⟩ ∈ tokens "2.5e-" := by
    rw [htokens]
    exact List.mem_singleton_self _
  obtain ⟨-, -, hnumbers, -⟩ := number_values "2.5e-"
  obtain ⟨x, hx, hlongest, -⟩ := hnumbers _ ht rfl
  have hpart : NumberLexeme.valuePart "2.5e-".toList = "2.5".toList := by cbv
  rw [hpart] at hlongest
  exact ⟨_, ht, rfl, rfl, hlongest⟩

end LoxLexer
