import Mathlib.Computability.Language
import LoxLexer.Span.Number

/-!
# The grammar of number lexemes

The number lexemes form the regular language

`[0-9]([0-9+-][0-9]*)?(\.[0-9]*([eE]([0-9+-][0-9]*)?)?)?`

The phases of a number lexeme are the states of an automaton for it: what a lexeme can go on with in a
phase is a language of its own, and the table of phases takes the derivative of that language. All
phases accept. Hence the language is closed under prefixes of at least one character, and a lexeme that
cannot be continued by the next character is the longest one at its place.

* `Phase.mem_language_iff`: the automaton accepts the language of its phase.
* `longest_of_endsAt`: a lexeme that ends before the next character is the longest.
* `endsAt_split`, `split_append_eq_of_endsAt`: splitting cuts a text exactly where the lexeme ends.
-/

namespace LoxLexer.NumberLexeme

open Computability

/-! ## §1 The grammar -/

/-- The texts that consist of one character of a class. -/
def one (p : Char → Bool) : Language Char :=
  {w | ∃ c, p c = true ∧ w = [c]}

/-- A digit or a sign, and digits after it: `[0-9+-][0-9]*`. -/
def runs : Language Char :=
  one (fun c => isDigit c || c == '+' || c == '-') * (one isDigit)∗

/-- The letter of an exponent, and perhaps a run: `[eE]([0-9+-][0-9]*)?`. -/
def exponents : Language Char :=
  one (fun c => c == 'e' || c == 'E') * (1 + runs)

/-- A point, digits, and perhaps an exponent: `\.[0-9]*([eE]([0-9+-][0-9]*)?)?`. -/
def fractions : Language Char :=
  one (· == '.') * ((one isDigit)∗ * (1 + exponents))

/-- A digit, and perhaps a run and a fraction: all number lexemes. -/
def grammar : Language Char :=
  one isDigit * ((1 + runs) * (1 + fractions))

/-! ## §2 Derivatives

Whether a text that begins with `c` lies in a language is decided by the text after `c`. -/

variable {p : Char → Bool} {c : Char} {w : List Char} {K L : Language Char}

theorem cons_mem_one_mul : c :: w ∈ one p * L ↔ p c = true ∧ w ∈ L := by
  rw [Language.mem_mul]
  constructor
  · rintro ⟨_, ⟨d, hd, rfl⟩, b, hb, h⟩
    obtain ⟨rfl, rfl⟩ := List.cons.inj h
    exact ⟨hd, hb⟩
  · rintro ⟨hc, hw⟩
    exact ⟨[c], ⟨c, hc, rfl⟩, w, hw, rfl⟩

/-- A repeated class holds the texts all of whose characters are in the class. -/
theorem mem_one_kstar : w ∈ (one p)∗ ↔ ∀ c ∈ w, p c = true := by
  rw [Language.mem_kstar]
  constructor
  · rintro ⟨ws, rfl, h⟩ c hc
    obtain ⟨v, hv, hcv⟩ := List.mem_flatten.mp hc
    obtain ⟨d, hd, rfl⟩ := h v hv
    rw [List.mem_singleton.mp hcv]
    exact hd
  · intro h
    refine ⟨w.map fun c => [c], ?_, ?_⟩
    · induction w with
      | nil => rfl
      | cons c w ih =>
        have hw : w = (w.map fun c => [c]).flatten := ih fun d hd => h d (List.mem_cons_of_mem c hd)
        rw [List.map_cons, List.flatten_cons, ← hw, List.singleton_append]
    · intro v hv
      obtain ⟨c, hc, rfl⟩ := List.mem_map.mp hv
      exact ⟨c, h c hc, rfl⟩

theorem cons_mem_one_kstar : c :: w ∈ (one p)∗ ↔ p c = true ∧ w ∈ (one p)∗ := by
  simp only [mem_one_kstar, List.mem_cons, forall_eq_or_imp]

theorem cons_mem_one_kstar_mul :
    c :: w ∈ (one p)∗ * L ↔ (p c = true ∧ w ∈ (one p)∗ * L) ∨ c :: w ∈ L := by
  simp only [Language.mem_mul]
  constructor
  · rintro ⟨a, ha, b, hb, h⟩
    cases a with
    | nil =>
      rw [List.nil_append] at h
      exact Or.inr (h ▸ hb)
    | cons d a =>
      obtain ⟨rfl, rfl⟩ := List.cons.inj h
      obtain ⟨hd, ha⟩ := cons_mem_one_kstar.mp ha
      exact Or.inl ⟨hd, a, ha, b, hb, rfl⟩
  · rintro (⟨hc, a, ha, b, hb, rfl⟩ | h)
    · exact ⟨c :: a, cons_mem_one_kstar.mpr ⟨hc, ha⟩, b, hb, rfl⟩
    · exact ⟨[], Language.nil_mem_kstar _, c :: w, h, rfl⟩

theorem cons_mem_optional : c :: w ∈ 1 + L ↔ c :: w ∈ L := by
  rw [Language.mem_add, Language.mem_one, or_iff_right (List.cons_ne_nil c w)]

theorem cons_mem_optional_mul : c :: w ∈ (1 + K) * L ↔ c :: w ∈ L ∨ c :: w ∈ K * L := by
  rw [add_mul, one_mul, Language.mem_add]

theorem nil_mem_optional : [] ∈ 1 + L :=
  Or.inl rfl

theorem nil_mem_mul (hK : [] ∈ K) (hL : [] ∈ L) : [] ∈ K * L :=
  Language.mem_mul.mpr ⟨[], hK, [], hL, rfl⟩

/-! ## §3 The language of a phase -/

namespace Phase

/-- What a lexeme in a phase can go on with. -/
def language : Phase → Language Char
  | start => (1 + runs) * (1 + fractions)
  | whole => (one isDigit)∗ * (1 + fractions)
  | fraction => (one isDigit)∗ * (1 + exponents)
  | letter => 1 + runs
  | exponent => (one isDigit)∗

/-- The phase after further characters, if the lexeme goes on with all of them. -/
def after? (p : Phase) (w : List Char) : Option Phase :=
  w.foldlM next? p

theorem nil_mem_language (q : Phase) : [] ∈ q.language := by
  cases q with
  | start => exact nil_mem_mul nil_mem_optional nil_mem_optional
  | whole => exact nil_mem_mul (Language.nil_mem_kstar _) nil_mem_optional
  | fraction => exact nil_mem_mul (Language.nil_mem_kstar _) nil_mem_optional
  | letter => exact nil_mem_optional
  | exponent => exact Language.nil_mem_kstar _

theorem cons_mem_runs_mul :
    c :: w ∈ runs * L ↔ beginsRun c = true ∧ w ∈ (one isDigit)∗ * L := by
  rw [runs, mul_assoc]
  exact cons_mem_one_mul

theorem cons_mem_runs : c :: w ∈ runs ↔ beginsRun c = true ∧ w ∈ exponent.language :=
  cons_mem_one_mul

theorem cons_mem_exponents : c :: w ∈ exponents ↔ isLetter c = true ∧ w ∈ letter.language :=
  cons_mem_one_mul

theorem cons_mem_fractions : c :: w ∈ fractions ↔ c = '.' ∧ w ∈ fraction.language := by
  rw [← beq_iff_eq]
  exact cons_mem_one_mul

private theorem not_beginsRun_dot : ¬ beginsRun '.' = true := by decide

private theorem not_isDigit_dot : ¬ isDigit '.' = true := by decide

theorem not_isDigit_of_isLetter (h : isLetter c = true) : ¬ isDigit c = true := by
  rw [isLetter, Bool.or_eq_true, beq_iff_eq, beq_iff_eq] at h
  rcases h with rfl | rfl <;> decide

/-- The step that every phase takes: the table gives the derivative of the language. -/
theorem cons_mem_language {q : Phase} :
    c :: w ∈ q.language ↔ ∃ r, q.next? c = some r ∧ w ∈ r.language := by
  -- the languages are sums with at most two ways to begin; the classes of these are disjoint, which
  -- makes the automaton deterministic
  cases q with
  | start =>
    rw [language, cons_mem_optional_mul, cons_mem_optional, cons_mem_fractions, cons_mem_runs_mul]
    by_cases hc : c = '.'
    · subst hc
      simp [next?, not_beginsRun_dot]
    · by_cases hb : beginsRun c = true <;> simp [next?, hb, hc, language]
  | whole =>
    rw [language, cons_mem_one_kstar_mul, cons_mem_optional, cons_mem_fractions]
    by_cases hc : c = '.'
    · subst hc
      simp [next?, not_isDigit_dot]
    · by_cases hd : isDigit c = true <;> simp [next?, hd, hc, language]
  | fraction =>
    rw [language, cons_mem_one_kstar_mul, cons_mem_optional, cons_mem_exponents]
    by_cases hl : isLetter c = true
    · simp [next?, hl, not_isDigit_of_isLetter hl]
    · by_cases hd : isDigit c = true <;> simp [next?, hl, hd, language]
  | letter =>
    rw [language, cons_mem_optional, cons_mem_runs]
    by_cases hb : beginsRun c = true <;> simp [next?, hb]
  | exponent =>
    rw [language, cons_mem_one_kstar]
    by_cases hd : isDigit c = true <;> simp [next?, hd, language]

/-- The automaton accepts, from any phase, the language of that phase. -/
theorem mem_language_iff {q : Phase} : w ∈ q.language ↔ (q.after? w).isSome = true := by
  induction w generalizing q with
  | nil => exact ⟨fun _ => rfl, fun _ => nil_mem_language q⟩
  | cons c w ih =>
    rw [cons_mem_language, after?, List.foldlM_cons]
    cases hq : q.next? c with
    | none => simp
    | some r => simpa [after?] using ih

/-- A character that no phase goes on with is in no text that a phase goes on with. -/
theorem not_mem_of_mem_language (hc : ∀ q : Phase, q.next? c = none) {q : Phase}
    (hw : w ∈ q.language) : c ∉ w := by
  induction w generalizing q with
  | nil => exact List.not_mem_nil
  | cons a w ih =>
    -- a first character takes the phase on to the next one, and the rest is read from there
    obtain ⟨r, hr, hw⟩ := cons_mem_language.mp hw
    intro hmem
    rcases List.mem_cons.mp hmem with rfl | hmem
    · rw [hc q] at hr
      exact Option.some_ne_none r hr.symm
    · exact ih hw hmem

end Phase

/-- A text is a number lexeme if it is a digit and what the first phase can go on with. -/
theorem cons_mem_grammar : c :: w ∈ grammar ↔ isDigit c = true ∧ w ∈ Phase.start.language :=
  cons_mem_one_mul

/-! ## §4 Longest lexemes -/

/-- **The longest prefix** of a text that lies in a language. -/
structure IsLongestPrefix (L : Language Char) (text best : List Char) : Prop where
  mem : best ∈ L
  isPrefix : best <+: text
  longest : ∀ w ∈ L, w <+: text → w.length ≤ best.length

/-- A lexeme ends where a character follows that it cannot go on with, or nothing at all. -/
structure EndsAt (lexeme : List Char) (next : Option Char) : Prop where
  mem : lexeme ∈ grammar
  stuck : ∀ c ∈ next, lexeme ++ [c] ∉ grammar

/-- What begins a lexeme is a lexeme. -/
theorem mem_grammar_of_isPrefix {u : List Char} (hu : u ≠ []) (h : u <+: w) (hw : w ∈ grammar) :
    u ∈ grammar := by
  obtain ⟨v, rfl⟩ := h
  cases u with
  | nil => exact absurd rfl hu
  | cons d u =>
    rw [List.cons_append, cons_mem_grammar, Phase.mem_language_iff, Phase.after?,
      List.foldlM_append] at hw
    rw [cons_mem_grammar, Phase.mem_language_iff, Phase.after?]
    refine ⟨hw.1, ?_⟩
    cases h : u.foldlM Phase.next? Phase.start with
    | none => simp [h] at hw
    | some q => rfl

/-- A lexeme that ends before the next character is the longest, since whatever is longer would go on
with that character. -/
theorem longest_of_endsAt {lexeme rest : List Char} (h : EndsAt lexeme rest.head?) :
    IsLongestPrefix grammar (lexeme ++ rest) lexeme := by
  refine ⟨h.mem, List.prefix_append _ _, ?_⟩
  intro w hw hpre
  by_contra hlt
  cases rest with
  | nil =>
    rw [List.append_nil] at hpre
    exact hlt hpre.length_le
  | cons c rest =>
    -- the text up to `c` begins `w`, and so it would be a lexeme
    have hc : lexeme ++ [c] <+: w := by
      refine List.prefix_of_prefix_length_le ⟨rest, by simp⟩ hpre ?_
      rw [List.length_append, List.length_singleton]
      omega
    exact h.stuck c rfl (mem_grammar_of_isPrefix (by simp) hc hw)

/-! ## §5 Splitting -/

namespace Phase

/-- Splitting stops in a phase that does not go on with the next character. -/
theorem after?_split (q : Phase) (cs : List Char) :
    ∃ r, q.after? (q.split cs).1 = some r ∧ ∀ c ∈ (q.split cs).2.head?, r.next? c = none := by
  induction cs generalizing q with
  | nil => exact ⟨q, rfl, fun c hc => absurd hc (by simp [split])⟩
  | cons c cs ih =>
    cases hq : q.next? c with
    | none =>
      -- the lexeme ends here, and the phase has not changed
      refine ⟨q, by simp [split, hq, after?], ?_⟩
      intro d hd
      obtain rfl : c = d := by simpa [split, hq] using hd
      exact hq
    | some r =>
      obtain ⟨s, hs, hstop⟩ := ih r
      exact ⟨s, by simpa [split, hq, after?] using hs, by simpa [split, hq] using hstop⟩

/-- Splitting finds any part that leads to such a phase. -/
theorem split_append_eq {q r : Phase} {more rest : List Char} (h : q.after? more = some r)
    (hstop : ∀ c ∈ rest.head?, r.next? c = none) : q.split (more ++ rest) = (more, rest) := by
  induction more generalizing q with
  | nil =>
    obtain rfl : q = r := by simpa [after?] using h
    cases rest with
    | nil => rfl
    | cons c rest => simp [split, hstop c rfl]
  | cons c more ih =>
    rw [after?, List.foldlM_cons] at h
    cases hq : q.next? c with
    | none => simp [hq] at h
    | some s =>
      have hs : s.split (more ++ rest) = (more, rest) := ih (by simpa [hq, after?] using h)
      simp [split, hq, hs]

end Phase

/-- The phase at the end of a lexeme tells where the lexeme ends. -/
theorem endsAt_cons_iff {d : Char} {more : List Char} {next : Option Char} :
    EndsAt (d :: more) next ↔ isDigit d = true ∧
      ∃ q, Phase.start.after? more = some q ∧ ∀ c ∈ next, q.next? c = none := by
  -- one more character is one more step of the automaton
  have hstep : ∀ {q : Phase} (c : Char), Phase.start.after? more = some q →
      (Phase.start.after? (more ++ [c]) = q.next? c) := by
    intro q c hq
    rw [Phase.after?] at hq
    simp [Phase.after?, hq]
  constructor
  · rintro ⟨hmem, hstuck⟩
    obtain ⟨hd, hmore⟩ := cons_mem_grammar.mp hmem
    obtain ⟨q, hq⟩ := Option.isSome_iff_exists.mp (Phase.mem_language_iff.mp hmore)
    refine ⟨hd, q, hq, ?_⟩
    intro c hc
    have hout := hstuck c hc
    rw [List.cons_append, cons_mem_grammar, Phase.mem_language_iff, hstep c hq] at hout
    simpa [hd] using hout
  · rintro ⟨hd, q, hq, hstop⟩
    refine ⟨cons_mem_grammar.mpr ⟨hd, Phase.mem_language_iff.mpr (by rw [hq]; rfl)⟩, ?_⟩
    intro c hc hmem
    rw [List.cons_append, cons_mem_grammar, Phase.mem_language_iff, hstep c hq, hstop c hc] at hmem
    exact absurd hmem.2 (by simp)

/-- Splitting leaves a lexeme that ends before what is left. -/
theorem endsAt_split {d : Char} (hd : isDigit d = true) (cs : List Char) :
    EndsAt (d :: (split cs).1) (split cs).2.head? :=
  endsAt_cons_iff.mpr ⟨hd, Phase.start.after?_split cs⟩

/-- Splitting finds a lexeme that ends before what is left. -/
theorem split_append_eq_of_endsAt {d : Char} {more rest : List Char}
    (h : EndsAt (d :: more) rest.head?) : split (more ++ rest) = (more, rest) := by
  obtain ⟨_, q, hq, hstop⟩ := endsAt_cons_iff.mp h
  exact Phase.split_append_eq hq hstop

end LoxLexer.NumberLexeme
