import LoxLexer.Span.Basic
import LoxLexer.Proofs.Span.Grammar

/-!
# Lexemes

The texts that tokens can have, told apart by their shape. The shape of a lexeme decides the kind and
the literal of its token. Where lexemes stand next to other text, some of them would go on with what
follows: `Lexeme.EndsAt` says which characters may come directly after a lexeme.

* `Lexeme.endsAt_none`: every lexeme can end a source.
* `Lexeme.endsAt_of_stops`: blanks and slashes end every lexeme but a lone digit, which then is no
  number.
* `Lexeme.not_mem_text_of_isBlank`: of all lexemes only strings can have blanks.
-/

namespace LoxLexer

/-- The text of a token. -/
inductive Lexeme where
  /-- One of the ten marks. -/
  | mark (m : Mark)
  /-- An operator, with or without an equals sign after it. -/
  | operator (o : Operator) (withEqual : Bool)
  /-- A character that can begin a word, and characters that can continue it. -/
  | word (first : Char) (more : List Char) (hfirst : isWordStart first = true)
      (hmore : ∀ c ∈ more, isWordPart c = true)
  /-- A text between two quotes, not empty and without a quote of its own. -/
  | string (body : List Char) (hne : body ≠ []) (hquote : '"' ∉ body)
  /-- A text of the number grammar. -/
  | number (digits : List Char) (hmem : digits ∈ NumberLexeme.grammar)

namespace Lexeme

/-! ## §1 Shape and token -/

/-- The lexeme as it is written. -/
def text : Lexeme → List Char
  | mark m => [m.char]
  | operator o false => [o.char]
  | operator o true => [o.char, '=']
  | word first more _ _ => first :: more
  | string body _ _ => '"' :: (body ++ ['"'])
  | number digits _ => digits

/-- The kind of the token, which for a word is that of the keyword it spells, if any. -/
def kind : Lexeme → Kind
  | mark m => .mark m
  | operator o withEqual => .operator o withEqual
  | word first more _ _ => Kind.ofWord (String.ofList (first :: more))
  | string .. => .string
  | number .. => .number

/-- The literal of the token: the text between the quotes, or the value of the number. -/
def literal : Lexeme → Option Literal
  | string body _ _ => some (.text (String.ofList body))
  | number digits _ => some (.number (NumberLexeme.value digits))
  | _ => none

/-- Whether the lexeme is a number of a single digit. -/
def IsLoneDigit : Lexeme → Prop
  | number digits _ => digits.length = 1
  | _ => False

/-! ## §2 What may follow -/

/-- Whether the lexeme ends where this character follows, or where nothing follows. -/
def EndsAt : Lexeme → Option Char → Prop
  | operator _ false, next => next ≠ some '='
  | word .., next => ∀ c ∈ next, isWordPart c = false
  | number digits _, next =>
    NumberLexeme.EndsAt digits next ∧ (digits.length = 1 → next = none)
  | _, _ => True

theorem text_ne_nil (l : Lexeme) : l.text ≠ [] := by
  cases l with
  | operator o withEqual => cases withEqual <;> exact List.cons_ne_nil _ _
  | number digits hmem =>
    rintro rfl
    obtain ⟨a, ⟨d, -, rfl⟩, b, -, h⟩ := Language.mem_mul.mp hmem
    exact absurd h (List.cons_ne_nil _ _)
  | _ => exact List.cons_ne_nil _ _

private theorem isWordPart_of_isBlank {c : Char} (h : isBlank c = true) : isWordPart c = false := by
  rcases isBlank_iff.mp h with rfl | rfl | rfl | rfl <;> decide

private theorem next?_of_isBlank {c : Char} (h : isBlank c = true) (q : NumberLexeme.Phase) :
    q.next? c = none := by
  rcases isBlank_iff.mp h with rfl | rfl | rfl | rfl <;> cases q <;> decide

/-- Characters that no lexeme goes on with. -/
structure Stops (c : Char) : Prop where
  equal : c ≠ '='
  word : isWordPart c = false
  number : ∀ q : NumberLexeme.Phase, q.next? c = none

theorem stops_of_isBlank {c : Char} (h : isBlank c = true) : Stops c := by
  refine ⟨?_, isWordPart_of_isBlank h, next?_of_isBlank h⟩
  rintro rfl
  exact absurd h (by decide)

theorem stops_slash : Stops '/' := by
  refine ⟨by decide, by decide, ?_⟩
  intro q
  cases q <;> rfl

theorem endsAt_of_stops {l : Lexeme} (hl : ¬ l.IsLoneDigit) {c : Char} (hc : Stops c) :
    l.EndsAt (some c) := by
  cases l with
  | operator o withEqual =>
    cases withEqual with
    | true => trivial
    | false => exact fun h => hc.equal (Option.some.inj h)
  | word first more _ _ =>
    intro d hd
    obtain rfl : c = d := Option.some.inj hd
    exact hc.word
  | number digits hmem =>
    refine ⟨?_, fun h => absurd h hl⟩
    cases digits with
    | nil => exact absurd rfl (text_ne_nil (number [] hmem))
    | cons d more =>
      obtain ⟨hd, hmore⟩ := NumberLexeme.cons_mem_grammar.mp hmem
      obtain ⟨q, hq⟩ := Option.isSome_iff_exists.mp (NumberLexeme.Phase.mem_language_iff.mp hmore)
      -- no phase goes on with the character, whichever the lexeme has come to
      exact NumberLexeme.endsAt_cons_iff.mpr
        ⟨hd, q, hq, fun e he => Option.some.inj he ▸ hc.number q⟩
  | _ => trivial

theorem not_isLoneDigit_of_endsAt {l : Lexeme} {c : Char} (h : l.EndsAt (some c)) :
    ¬ l.IsLoneDigit := by
  cases l with
  | number digits hmem => exact fun hl => absurd (h.2 hl) (Option.some_ne_none c)
  | _ => exact id

/-! ## §3 What the kind tells -/

/-- A lexeme with the kind of strings is one. -/
theorem exists_string {l : Lexeme} (h : l.kind = .string) :
    ∃ body hne hquote, l = .string body hne hquote := by
  cases l with
  | word first more => exact absurd h (Kind.ofWord_ne _).1
  | string body hne hquote => exact ⟨body, hne, hquote, rfl⟩
  | _ => exact Kind.noConfusion h

theorem exists_body {l : Lexeme} (h : l.kind = .string) :
    ∃ body, '"' ∉ body ∧ l.text = '"' :: (body ++ ['"']) := by
  obtain ⟨body, hne, hquote, rfl⟩ := exists_string h
  exact ⟨body, hquote, rfl⟩

/-- A lexeme with the kind of numbers is a number. -/
theorem mem_grammar_of_kind {l : Lexeme} (h : l.kind = .number) :
    l.text ∈ NumberLexeme.grammar ∧ l.literal = some (.number (NumberLexeme.value l.text)) := by
  cases l with
  | number digits hmem => exact ⟨hmem, rfl⟩
  | word first more => exact absurd h (Kind.ofWord_ne _).2
  | _ => exact Kind.noConfusion h

/-- **Of all lexemes only strings can have blanks.** -/
theorem not_mem_text_of_isBlank {l : Lexeme} (h : l.kind ≠ .string) {c : Char}
    (hc : isBlank c = true) : c ∉ l.text := by
  intro hmem
  cases l with
  | mark m =>
    obtain rfl := List.mem_singleton.mp hmem
    cases m <;> exact absurd hc (by decide)
  | operator o withEqual =>
    have hchar : isBlank o.char ≠ true := by cases o <;> decide
    cases withEqual with
    | false =>
      obtain rfl := List.mem_singleton.mp hmem
      exact hchar hc
    | true =>
      rcases List.mem_pair.mp hmem with rfl | rfl
      · exact hchar hc
      · exact absurd hc (by decide)
  | word first more hfirst hmore =>
    have hpart : isWordPart c = true := by
      rcases List.mem_cons.mp hmem with rfl | hmem
      · exact isWordPart_of_isWordStart hfirst
      · exact hmore c hmem
    rw [isWordPart_of_isBlank hc] at hpart
    exact Bool.noConfusion hpart
  | string body => exact h rfl
  | number digits hdigits =>
    cases digits with
    | nil => exact List.not_mem_nil hmem
    | cons d more =>
      -- the first character is a digit, and no phase goes on with a blank after it
      obtain ⟨hd, hmore⟩ := NumberLexeme.cons_mem_grammar.mp hdigits
      rcases List.mem_cons.mp hmem with rfl | hmem
      · have hpart := isWordPart_of_isDigit hd
        rw [isWordPart_of_isBlank hc] at hpart
        exact Bool.noConfusion hpart
      · exact NumberLexeme.Phase.not_mem_of_mem_language (next?_of_isBlank hc) hmore hmem

/-- The literal can be told from the kind and the text. -/
theorem literal_eq (l : Lexeme) :
    l.literal =
      if l.kind = .string then some (.text (String.ofList l.text.tail.dropLast))
      else if l.kind = .number then some (.number (NumberLexeme.value l.text)) else none := by
  cases l with
  | word first more =>
    obtain ⟨hstring, hnumber⟩ := Kind.ofWord_ne (String.ofList (first :: more))
    show none = _
    rw [kind, if_neg hstring, if_neg hnumber]
  | string body => simp [literal, kind, text]
  | _ => rfl

end Lexeme

end LoxLexer
