import LoxLexer.Cursor
import LoxLexer.Proofs.Span.Rules

/-!
# What is still to be read of a token

In the middle of a token it is settled how the token goes on: by the rest of the text alone, and by what the
cursor is in the middle of. One round of a loop moves a character from what is to be read to what has been
read, and where a loop ends there is nothing to be read any more.

* `Task.ahead`: the rest of a token.
* `Step.of_comment`, `Step.of_quote`, `Step.of_number`, `Step.of_letter`: what is ahead of the first
  characters.
* `Task.ahead_comment_cons` and its companions: a round of a loop.
-/

namespace LoxLexer

/-- The step that reads one more character before another one. -/
def Step.cons (c : Char) (s : Step) : Step :=
  ⟨c :: s.more, s.rest, s.outcome⟩

/-- What is ahead in a number. -/
def NumberLexeme.State.ahead : NumberLexeme.State → (text rest : List Char) → Step
  | reading p, text, rest =>
    let (more, left) := p.split rest
    ⟨more, left,
      if p = .start && more.isEmpty && !left.isEmpty then .fault .invalidNumberFormat
      else .token .number (some (.number (NumberLexeme.value (text ++ more))))⟩
  | ended, text, rest => ⟨[], rest, .token .number (some (.number (NumberLexeme.value text)))⟩
  | failed, _, rest => ⟨[], rest, .fault .invalidNumberFormat⟩

/-- **What is ahead**, in the middle of a token of which some text has been read: what is still to be read
of it, the text after it, and what it stands for. -/
def Task.ahead : Task → (text rest : List Char) → Step
  | next, _, rest => ⟨[], rest, .skipped⟩
  | comment, _, rest => ⟨rest.takeWhile (· != '\n'), rest.dropWhile (· != '\n'), .skipped⟩
  | string, text, rest =>
    let inside := rest.takeWhile (· != '"')
    match rest.dropWhile (· != '"') with
    | [] => ⟨inside, [], .fault .unterminatedString⟩
    | quote :: left =>
      ⟨inside ++ [quote], left,
        if (text.drop 1 ++ inside).isEmpty then .fault .unterminatedString
        else .token .string (some (.text (String.ofList (text.drop 1 ++ inside))))⟩
  | number s, text, rest => s.ahead text rest
  | word, text, rest =>
    ⟨rest.takeWhile isWordPart, rest.dropWhile isWordPart,
      .token (Kind.ofWord (String.ofList (text ++ rest.takeWhile isWordPart))) none⟩

/-! ## §1 After the first character -/

namespace Step

variable {c : Char} {rest : List Char}

theorem of_comment (rest : List Char) :
    of '/' ('/' :: rest) = cons '/' (Task.comment.ahead ['/', '/'] rest) := rfl

theorem of_slash (h : rest.head? ≠ some '/') : of '/' rest = ⟨[], rest, .skipped⟩ := by
  show slash rest = _
  rw [slash, if_neg h]
  rfl

theorem operator_of_eq (o : Operator) (rest : List Char) :
    operator o ('=' :: rest) = cons '=' ⟨[], rest, .token (.operator o true) none⟩ := rfl

theorem operator_of_ne {o : Operator} (h : rest.head? ≠ some '=') :
    operator o rest = ⟨[], rest, .token (.operator o false) none⟩ := by
  fun_cases operator o rest with
  | case1 rest => exact absurd rfl h
  | case2 => rfl

theorem of_quote (rest : List Char) : of '"' rest = Task.string.ahead ['"'] rest := by
  show string rest = _
  cases hleft : rest.dropWhile (· != '"') <;> simp [string, Task.ahead, hleft]

theorem of_number (hc : isDigit c = true) (rest : List Char) :
    of c rest = (Task.number (.reading .start)).ahead [c] rest := by
  rw [of_digit hc]
  show number c rest = NumberLexeme.State.ahead (.reading .start) [c] rest
  simp [number, NumberLexeme.State.ahead, NumberLexeme.split]

theorem of_letter (hc : isWordStart c = true) (rest : List Char) :
    of c rest = Task.word.ahead [c] rest := by
  rw [of_wordStart hc]
  rfl

end Step

/-! ## §2 In a loop -/

namespace Task

variable {c : Char} {text rest : List Char}

theorem ahead_number (s : NumberLexeme.State) (text rest : List Char) :
    (number s).ahead text rest = s.ahead text rest := rfl

theorem ahead_comment_cons (h : c ≠ '\n') :
    comment.ahead text (c :: rest) = (comment.ahead (text ++ [c]) rest).cons c := by
  simp [ahead, Step.cons, h]

theorem ahead_comment_end (h : rest.head?.getD '\n' = '\n') :
    comment.ahead text rest = ⟨[], rest, .skipped⟩ := by
  cases rest with
  | nil => rfl
  | cons c rest =>
    obtain rfl : c = '\n' := h
    rfl

theorem ahead_string_cons (htext : text ≠ []) (h : c ≠ '"') :
    string.ahead text (c :: rest) = (string.ahead (text ++ [c]) rest).cons c := by
  obtain ⟨d, more, rfl⟩ := List.exists_cons_of_ne_nil htext
  have hc : (c != '"') = true := bne_iff_ne.mpr h
  cases hleft : rest.dropWhile (· != '"') <;> simp [ahead, Step.cons, hc, hleft]

theorem ahead_string_nil (text : List Char) :
    string.ahead text [] = ⟨[], [], .fault .unterminatedString⟩ := rfl

theorem ahead_string_quote (d : Char) (body rest : List Char) :
    string.ahead (d :: body) ('"' :: rest) =
      Step.cons '"' ⟨[], rest, if body.isEmpty then .fault .unterminatedString
        else .token .string (some (.text (String.ofList body)))⟩ := by
  simp [ahead, Step.cons]

theorem ahead_word_cons (h : isWordPart c = true) :
    word.ahead text (c :: rest) = (word.ahead (text ++ [c]) rest).cons c := by
  simp [ahead, Step.cons, h]

theorem ahead_word_end (h : ∀ c ∈ rest.head?, isWordPart c = false) :
    word.ahead text rest = ⟨[], rest, .token (Kind.ofWord (String.ofList text)) none⟩ := by
  cases rest with
  | nil => simp [ahead]
  | cons c rest =>
    have hc : isWordPart c = false := h c rfl
    simp [ahead, hc]

end Task

namespace NumberLexeme.State

variable {c : Char} {text rest : List Char} {p q : Phase}

/-- No character leads back to the phase after the first digit. -/
theorem next?_ne_start (h : p.next? c = some q) : q ≠ .start := by
  rintro rfl
  cases p <;> simp only [Phase.next?] at h <;> split_ifs at h <;> simp_all

theorem ahead_cons (h : p.next? c = some q) :
    (reading p).ahead text (c :: rest) = ((reading q).ahead (text ++ [c]) rest).cons c := by
  have hq := next?_ne_start h
  simp [ahead, Phase.split, h, Step.cons, hq]

/-- Where a number cannot go on, its state becomes terminal. -/
theorem ahead_terminal (h : p.next? c = none) :
    (reading p).ahead text (c :: rest) =
      (if p = .start then failed else ended).ahead text (c :: rest) := by
  by_cases hp : p = .start
  · subst hp
    simp [ahead, Phase.split, h]
  · simp [ahead, Phase.split, h, hp]

/-- At the end of the text a number is complete, in whatever phase. -/
theorem ahead_nil (p : Phase) (text : List Char) : (reading p).ahead text [] = ended.ahead text [] := by
  simp [ahead, Phase.split]

/-- It does not matter whether the end of the text is noticed. -/
theorem ahead_ite_isEmpty (p : Phase) (text rest : List Char) :
    (if rest.isEmpty then ended else reading p).ahead text rest = (reading p).ahead text rest := by
  cases rest with
  | nil => exact (ahead_nil p text).symm
  | cons c rest => rfl

end NumberLexeme.State

end LoxLexer
