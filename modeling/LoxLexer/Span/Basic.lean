import LoxLexer.Token.Basic
import LoxLexer.Diagnostic.Basic
import LoxLexer.Span.Number

/-!
# Spans

Reading cuts a source text into spans. Each span has at least one character and exactly one outcome:
a token, a fault, or nothing at all, as for blanks, comments and a lone slash. The first character of
a span decides how far it goes, with one character of look-ahead past its end.

* `Step.of`: the span that begins with a given character of a given text.
* `spans`: the spans of a text, end to end; `flatten_spans` says that their texts make up the text.
-/

namespace LoxLexer

/-- What a span stands for. -/
inductive Outcome where
  | token (kind : Kind) (literal : Option Literal)
  | fault (f : Fault)
  /-- Nothing: a blank, a comment or a lone slash. -/
  | skipped
deriving DecidableEq

/-- A piece of source text with its outcome. -/
structure Span where
  text : List Char
  outcome : Outcome
deriving DecidableEq

/-- The first span of a text, told apart into what follows its first character, the text after the
span, and the outcome. -/
structure Step where
  more : List Char
  rest : List Char
  outcome : Outcome

namespace Step

/-! ## §1 The span that a character begins -/

/-- A span of one character. -/
def single (outcome : Outcome) (cs : List Char) : Step :=
  ⟨[], cs, outcome⟩

/-- After a slash: a second slash begins a comment, which goes on up to the end of the line. -/
def slash (cs : List Char) : Step :=
  if cs.head? = some '/' then ⟨cs.takeWhile (· != '\n'), cs.dropWhile (· != '\n'), .skipped⟩
  else single .skipped cs

/-- After a quote: the string up to the next quote. An empty string is refused like an open one. -/
def string (cs : List Char) : Step :=
  let body := cs.takeWhile (· != '"')
  match cs.dropWhile (· != '"') with
  | [] => ⟨body, [], .fault .unterminatedString⟩
  | quote :: rest =>
    ⟨body ++ [quote], rest,
      if body.isEmpty then .fault .unterminatedString
      else .token .string (some (.text (String.ofList body)))⟩

/-- After a digit: the longest number lexeme. A digit that is not continued is a number only at the
end of the text. -/
def number (digit : Char) (cs : List Char) : Step :=
  let (more, rest) := NumberLexeme.split cs
  ⟨more, rest,
    if more.isEmpty && !rest.isEmpty then .fault .invalidNumberFormat
    else .token .number (some (.number (NumberLexeme.value (digit :: more))))⟩

/-- After the first character of a word: the longest word. -/
def word (first : Char) (cs : List Char) : Step :=
  let more := cs.takeWhile isWordPart
  ⟨more, cs.dropWhile isWordPart, .token (Kind.ofWord (String.ofList (first :: more))) none⟩

/-- After the first character of an operator: its equals sign, if there is one. -/
def operator (o : Operator) : List Char → Step
  | '=' :: rest => ⟨['='], rest, .token (.operator o true) none⟩
  | cs => single (.token (.operator o false) none) cs

/-- After a character that begins nothing longer than a mark or an operator. -/
def symbol (c : Char) (cs : List Char) : Step :=
  match Mark.ofChar? c, Operator.ofChar? c with
  | some m, _ => single (.token (.mark m) none) cs
  | none, some o => operator o cs
  | none, none => single (.fault (.unexpectedCharacter c)) cs

/-- The span that begins with `c` and the text `cs` after it. -/
def of (c : Char) (cs : List Char) : Step :=
  if isBlank c then single .skipped cs
  else if c = '/' then slash cs
  else if c = '"' then string cs
  else if isDigit c then number c cs
  else if isWordStart c then word c cs
  else symbol c cs

/-! ## §2 Nothing is lost -/

theorem slash_append (cs : List Char) : (slash cs).more ++ (slash cs).rest = cs := by
  unfold slash
  split
  · exact List.takeWhile_append_dropWhile
  · rfl

theorem string_append (cs : List Char) : (string cs).more ++ (string cs).rest = cs := by
  have h : cs.takeWhile (· != '"') ++ cs.dropWhile (· != '"') = cs :=
    List.takeWhile_append_dropWhile
  unfold string
  split
  · next hd => simpa [hd] using h
  · next q rest hd => simpa [hd] using h

theorem number_append (d : Char) (cs : List Char) :
    (number d cs).more ++ (number d cs).rest = cs :=
  NumberLexeme.split_append cs

theorem word_append (c : Char) (cs : List Char) : (word c cs).more ++ (word c cs).rest = cs :=
  List.takeWhile_append_dropWhile

theorem operator_append (o : Operator) (cs : List Char) :
    (operator o cs).more ++ (operator o cs).rest = cs := by
  fun_cases operator o cs <;> rfl

theorem symbol_append (c : Char) (cs : List Char) :
    (symbol c cs).more ++ (symbol c cs).rest = cs := by
  unfold symbol
  split
  · rfl
  · exact operator_append _ _
  · rfl

/-- What a span takes up and what it leaves are the text that it was cut from. -/
theorem of_append (c : Char) (cs : List Char) : (of c cs).more ++ (of c cs).rest = cs := by
  unfold of
  split
  · rfl
  · split
    · exact slash_append cs
    · split
      · exact string_append cs
      · split
        · exact number_append c cs
        · split
          · exact word_append c cs
          · exact symbol_append c cs

/-- What a span leaves is no longer than the text after its first character. -/
theorem length_rest_le (c : Char) (cs : List Char) : (of c cs).rest.length ≤ cs.length := by
  have h := congrArg List.length (of_append c cs)
  rw [List.length_append] at h
  omega

end Step

/-! ## §3 All spans of a text -/

/-- The spans of a text, from its beginning to its end. -/
def spans : List Char → List Span
  | [] => []
  | c :: cs => ⟨c :: (Step.of c cs).more, (Step.of c cs).outcome⟩ :: spans (Step.of c cs).rest
termination_by cs => cs.length
decreasing_by
  have := Step.length_rest_le c cs
  simp only [List.length_cons]
  omega

/-- The texts of the spans, one after the other, are the text. -/
theorem flatten_spans (cs : List Char) : ((spans cs).map Span.text).flatten = cs := by
  fun_induction spans cs with
  | case1 => rfl
  | case2 c cs ih =>
    rw [List.map_cons, List.flatten_cons, ih, List.cons_append, Step.of_append]

/-- Every span has a character. -/
theorem text_ne_nil_of_mem_spans {cs : List Char} {s : Span} (h : s ∈ spans cs) : s.text ≠ [] := by
  fun_induction spans cs with
  | case1 => simp at h
  | case2 c cs ih =>
    rcases List.mem_cons.mp h with rfl | h
    · exact List.cons_ne_nil _ _
    · exact ih h

end LoxLexer
