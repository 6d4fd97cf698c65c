/-!
# Token kinds

The kinds of Lox tokens, grouped as a reader meets them: ten marks of one character, four operators
that may be followed by an equals sign, sixteen keywords, and the kinds whose text varies. There is
no kind for a slash: a slash that begins no comment stands for nothing.

* `Mark.ofChar?_eq_some_iff`, `Operator.ofChar?_eq_some_iff`, `Keyword.ofText?_eq_some_iff`: each
  look-up finds exactly what has the given text.
* `Kind.ofWord`: a word is a keyword if it is spelled as one, and an identifier otherwise.
-/

namespace LoxLexer

/-! ## §1 Marks -/

/-- The marks: tokens of one character, whatever follows. -/
inductive Mark where
  | leftParen | rightParen | leftBrace | rightBrace | comma | dot | minus | plus | semicolon | star
deriving DecidableEq

namespace Mark

/-- All marks. -/
def all : List Mark :=
  [leftParen, rightParen, leftBrace, rightBrace, comma, dot, minus, plus, semicolon, star]

/-- The character of a mark. -/
def char : Mark → Char
  | leftParen => '('
  | rightParen => ')'
  | leftBrace => '{'
  | rightBrace => '}'
  | comma => ','
  | dot => '.'
  | minus => '-'
  | plus => '+'
  | semicolon => ';'
  | star => '*'

/-- The name of a mark in listings. -/
def name : Mark → String
  | leftParen => "LEFT_PAREN"
  | rightParen => "RIGHT_PAREN"
  | leftBrace => "LEFT_BRACE"
  | rightBrace => "RIGHT_BRACE"
  | comma => "COMMA"
  | dot => "DOT"
  | minus => "MINUS"
  | plus => "PLUS"
  | semicolon => "SEMICOLON"
  | star => "STAR"

/-- The mark with this character. -/
def ofChar? (c : Char) : Option Mark :=
  all.find? (·.char == c)

theorem mem_all (m : Mark) : m ∈ all := by
  cases m <;> decide

theorem char_injective {m n : Mark} (h : m.char = n.char) : m = n := by
  cases m <;> cases n <;> first | rfl | exact absurd h (by decide)

theorem ofChar?_char (m : Mark) : ofChar? m.char = some m := by
  cases m <;> decide

theorem ofChar?_eq_some_iff {c : Char} {m : Mark} : ofChar? c = some m ↔ m.char = c := by
  constructor
  · intro h
    simpa using List.find?_some h
  · rintro rfl
    exact ofChar?_char m

end Mark

/-! ## §2 Operators -/

/-- The operators: each has a longer form with an equals sign after it. -/
inductive Operator where
  | bang | equal | greater | less
deriving DecidableEq

namespace Operator

/-- All operators. -/
def all : List Operator := [bang, equal, greater, less]

/-- The first character of an operator. -/
def char : Operator → Char
  | bang => '!'
  | equal => '='
  | greater => '>'
  | less => '<'

/-- The name of the bare operator in listings. -/
def name : Operator → String
  | bang => "BANG"
  | equal => "EQUAL"
  | greater => "GREATER"
  | less => "LESS"

/-- The operator that begins with this character. -/
def ofChar? (c : Char) : Option Operator :=
  all.find? (·.char == c)

theorem mem_all (o : Operator) : o ∈ all := by
  cases o <;> decide

theorem ofChar?_char (o : Operator) : ofChar? o.char = some o := by
  cases o <;> decide

theorem ofChar?_eq_some_iff {c : Char} {o : Operator} : ofChar? c = some o ↔ o.char = c := by
  constructor
  · intro h
    simpa using List.find?_some h
  · rintro rfl
    exact ofChar?_char o

end Operator

/-! ## §3 Keywords -/

/-- The reserved words. -/
inductive Keyword where
  | andWord | classWord | elseWord | falseWord | forWord | funWord | ifWord | nilWord
  | orWord | printWord | returnWord | superWord | thisWord | trueWord | varWord | whileWord
deriving DecidableEq

namespace Keyword

/-- All keywords, in the order of their spellings. -/
def all : List Keyword :=
  [andWord, classWord, elseWord, falseWord, forWord, funWord, ifWord, nilWord,
   orWord, printWord, returnWord, superWord, thisWord, trueWord, varWord, whileWord]

/-- The spelling of a keyword. -/
def text : Keyword → String
  | andWord => "and"
  | classWord => "class"
  | elseWord => "else"
  | falseWord => "false"
  | funWord => "fun"
  | forWord => "for"
  | ifWord => "if"
  | nilWord => "nil"
  | orWord => "or"
  | printWord => "print"
  | returnWord => "return"
  | superWord => "super"
  | thisWord => "this"
  | trueWord => "true"
  | varWord => "var"
  | whileWord => "while"

/-- The name of a keyword in listings. -/
def name : Keyword → String
  | andWord => "AND"
  | classWord => "CLASS"
  | elseWord => "ELSE"
  | falseWord => "FALSE"
  | funWord => "FUN"
  | forWord => "FOR"
  | ifWord => "IF"
  | nilWord => "NIL"
  | orWord => "OR"
  | printWord => "PRINT"
  | returnWord => "RETURN"
  | superWord => "SUPER"
  | thisWord => "THIS"
  | trueWord => "TRUE"
  | varWord => "VAR"
  | whileWord => "WHILE"

/-- The keyword with exactly this spelling. -/
def ofText? (s : String) : Option Keyword :=
  all.find? (·.text == s)

theorem mem_all (k : Keyword) : k ∈ all := by
  cases k <;> decide

theorem ofText?_text (k : Keyword) : ofText? k.text = some k := by
  cases k <;> decide

theorem ofText?_eq_some_iff {s : String} {k : Keyword} : ofText? s = some k ↔ k.text = s := by
  constructor
  · intro h
    simpa using List.find?_some h
  · rintro rfl
    exact ofText?_text k

end Keyword

/-! ## §4 Kinds -/

/-- The kind of a token. -/
inductive Kind where
  | mark (m : Mark)
  /-- An operator, with or without an equals sign after it. -/
  | operator (o : Operator) (withEqual : Bool)
  | identifier
  | string
  | number
  | keyword (k : Keyword)
  /-- The end of the source, which is listed on request and never read. -/
  | eof
deriving DecidableEq

namespace Kind

/-- All kinds. -/
def all : List Kind :=
  Mark.all.map mark
    ++ Operator.all.flatMap (fun o => [operator o false, operator o true])
    ++ [identifier, string, number] ++ Keyword.all.map keyword ++ [eof]

/-- The name of a kind in listings. -/
def name : Kind → String
  | mark m => m.name
  | operator o false => o.name
  | operator o true => o.name ++ "_EQUAL"
  | identifier => "IDENTIFIER"
  | string => "STRING"
  | number => "NUMBER"
  | keyword k => k.name
  | eof => "EOF"

/-- The kind with this name. -/
def ofName? (s : String) : Option Kind :=
  all.find? (·.name == s)

/-- The spelling of a keyword kind. -/
def keywordText? : Kind → Option String
  | keyword k => some k.text
  | _ => none

/-- Whether the kind is that of a keyword. -/
def isKeyword (k : Kind) : Bool :=
  k.keywordText?.isSome

/-- The kind of a word. -/
def ofWord (s : String) : Kind :=
  match Keyword.ofText? s with
  | some k => keyword k
  | none => identifier

theorem mem_all (k : Kind) : k ∈ all := by
  cases k with
  | mark m => cases m <;> decide
  | operator o e => cases o <;> cases e <;> decide
  | keyword k => cases k <;> decide
  | _ => decide

theorem ofName?_name (k : Kind) : ofName? k.name = some k := by
  cases k with
  | mark m => cases m <;> decide
  | operator o e => cases o <;> cases e <;> decide
  | keyword k => cases k <;> decide
  | _ => decide

/-- Kinds have different names. -/
theorem name_injective {k l : Kind} (h : k.name = l.name) : k = l := by
  have hk := ofName?_name k
  rw [h, ofName?_name] at hk
  exact (Option.some.inj hk).symm

/-- The name of a kind is one word. -/
theorem space_not_mem_name (k : Kind) : ' ' ∉ k.name.toList := by
  have hall : ∀ l ∈ all, ' ' ∉ l.name.toList := by decide
  exact hall k k.mem_all

/-- A word has a keyword's kind exactly if it is spelled as that keyword. -/
theorem ofWord_eq_keyword_iff {s : String} {k : Keyword} : ofWord s = keyword k ↔ k.text = s := by
  rw [← Keyword.ofText?_eq_some_iff, ofWord]
  cases Keyword.ofText? s <;> simp

/-- No word has a literal. -/
theorem ofWord_ne (s : String) : ofWord s ≠ string ∧ ofWord s ≠ number := by
  rw [ofWord]
  cases Keyword.ofText? s <;> simp

end Kind

end LoxLexer
