import LoxLexer.Proofs.Scan.Lines

/-!
# The shapes of tokens

What a token looks like can be said by its kind, and by the character that comes after it. A word goes on
as far as letters and digits do, and it is a keyword exactly if it is spelled as one. An operator without
an equals sign has none after it. A string has its value between two quotes, and every other token the
text of its kind.

* `Token.Shaped`: all of this, one field for each group of kinds.
* `Lexeme.shaped`: the token of a lexeme that ends where it does.
* `tokens_shaped`: every token of a scan.
-/

namespace LoxLexer

/-! ## §1 Words -/

/-- A character that can begin a word, and characters that can continue it. -/
def IsWord (cs : List Char) : Prop :=
  ∃ first more, cs = first :: more ∧ isWordStart first = true ∧ ∀ c ∈ more, isWordPart c = true

theorem Keyword.exists_wordStart (k : Keyword) :
    ∃ c more, k.text.toList = c :: more ∧ isWordStart c = true := by
  cases k <;> exact ⟨_, _, rfl, rfl⟩

theorem Kind.exists_keyword_of_keywordText? {k : Kind} {text : String}
    (h : k.keywordText? = some text) : ∃ w : Keyword, k = .keyword w ∧ w.text = text := by
  cases k with
  | keyword w => exact ⟨w, rfl, Option.some.inj h⟩
  | _ => exact absurd h.symm (Option.some_ne_none text)

/-- A word has no kind but those of words. -/
theorem Kind.isWord_of_ofWord_eq {s : String} {k : Kind} (h : ofWord s = k) :
    k = .identifier ∨ k.isKeyword = true := by
  rw [← h, ofWord]
  cases Keyword.ofText? s with
  | none => exact .inl rfl
  | some w => exact .inr rfl

/-- A word is an identifier exactly if no keyword is spelled like it. -/
theorem Kind.ofWord_eq_identifier_iff {s : String} :
    ofWord s = .identifier ↔ ∀ k : Kind, k.keywordText? ≠ some s := by
  constructor
  · intro h k hk
    obtain ⟨w, -, hw⟩ := exists_keyword_of_keywordText? hk
    rw [ofWord_eq_keyword_iff.mpr hw] at h
    exact Kind.noConfusion h
  · intro h
    cases hw : Keyword.ofText? s with
    | none => rw [ofWord, hw]
    | some w => exact absurd (congrArg some (Keyword.ofText?_eq_some_iff.mp hw)) (h (.keyword w))

/-! ## §2 Shapes -/

namespace Token

/-- **What a token looks like** before the character that comes after it. -/
structure Shaped (t : Token) (next : Option Char) : Prop where
  /-- A word goes on as far as characters that can continue it. -/
  word : t.kind = .identifier ∨ t.kind.isKeyword = true →
    IsWord t.lexeme.toList ∧ ∀ c ∈ next, isWordPart c = false
  /-- Tokens of a keyword's kind are those that are spelled as the keyword. -/
  keyword : ∀ k text, Kind.keywordText? k = some text → (t.kind = k ↔ t.lexeme = text)
  /-- Identifiers are the words that no keyword is spelled like. -/
  identifier : t.kind = .identifier ↔
    IsWord t.lexeme.toList ∧ ∀ k : Kind, k.keywordText? ≠ some t.lexeme
  /-- A bare operator has no equals sign after it. -/
  bare : ∀ o, t.kind = .operator o false → t.lexeme.toList = [o.char] ∧ next ≠ some '='
  withEqual : ∀ o, t.kind = .operator o true → t.lexeme.toList = [o.char, '=']
  mark : ∀ m, t.kind = .mark m → t.lexeme.toList = [m.char]
  /-- A string is its value between two quotes. -/
  string : t.kind = .string → ∃ v : String, v ≠ "" ∧ '"' ∉ v.toList ∧
    t.lexeme = "\"" ++ v ++ "\"" ∧ t.literal = some (.text v)
  /-- Only strings and numbers have a value. -/
  literal : t.literal.isSome = true → t.kind = .string ∨ t.kind = .number
  /-- The end of a source is never read as a token. -/
  notEnd : t.kind ≠ .eof

end Token

/-! ## §3 Lexemes -/

namespace Lexeme

variable {l : Lexeme} {next : Option Char}

/-- A lexeme that begins like a word is one. -/
theorem isWord_of_head {c : Char} {more : List Char} (h : l.text = c :: more)
    (hc : isWordStart c = true) : IsWord l.text ∧ l.kind = Kind.ofWord (String.ofList l.text) := by
  cases l with
  | mark m =>
    obtain ⟨rfl, -⟩ := List.cons.inj h
    cases m <;> exact absurd hc (by decide)
  | operator o withEqual =>
    have hchar : o.char = c := by
      cases withEqual <;> exact (List.cons.inj h).1
    rw [← hchar] at hc
    cases o <;> exact absurd hc (by decide)
  | word first rest hfirst hrest => exact ⟨⟨first, rest, rfl, hfirst, hrest⟩, rfl⟩
  | string body =>
    obtain ⟨rfl, -⟩ := List.cons.inj h
    exact absurd hc (by decide)
  | number digits hmem =>
    obtain rfl : digits = c :: more := h
    rw [isWordStart_eq_false_of_isDigit (NumberLexeme.cons_mem_grammar.mp hmem).1] at hc
    exact Bool.noConfusion hc

/-- A lexeme with the kind of a word is one, and goes on as far as words do. -/
theorem isWord_of_kind (h : l.EndsAt next)
    (hkind : l.kind = .identifier ∨ l.kind.isKeyword = true) :
    IsWord l.text ∧ ∀ c ∈ next, isWordPart c = false := by
  cases l with
  | word first more hfirst hmore => exact ⟨⟨first, more, rfl, hfirst, hmore⟩, h⟩
  | _ =>
    rcases hkind with hkind | hkind
    · exact Kind.noConfusion hkind
    · exact Bool.noConfusion hkind

/-- A lexeme with the text of a keyword has the kind of the keyword, and no other lexeme has it. -/
theorem kind_eq_keyword_iff {w : Keyword} : l.kind = .keyword w ↔ String.ofList l.text = w.text := by
  constructor
  · intro h
    have hword : l.kind.isKeyword = true := by
      rw [h]
      rfl
    cases l with
    | word first more => exact (Kind.ofWord_eq_keyword_iff.mp h).symm
    | _ => exact Bool.noConfusion hword
  · intro h
    -- keywords begin like words, and so a lexeme that is spelled as one is a word
    obtain ⟨c, more, htext, hc⟩ := w.exists_wordStart
    rw [← h, String.toList_ofList] at htext
    rw [(isWord_of_head htext hc).2, Kind.ofWord_eq_keyword_iff, h]

theorem kind_eq_identifier_iff : l.kind = .identifier ↔
    IsWord l.text ∧ ∀ k : Kind, k.keywordText? ≠ some (String.ofList l.text) := by
  constructor
  · intro h
    cases l with
    | word first more hfirst hmore =>
      exact ⟨⟨first, more, rfl, hfirst, hmore⟩, Kind.ofWord_eq_identifier_iff.mp h⟩
    | _ => exact Kind.noConfusion h
  · rintro ⟨⟨first, more, htext, hfirst, -⟩, hnone⟩
    rw [(isWord_of_head htext hfirst).2]
    exact Kind.ofWord_eq_identifier_iff.mpr hnone

theorem eq_mark_of_kind {m : Mark} (h : l.kind = .mark m) : l = .mark m := by
  cases l with
  | mark m' => rw [Kind.mark.inj h]
  | word first more => exact (Kind.isWord_of_ofWord_eq h).elim Kind.noConfusion Bool.noConfusion
  | _ => exact Kind.noConfusion h

theorem eq_operator_of_kind {o : Operator} {withEqual : Bool} (h : l.kind = .operator o withEqual) :
    l = .operator o withEqual := by
  cases l with
  | operator o' withEqual' =>
    obtain ⟨rfl, rfl⟩ := Kind.operator.inj h
    rfl
  | word first more => exact (Kind.isWord_of_ofWord_eq h).elim Kind.noConfusion Bool.noConfusion
  | _ => exact Kind.noConfusion h

/-- The token of a lexeme. -/
def token (l : Lexeme) (line : Nat) : Token :=
  ⟨l.kind, String.ofList l.text, l.literal, line⟩

/-- **The token of a lexeme has its shape** where the lexeme ends. -/
theorem shaped (h : l.EndsAt next) (line : Nat) : (l.token line).Shaped next where
  word := by
    intro hkind
    rw [token, String.toList_ofList]
    exact isWord_of_kind h hkind
  keyword := by
    intro k text hk
    obtain ⟨w, rfl, rfl⟩ := Kind.exists_keyword_of_keywordText? hk
    exact kind_eq_keyword_iff
  identifier := by
    rw [token, String.toList_ofList]
    exact kind_eq_identifier_iff
  bare := by
    intro o hkind
    obtain rfl := eq_operator_of_kind hkind
    rw [token, String.toList_ofList]
    exact ⟨rfl, h⟩
  withEqual := by
    intro o hkind
    obtain rfl := eq_operator_of_kind hkind
    rw [token, String.toList_ofList]
    rfl
  mark := by
    intro m hkind
    obtain rfl := eq_mark_of_kind hkind
    rw [token, String.toList_ofList]
    rfl
  string := by
    intro hkind
    obtain ⟨body, hne, hquote, rfl⟩ := exists_string hkind
    refine ⟨String.ofList body, by simpa using hne, by simpa using hquote, ?_, rfl⟩
    rw [← String.toList_inj]
    simp [token, text]
  literal := by
    intro hsome
    cases l with
    | string body => exact .inl rfl
    | number digits => exact .inr rfl
    | _ => exact Bool.noConfusion hsome
  notEnd := by
    intro hkind
    cases l with
    | word first more =>
      exact (Kind.isWord_of_ofWord_eq hkind).elim Kind.noConfusion Bool.noConfusion
    | _ => exact Kind.noConfusion hkind

end Lexeme

/-! ## §4 Scans -/

/-- A token is that of a lexeme, which its span takes up. -/
theorem exists_lexeme_of_mem_tokensOf {source : String} {before after : List PlacedSpan}
    {p : PlacedSpan} (h : placedSpans 1 source.toList = before ++ p :: after) {t : Token}
    (ht : t ∈ tokensOf [p]) : ∃ l : Lexeme,
      l.EndsAt (placedText after).head? ∧ l.text = p.span.text ∧ t = l.token p.line := by
  have hreads := (reads_of_placedSpans h).1
  rcases p with ⟨⟨text, outcome⟩, line⟩
  -- of the three rules for spans only the one for lexemes gives a token
  cases hreads with
  | silent => exact absurd ht List.not_mem_nil
  | faulty => exact absurd ht List.not_mem_nil
  | lexeme l hends => exact ⟨l, hends, rfl, List.mem_singleton.mp ht⟩

theorem exists_lexeme_of_mem_tokens {source : String} {t : Token} (ht : t ∈ tokens source) :
    ∃ (l : Lexeme) (line : Nat), t = l.token line := by
  rw [tokens, tokensOf_eq_flatMap] at ht
  obtain ⟨p, hp, htp⟩ := List.mem_flatMap.mp ht
  obtain ⟨before, after, h⟩ := List.append_of_mem hp
  obtain ⟨l, -, -, hl⟩ := exists_lexeme_of_mem_tokensOf h htp
  exact ⟨l, p.line, hl⟩

/-- **Every token is a maximal lexeme of its kind.** The tokens of a source are those of its spans. The
token of a span has the text that the span takes up in the source as its lexeme, and the shape of its kind
before the character that comes after the span. -/
theorem tokens_shaped (source : String) :
    tokens source = (placedSpans 1 source.toList).flatMap (fun p => tokensOf [p]) ∧
    ∀ before p after, placedSpans 1 source.toList = before ++ p :: after →
      source.toList = placedText before ++ (p.span.text ++ placedText after) ∧
      ∀ t ∈ tokensOf [p],
        t.lexeme = String.ofList p.span.text ∧ t.Shaped (placedText after).head? := by
  refine ⟨tokensOf_eq_flatMap _, ?_⟩
  intro before p after h
  refine ⟨placedText_append_of_placedSpans h, ?_⟩
  intro t ht
  obtain ⟨l, hends, htext, rfl⟩ := exists_lexeme_of_mem_tokensOf h ht
  rw [← htext]
  exact ⟨rfl, Lexeme.shaped hends p.line⟩

/-- An equals sign between a keyword and a string is an operator of its own. -/
theorem tokens_shaped_between :
    ∃ before p after, placedSpans 1 "or=\"é\"".toList = before ++ p :: after ∧
      ⟨.operator .equal false, "=", none, 1⟩ ∈ tokensOf [p] ∧
      Token.Shaped ⟨.operator .equal false, "=", none, 1⟩ (some '"') := by
  have h : placedSpans 1 "or=\"é\"".toList =
      [⟨⟨['o', 'r'], .token (.keyword .orWord) none⟩, 1⟩] ++
        ⟨⟨['='], .token (.operator .equal false) none⟩, 1⟩ ::
        [⟨⟨['"', 'é', '"'], .token .string (some (.text "é"))⟩, 1⟩] := by cbv
  have ht : ⟨.operator .equal false, "=", none, 1⟩ ∈
      tokensOf [⟨⟨['='], .token (.operator .equal false) none⟩, 1⟩] := List.mem_singleton_self _
  obtain ⟨-, hspans⟩ := tokens_shaped "or=\"é\""
  obtain ⟨-, htokens⟩ := hspans _ _ _ h
  exact ⟨_, _, _, h, ht, (htokens _ ht).2⟩

end LoxLexer
