import LoxLexer.Command.Run
import LoxLexer.Proofs.Scan.Writing

/-!
# Listings as text lose nothing

A listing as text is not escaped: the text of a string stands in it as it is, and may have spaces, line
feeds, and lines that look like those of other tokens. Still the tokens can be told from it, but for
their lines.

Reading goes from the left. The name of a kind has no space and ends at the first one. The kind tells
how far the lexeme goes: a string ends at its second quote, and anything else before the next space. Kind
and lexeme then tell the literal, and the line that they make is known to its end.

## Main Results

* `eq_of_listedLine_append_eq`: a line of a listing is cut off in one way.
* `map_reading_eq_of_flatMap_eq`: so is a list of lines.
* `listing_text_eq_iff`: two listings as text are the same if and only if their tokens are, but for
  lines.
-/

namespace LoxLexer

/-! ## §1 Lines of listings -/

/-- The line of a token in a listing, from what the token says about its lexeme. -/
def listedLine (r : Kind × String × Option Literal) : List Char :=
  (Token.mk r.1 r.2.1 r.2.2 0).text.toList ++ ['\n']

/-- The last word of the line of a lexeme. -/
def Lexeme.listedLiteral (l : Lexeme) : List Char :=
  (Token.mk l.kind (String.ofList l.text) l.literal 0).literalText.toList ++ ['\n']

theorem Lexeme.listedLine_reading (l : Lexeme) :
    listedLine l.reading = l.kind.name.toList ++ ' ' :: (l.text ++ ' ' :: l.listedLiteral) := by
  simp [listedLine, Lexeme.reading, Lexeme.listedLiteral, Token.text]

/-- After the name of its kind a lexeme is cut off in one way. -/
theorem Lexeme.eq_of_text_append_eq {k l : Lexeme} (hkind : k.kind = l.kind) {u v : List Char}
    (h : k.text ++ ' ' :: u = l.text ++ ' ' :: v) : k.text = l.text ∧ u = v := by
  by_cases hstring : k.kind = .string
  · -- the second quote is the end, and spaces before it are part of the string
    obtain ⟨body, hbody, htext⟩ := k.exists_body hstring
    obtain ⟨body', hbody', htext'⟩ := l.exists_body (hkind ▸ hstring)
    have hcons : body ++ '"' :: ' ' :: u = body' ++ '"' :: ' ' :: v := by
      simpa [htext, htext'] using h
    obtain ⟨rfl, hrest⟩ := eq_of_append_cons_eq hbody hbody' hcons
    exact ⟨htext.trans htext'.symm, (List.cons.inj hrest).2⟩
  · apply eq_of_append_cons_eq _ _ h
    · exact k.not_mem_text_of_isBlank hstring (by decide)
    · exact l.not_mem_text_of_isBlank (hkind ▸ hstring) (by decide)

/-- **A line of a listing is cut off in one way**, whatever follows. -/
theorem Lexeme.eq_of_listedLine_append_eq {k l : Lexeme} {u v : List Char}
    (h : listedLine k.reading ++ u = listedLine l.reading ++ v) : k.reading = l.reading ∧ u = v := by
  rw [listedLine_reading, listedLine_reading] at h
  simp only [List.append_assoc, List.cons_append] at h
  -- name, lexeme and literal, one after the other
  obtain ⟨hname, h⟩ := eq_of_append_cons_eq (Kind.space_not_mem_name _) (Kind.space_not_mem_name _) h
  have hkind : k.kind = l.kind := Kind.name_injective (String.toList_inj.mp hname)
  obtain ⟨htext, h⟩ := Lexeme.eq_of_text_append_eq hkind h
  have hliteral : k.literal = l.literal := by
    rw [literal_eq, literal_eq, hkind, htext]
  refine ⟨?_, ?_⟩
  · rw [reading, reading, hkind, htext, hliteral]
  · rw [listedLiteral, listedLiteral, hkind, htext, hliteral] at h
    exact List.append_cancel_left h

/-- **Lines of a listing are cut off in one way.** -/
theorem map_reading_eq_of_flatMap_eq {ks ls : List Lexeme}
    (h : (ks.flatMap fun k => listedLine k.reading) = ls.flatMap fun l => listedLine l.reading) :
    ks.map Lexeme.reading = ls.map Lexeme.reading := by
  -- no line is empty, so that both lists come to an end together
  have hne : ∀ (l : Lexeme) (u : List Char), listedLine l.reading ++ u ≠ [] := by
    intro l u
    rw [Lexeme.listedLine_reading]
    simp
  induction ks generalizing ls with
  | nil =>
    cases ls with
    | nil => rfl
    | cons l ls => exact absurd h.symm (hne l _)
  | cons k ks ih =>
    cases ls with
    | nil => exact absurd h (hne k _)
    | cons l ls =>
      obtain ⟨hreading, hrest⟩ := Lexeme.eq_of_listedLine_append_eq h
      rw [List.map_cons, List.map_cons, hreading, ih hrest]

/-! ## §2 Listings of scans -/

/-- The tokens of a source are lexemes. -/
theorem exists_lexemes_tokens (source : String) :
    ∃ ls : List Lexeme, (tokens source).map Token.reading = ls.map Lexeme.reading := by
  obtain ⟨ls, hls, -⟩ := (chain_spans source.toList).exists_lexemes
  exact ⟨ls, (map_reading_tokensOf_place 1 _).trans hls⟩

/-- Tokens are listed line by line, and no line tells the line of its token. -/
theorem toList_listing_text (ts : List Token) :
    (Command.listing .text ts).toList = (ts.map Token.reading).flatMap listedLine := by
  induction ts with
  | nil => rfl
  | cons t ts ih =>
    have hcons : Command.listing .text (t :: ts) = (t.text ++ "\n") ++ Command.listing .text ts :=
      String.join_cons
    rw [hcons, String.toList_append, ih, String.toList_append]
    rfl

namespace Command

/-- The line for the end of the source is the same in all listings, if it is there at all. -/
theorem toList_listing_listed {s : Settings} (hformat : s.format = .text) (ts : List Token)
    (line : Nat) :
    (listing s.format (listed s ts line)).toList =
      (ts.map Token.reading).flatMap listedLine ++
        if s.showEof then listedLine (.eof, "", none) else [] := by
  rw [hformat, toList_listing_text, listed, List.map_append, List.flatMap_append]
  cases s.showEof
  · rfl
  · simp [Token.reading, Token.endOfSource]

/-- **Listings as text lose nothing.** What is printed for two sources is the same if and only if the
tokens are the same in number and have pairwise the same kind, lexeme and literal. Only lines are not
told. -/
theorem listing_text_eq_iff {s : Settings} (hformat : s.format = .text) (a b : String) :
    (printListing s (tokens a) (lastLine a)).printed? =
        (printListing s (tokens b) (lastLine b)).printed? ↔
      List.Forall₂ (fun t u => t.kind = u.kind ∧ t.lexeme = u.lexeme ∧ t.literal = u.literal)
        (tokens a) (tokens b) := by
  have hreading : List.Forall₂
        (fun t u : Token => t.kind = u.kind ∧ t.lexeme = u.lexeme ∧ t.literal = u.literal)
        (tokens a) (tokens b) ↔
      (tokens a).map Token.reading = (tokens b).map Token.reading := by
    rw [← List.forall₂_eq_eq_eq, List.forall₂_map_left_iff, List.forall₂_map_right_iff]
    simp only [Token.reading, Prod.mk.injEq]
  have hprinted : ∀ source, (printListing s (tokens source) (lastLine source)).printed? =
      some (listing s.format (listed s (tokens source) (lastLine source))) := fun source => rfl
  rw [hreading, hprinted, hprinted, Option.some_inj, ← String.toList_inj,
    toList_listing_listed hformat, toList_listing_listed hformat, List.append_cancel_right_eq]
  constructor
  · -- the tokens are lexemes, and these can be told from their lines
    obtain ⟨ks, hks⟩ := exists_lexemes_tokens a
    obtain ⟨ls, hls⟩ := exists_lexemes_tokens b
    rw [hks, hls, List.flatMap_map, List.flatMap_map]
    exact map_reading_eq_of_flatMap_eq
  · intro h
    rw [h]

/-- A string that looks like the line of a word, listed for two sources with other lines. -/
theorem listing_text_eq_iff_other_lines :
    let s : Settings := ⟨.text, true, "> ", true⟩
    let a := "x\n\"IDENTIFIER x null\n\""
    let b := "\n\nx \"IDENTIFIER x null\n\""
    (tokens a).map Token.line = [1, 3] ∧ (tokens b).map Token.line = [3, 4] ∧
      (printListing s (tokens a) (lastLine a)).printed? =
        (printListing s (tokens b) (lastLine b)).printed? := by
  intro s a b
  have ha : placedSpans 1 "x\n\"IDENTIFIER x null\n\"".toList =
      [⟨⟨['x'], .token .identifier none⟩, 1⟩, ⟨⟨['\n'], .skipped⟩, 2⟩,
        ⟨⟨"\"IDENTIFIER x null\n\"".toList,
          .token .string (some (.text "IDENTIFIER x null\n"))⟩, 3⟩] := by cbv
  have hb : placedSpans 1 "\n\nx \"IDENTIFIER x null\n\"".toList =
      [⟨⟨['\n'], .skipped⟩, 2⟩, ⟨⟨['\n'], .skipped⟩, 3⟩,
        ⟨⟨['x'], .token .identifier none⟩, 3⟩, ⟨⟨[' '], .skipped⟩, 3⟩,
        ⟨⟨"\"IDENTIFIER x null\n\"".toList,
          .token .string (some (.text "IDENTIFIER x null\n"))⟩, 4⟩] := by cbv
  refine ⟨by rw [tokens, ha]; rfl, by rw [tokens, hb]; rfl, ?_⟩
  apply (listing_text_eq_iff rfl a b).mpr
  rw [tokens, tokens, ha, hb]
  exact .cons ⟨rfl, rfl, rfl⟩ (.cons ⟨rfl, rfl, rfl⟩ .nil)

end Command

end LoxLexer
