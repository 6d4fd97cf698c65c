import LoxLexer.Command.Run
import LoxLexer.Proofs.Json.Numbers
import LoxLexer.Proofs.Json.Written
import LoxLexer.Proofs.Number.Overflow
import LoxLexer.Proofs.Scan.NumberValues

/-!
# Literals in JSON listings

A listing as JSON is a list of records, one for each token, and the literal of a token is one of its four
members. Strings have strings of JSON for their literals, and numbers have numbers of JSON, except for
those that are too large for any finite number: their literal is `null`, just as if there was none.

* `Token.Overflows`: the number that a lexeme begins with is rounded to infinity.
* `Token.LiteralWritten`: what is written for the literal of a token, by its kind.
* `listed_literals`: so it is for all tokens of a listing.
-/

namespace LoxLexer

open Json (Layout ListOf RecordOf Named StringText quoted)

namespace Token

/-- **A number token overflows** if the longest numeral at the front of its lexeme stands for a number that
is rounded to infinity. -/
def Overflows (t : Token) : Prop :=
  overflow ≤ (Numeral.read t.lexeme.toList).1.magnitude

/-- **What is written for a literal.** -/
structure LiteralWritten (t : Token) : Prop where
  /-- It is `null` for tokens that are neither strings nor numbers, and for numbers that overflow. -/
  null : t.literalJson = "null" ↔ t.kind ≠ .string ∧ (t.kind = .number → t.Overflows)
  /-- For a string it is the text between the quotes, as a string. -/
  string : t.kind = .string →
    ∃ v : String, t.lexeme = "\"" ++ v ++ "\"" ∧ StringText v t.literalJson.toList
  /-- For a number that does not overflow it is a number. -/
  number : t.kind = .number → ¬ t.Overflows → NumberText t.literalJson.toList

variable {t : Token}

theorem literalWritten_of_none (hkind : t.kind ≠ .string ∧ t.kind ≠ .number) (h : t.literal = none) :
    t.LiteralWritten where
  null := by
    rw [literalJson, h]
    exact iff_of_true rfl ⟨hkind.1, fun hnumber => absurd hnumber hkind.2⟩
  string := fun hstring => absurd hstring hkind.1
  number := fun hnumber => absurd hnumber hkind.2

theorem literalWritten_of_string {v : String} (hkind : t.kind = .string)
    (hlexeme : t.lexeme = "\"" ++ v ++ "\"") (h : t.literal = some (.text v)) : t.LiteralWritten := by
  have hwritten : t.literalJson = quoted v := by
    rw [literalJson, h]
    rfl
  refine ⟨?_, ?_, ?_⟩
  · -- what is quoted begins with a quote
    refine iff_of_false ?_ fun hnull => hnull.1 hkind
    rw [hwritten, ← String.toList_inj, quoted, String.toList_ofList]
    exact fun hnull => absurd (List.cons.inj hnull).1 (by decide)
  · intro _
    rw [hwritten]
    exact ⟨v, hlexeme, Json.stringText_quoted v⟩
  · intro hnumber
    rw [hkind] at hnumber
    exact Kind.noConfusion hnumber

theorem overflows_iff : t.Overflows ↔ (NumberLexeme.value t.lexeme.toList).isFinite = false := by
  rw [← Bool.not_eq_true, NumberLexeme.value, Numeral.isFinite_value_iff, not_lt, Overflows]

theorem literalWritten_of_number (hkind : t.kind = .number)
    (h : t.literal = some (.number (NumberLexeme.value t.lexeme.toList))) : t.LiteralWritten := by
  have hwritten : t.literalJson = NumberStyle.json.write (NumberLexeme.value t.lexeme.toList) := by
    rw [literalJson, h]
    rfl
  have hstring : t.kind ≠ .string := by
    rw [hkind]
    exact Kind.noConfusion
  refine ⟨?_, fun h => absurd h hstring, ?_⟩
  · rw [hwritten, NumberStyle.write_json_eq_null_iff, ← overflows_iff]
    exact ⟨fun hover => ⟨hstring, fun _ => hover⟩, fun hnull => hnull.2 hkind⟩
  · intro _ hover
    rw [overflows_iff, Bool.not_eq_false] at hover
    rw [hwritten]
    exact NumberStyle.numberText_write hover

/-- The members of a token's record. -/
theorem recordOf_json (layout : Layout) (depth : Nat) (t : Token) :
    RecordOf Named [("kind", (quoted t.kind.name).toList), ("lexeme", (quoted t.lexeme).toList),
      ("literal", t.literalJson.toList), ("line", (toString t.line).toList)]
      (t.json layout depth).toList :=
  layout.recordOf_record depth
    [("kind", quoted t.kind.name), ("lexeme", quoted t.lexeme), ("literal", t.literalJson),
      ("line", toString t.line)]

end Token

/-- The token of a lexeme has the literal of its kind. -/
theorem Lexeme.literalWritten_token (l : Lexeme) (line : Nat) : (l.token line).LiteralWritten := by
  cases l with
  | mark m => exact Token.literalWritten_of_none ⟨Kind.noConfusion, Kind.noConfusion⟩ rfl
  | operator o withEqual => exact Token.literalWritten_of_none ⟨Kind.noConfusion, Kind.noConfusion⟩ rfl
  | word first more => exact Token.literalWritten_of_none (Kind.ofWord_ne _) rfl
  | string body hne hquote =>
    apply Token.literalWritten_of_string (v := String.ofList body) rfl _ rfl
    rw [← String.toList_inj]
    simp [token, text]
  | number digits hmem =>
    apply Token.literalWritten_of_number rfl
    rw [token, String.toList_ofList]
    rfl

/-- **Literals in a listing as JSON.** In either layout, and with the end of the source or without it, a
listing is the list of its tokens, and a token is the record of its kind, its lexeme, its literal and its
line. The literal is a string for every string and a number for every number, however many digits and
whatever exponent it has, unless the number overflows; then, and for all other tokens, it is `null`. -/
theorem listed_literals (s : Settings) (source : String) (layout : Layout) :
    let ts := Command.listed s (tokens source) (lastLine source)
    ListOf (ts.map fun t => (t.json layout 1).toList) (Token.listJson layout ts).toList ∧
      ∀ t ∈ ts, t.LiteralWritten ∧
        RecordOf Named [("kind", (quoted t.kind.name).toList), ("lexeme", (quoted t.lexeme).toList),
          ("literal", t.literalJson.toList), ("line", (toString t.line).toList)]
          (t.json layout 1).toList := by
  intro ts
  constructor
  · have hlist := layout.listOf_list 0 (ts.map (Token.json layout 1))
    rwa [List.map_map] at hlist
  · intro t ht
    refine ⟨?_, Token.recordOf_json layout 1 t⟩
    rcases List.mem_append.mp ht with ht | ht
    · obtain ⟨l, line, rfl⟩ := exists_lexeme_of_mem_tokens ht
      exact l.literalWritten_token line
    · split at ht
      · obtain rfl := List.mem_singleton.mp ht
        exact Token.literalWritten_of_none ⟨Kind.noConfusion, Kind.noConfusion⟩ rfl
      · exact absurd ht List.not_mem_nil

/-- A number that overflows and one that does not, a string, and the end of their source. -/
theorem listed_literals_overflow :
    let source := "1.0e999 25 \"é\""
    let ts := Command.listed ⟨.json, true, "> ", true⟩ (tokens source) (lastLine source)
    ∃ large small text ending, ts = [large, small, text, ending] ∧
      (large.kind = .number ∧ large.Overflows ∧ large.literalJson = "null") ∧
      (small.kind = .number ∧ ¬ small.Overflows ∧ NumberText small.literalJson.toList) ∧
      (text.kind = .string ∧ StringText "é" text.literalJson.toList) ∧
      (ending.kind = .eof ∧ ending.literalJson = "null") := by
  intro source ts
  have hts : ts =
      [⟨.number, "1.0e999", some (.number ⟨0x7ff0000000000000⟩), 1⟩,
        ⟨.number, "25", some (.number ⟨0x4039000000000000⟩), 1⟩,
        ⟨.string, "\"é\"", some (.text "é"), 1⟩, ⟨.eof, "", none, 1⟩] := by decide +kernel
  have hwritten : ∀ t ∈ ts, t.LiteralWritten := by
    intro t ht
    exact ((listed_literals ⟨.json, true, "> ", true⟩ source .pretty).2 t ht).1
  rw [hts] at hwritten
  simp only [List.forall_mem_cons] at hwritten
  obtain ⟨hlarge, hsmall, htext, hending, -⟩ := hwritten
  refine ⟨_, _, _, _, hts, ⟨rfl, ?_⟩, ⟨rfl, ?_⟩, ⟨rfl, ?_⟩, ⟨rfl, ?_⟩⟩
  · have hover : Token.Overflows ⟨.number, "1.0e999", some (.number ⟨0x7ff0000000000000⟩), 1⟩ := by
      rw [Token.overflows_iff]
      decide +kernel
    exact ⟨hover, hlarge.null.mpr ⟨Kind.noConfusion, fun _ => hover⟩⟩
  · have hover : ¬ Token.Overflows ⟨.number, "25", some (.number ⟨0x4039000000000000⟩), 1⟩ := by
      rw [Token.overflows_iff]
      decide +kernel
    exact ⟨hover, hsmall.number rfl hover⟩
  · obtain ⟨v, hlexeme, hv⟩ := htext.string rfl
    have hcancel : ∀ u w : String, "\"" ++ u ++ "\"" = "\"" ++ w ++ "\"" → u = w := by
      intro u w h
      simpa using h
    have hquoted : "\"é\"" = "\"" ++ "é" ++ "\"" := by decide +kernel
    obtain rfl : "é" = v := hcancel _ _ (hquoted.symm.trans hlexeme)
    exact hv
  · exact hending.null.mpr ⟨Kind.noConfusion, fun h => Kind.noConfusion h⟩

/-- A number may have `null` for its literal. -/
theorem literal_null_of_number :
    ∃ t ∈ tokens "1.0e999", t.kind = .number ∧ t.literalJson = "null" := by
  have htokens : tokens "1.0e999" =
      [⟨.number, "1.0e999", some (.number ⟨0x7ff0000000000000⟩), 1⟩] := by decide +kernel
  rw [htokens]
  exact ⟨_, List.mem_singleton_self _, rfl, by decide +kernel⟩

end LoxLexer
