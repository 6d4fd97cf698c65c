import LoxLexer.Proofs.Span.Chain
import LoxLexer.Scan

/-!
# A scan loses nothing

The spans of a source lie end to end from its first position to its last, and each of them brings
about one token, or one diagnostic, or neither. What a scan hands out are these tokens and diagnostics
in the order of the spans, so that every character of a source is accounted for once.

* `exists_extract_of_splits`: a text at a position of a source is a slice of it.
* `placedSpans_tile`: spans, slices and outcomes of a whole source.
-/

namespace LoxLexer

/-! ## §1 Slices of a source -/

/-- Where a text stands in a source, a slice that begins there is that text. The end of the slice is a
position of the source as well, so the text is never cut inside a character. -/
theorem exists_extract_of_splits {source t₁ t t₂ : String} {start : source.Pos}
    (h : start.Splits t₁ (t ++ t₂)) :
    ∃ stop : source.Pos, stop.Splits (t₁ ++ t) t₂ ∧ source.extract start stop = t ∧
      (t ≠ "" → start < stop) := by
  have hsource : source = t₁ ++ t ++ t₂ := by rw [h.eq_append, String.append_assoc]
  refine ⟨⟨(t₁ ++ t).rawEndPos, String.Pos.Raw.isValid_iff_exists_append.mpr ⟨_, _, hsource, rfl⟩⟩,
    ⟨hsource, rfl⟩, ?_, fun ht => ?_⟩
  · -- on bytes: past those of `t₁`, the slice takes those of `t`
    apply String.toByteArray_inj.mp
    rw [String.toByteArray_extract, h.offset_eq_rawEndPos]
    calc source.toByteArray.extract t₁.utf8ByteSize (t₁ ++ t).utf8ByteSize
        = (t₁.toByteArray ++ (t.toByteArray ++ t₂.toByteArray)).extract (t₁.toByteArray.size + 0)
            (t₁.toByteArray.size + t.toByteArray.size) := by
          rw [h.eq_append, String.utf8ByteSize_append]
          simp
      _ = (t.toByteArray ++ t₂.toByteArray).extract 0 t.toByteArray.size :=
          ByteArray.extract_append_size_add
      _ = t.toByteArray := ByteArray.extract_append_eq_left rfl
  · have hpos : t.utf8ByteSize ≠ 0 := String.utf8ByteSize_eq_zero_iff.not.mpr ht
    rw [String.Pos.lt_iff, h.offset_eq_rawEndPos, String.Pos.Raw.lt_iff]
    simp only [String.byteIdx_rawEndPos, String.utf8ByteSize_append]
    omega

/-- Stretches of a source, given by where they start and stop, that lie end to end between two
positions. None of them is empty. -/
def Tiles {source : String} (start stop : source.Pos) : List (source.Pos × source.Pos) → Prop
  | [] => start = stop
  | e :: es => e.1 = start ∧ start < e.2 ∧ Tiles e.2 stop es

/-- Texts that spell a source from some position on are slices which tile it from there. -/
theorem exists_tiles {source : String} {texts : List (List Char)} (hne : ∀ t ∈ texts, t ≠ [])
    {t₁ : String} {start : source.Pos} (h : start.Splits t₁ (String.ofList texts.flatten)) :
    ∃ es, Tiles start source.endPos es ∧
      List.Forall₂ (fun e t => source.extract e.1 e.2 = String.ofList t) es texts := by
  induction texts generalizing t₁ start with
  | nil => exact ⟨[], h.eq_endPos_iff.mpr rfl, .nil⟩
  | cons t texts ih =>
    rw [List.flatten_cons, String.ofList_append] at h
    obtain ⟨stop, hstop, hslice, hlt⟩ := exists_extract_of_splits h
    obtain ⟨es, htiles, hslices⟩ := ih (fun u hu => hne u (List.mem_cons_of_mem t hu)) hstop
    have ht : String.ofList t ≠ "" := by
      simpa using hne t List.mem_cons_self
    exact ⟨(start, stop) :: es, ⟨rfl, hlt ht, htiles⟩, .cons hslice hslices⟩

/-! ## §2 What a span brings about -/

/-- The text of placed spans. -/
def placedText (ps : List PlacedSpan) : List Char :=
  textOf (ps.map PlacedSpan.span)

theorem tokensOf_append (ps qs : List PlacedSpan) : tokensOf (ps ++ qs) = tokensOf ps ++ tokensOf qs :=
  List.filterMap_append

theorem diagnosticsOf_append (ps qs : List PlacedSpan) :
    diagnosticsOf (ps ++ qs) = diagnosticsOf ps ++ diagnosticsOf qs := by
  rw [diagnosticsOf, faultsOf, List.filterMap_append, List.map_append]
  rfl

theorem tokensOf_eq_flatMap (ps : List PlacedSpan) : tokensOf ps = ps.flatMap fun p => tokensOf [p] := by
  induction ps with
  | nil => rfl
  | cons p ps ih => rw [List.flatMap_cons, ← ih, ← tokensOf_append, List.singleton_append]

theorem diagnosticsOf_eq_flatMap (ps : List PlacedSpan) :
    diagnosticsOf ps = ps.flatMap fun p => diagnosticsOf [p] := by
  induction ps with
  | nil => rfl
  | cons p ps ih => rw [List.flatMap_cons, ← ih, ← diagnosticsOf_append, List.singleton_append]

/-- The parts of a scan, one span at a time: the span follows the rules before the text that comes
after it, and the scan goes on with that text, from the line of the span. -/
theorem reads_of_placedSpans {line : Nat} {cs : List Char} {before after : List PlacedSpan}
    {p : PlacedSpan} (h : placedSpans line cs = before ++ p :: after) :
    Reads p.span.text p.span.outcome (placedText after).head? ∧
      after = placedSpans p.line (placedText after) := by
  have hspans : spans cs = before.map PlacedSpan.span ++ p.span :: after.map PlacedSpan.span := by
    rw [← map_span_place line (spans cs), ← placedSpans, h, List.map_append, List.map_cons]
  have hchain := chain_spans cs
  rw [hspans] at hchain
  refine ⟨hchain.reads, ?_⟩
  -- what is left of a chain is a chain, and so it is what its own text is cut into
  have hafter : Chain (after.map PlacedSpan.span) := by
    cases hchain.of_append with
    | cons _ hs => exact hs
  rw [placedSpans, placedText, spans_textOf hafter]
  exact eq_place_of_place_eq_append h

/-- A span brings about a token with the text of the span, or a diagnostic, and never both. It brings
about neither exactly if it is a silent one. -/
def HasOneOutcome (p : PlacedSpan) (next : Option Char) : Prop :=
  (∃ t, tokensOf [p] = [t] ∧ t.lexeme = String.ofList p.span.text ∧ diagnosticsOf [p] = [] ∧
      ¬ Silent p.span.text next) ∨
    (∃ d, tokensOf [p] = [] ∧ diagnosticsOf [p] = [d] ∧ ¬ Silent p.span.text next) ∨
    (tokensOf [p] = [] ∧ diagnosticsOf [p] = [] ∧ Silent p.span.text next)

theorem hasOneOutcome_of_reads {p : PlacedSpan} {next : Option Char}
    (h : Reads p.span.text p.span.outcome next) : HasOneOutcome p next := by
  have hsilent := h.outcome_eq_skipped_iff
  rcases p with ⟨⟨text, outcome⟩, line⟩
  cases outcome with
  | token kind literal =>
    exact Or.inl ⟨_, rfl, rfl, rfl, fun hs => Outcome.noConfusion (hsilent.mpr hs)⟩
  | fault f =>
    exact Or.inr (Or.inl ⟨_, rfl, rfl, fun hs => Outcome.noConfusion (hsilent.mpr hs)⟩)
  | skipped => exact Or.inr (Or.inr ⟨rfl, rfl, hsilent.mp rfl⟩)

/-! ## §3 The whole source -/

/-- **The spans of a source tile it**: they are slices that lie end to end from its first position to
its last, none of them empty, so that their texts spell the source. Each has one outcome, which is
nothing exactly for blanks, lone slashes and comments, and the tokens and the diagnostics of the source
are those of its spans, in order. -/
theorem placedSpans_tile (source : String) :
    (∃ es, Tiles source.startPos source.endPos es ∧
      List.Forall₂ (fun e p => source.extract e.1 e.2 = String.ofList p.span.text) es
        (placedSpans 1 source.toList)) ∧
    placedText (placedSpans 1 source.toList) = source.toList ∧
    (∀ before p after, placedSpans 1 source.toList = before ++ p :: after →
      HasOneOutcome p (placedText after).head?) ∧
    tokens source = (placedSpans 1 source.toList).flatMap (fun p => tokensOf [p]) ∧
    diagnostics source = (placedSpans 1 source.toList).flatMap (fun p => diagnosticsOf [p]) := by
  have hspans : (placedSpans 1 source.toList).map PlacedSpan.span = spans source.toList :=
    map_span_place 1 _
  have htext : placedText (placedSpans 1 source.toList) = source.toList := by
    rw [placedText, hspans, textOf_spans]
  refine ⟨?_, htext, ?_, tokensOf_eq_flatMap _, diagnosticsOf_eq_flatMap _⟩
  · -- the texts spell the source from its first position on
    have hstart : source.startPos.Splits ""
        (String.ofList ((spans source.toList).map Span.text).flatten) := by
      rw [flatten_spans, String.ofList_toList]
      exact source.splits_startPos
    obtain ⟨es, htiles, hslices⟩ := exists_tiles (fun t ht => by
      obtain ⟨s, hs, rfl⟩ := List.mem_map.mp ht
      exact text_ne_nil_of_mem_spans hs) hstart
    refine ⟨es, htiles, ?_⟩
    rw [← hspans, List.map_map, List.forall₂_map_right_iff] at hslices
    exact hslices
  · intro before p after h
    exact hasOneOutcome_of_reads (reads_of_placedSpans h).1

end LoxLexer
