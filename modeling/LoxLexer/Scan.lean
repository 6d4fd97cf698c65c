import LoxLexer.Span.Basic

/-!
# Scanning

A scan of a source text gives its tokens and its diagnostics, both in the order of the spans they
come from. Each carries the line that reading has come to at the end of its span, so that a string over
several lines belongs to its last one.

The line is counted on in two places only, at a line feed between lexemes and at the line feeds in a
string. Comments stop short of a line feed, and no other span can hold one.
-/

namespace LoxLexer

/-- A span with the line that its end is on. -/
structure PlacedSpan where
  span : Span
  line : Nat
deriving DecidableEq

/-- The number of line feeds in a text. -/
def lineFeeds (cs : List Char) : Nat :=
  cs.count '\n'

/-- How many lines a span takes reading on: one if it is a line feed, and as many as a string has line
feeds. -/
def Span.newLines (s : Span) : Nat :=
  match s.text with
  | '\n' :: _ => 1
  | '"' :: more => lineFeeds more
  | _ => 0

/-- The spans with their lines, for a text that begins on a given line. -/
def place (line : Nat) : List Span → List PlacedSpan
  | [] => []
  | s :: ss => ⟨s, line + s.newLines⟩ :: place (line + s.newLines) ss

/-- The line that the end of the spans is on. -/
def lineAfter (line : Nat) (ss : List Span) : Nat :=
  ss.foldl (fun n s => n + s.newLines) line

namespace PlacedSpan

/-- The token of a span, if it has one. -/
def token? (p : PlacedSpan) : Option Token :=
  match p.span.outcome with
  | .token kind literal => some ⟨kind, String.ofList p.span.text, literal, p.line⟩
  | _ => none

/-- The fault of a span with its line, if it has one. -/
def fault? (p : PlacedSpan) : Option (Nat × Fault) :=
  match p.span.outcome with
  | .fault f => some (p.line, f)
  | _ => none

end PlacedSpan

/-- The spans of a text that begins on a given line, with their lines. -/
def placedSpans (line : Nat) (cs : List Char) : List PlacedSpan :=
  place line (spans cs)

/-- The tokens of spans, in order. -/
def tokensOf (ps : List PlacedSpan) : List Token :=
  ps.filterMap PlacedSpan.token?

/-- The faults of spans with their lines, in order. -/
def faultsOf (ps : List PlacedSpan) : List (Nat × Fault) :=
  ps.filterMap PlacedSpan.fault?

/-- The diagnostics of spans, in order. -/
def diagnosticsOf (ps : List PlacedSpan) : List Diagnostic :=
  (faultsOf ps).map fun f => Diagnostic.ofFault f.1 f.2

/-- The tokens of a source text. -/
def tokens (source : String) : List Token :=
  tokensOf (placedSpans 1 source.toList)

/-- The diagnostics of a source text. -/
def diagnostics (source : String) : List Diagnostic :=
  diagnosticsOf (placedSpans 1 source.toList)

/-- The line that the end of a source text is on. -/
def lastLine (source : String) : Nat :=
  lineAfter 1 (spans source.toList)

/-! ## Small facts -/

theorem lineFeeds_append (as bs : List Char) :
    lineFeeds (as ++ bs) = lineFeeds as + lineFeeds bs :=
  List.count_append

theorem lineAfter_cons (line : Nat) (s : Span) (ss : List Span) :
    lineAfter line (s :: ss) = lineAfter (line + s.newLines) ss := rfl

theorem map_span_place (line : Nat) (ss : List Span) :
    (place line ss).map PlacedSpan.span = ss := by
  induction ss generalizing line with
  | nil => rfl
  | cons s ss ih => rw [place, List.map_cons, ih]

theorem place_append (line : Nat) (ss ss' : List Span) :
    place line (ss ++ ss') = place line ss ++ place (lineAfter line ss) ss' := by
  induction ss generalizing line with
  | nil => rfl
  | cons s ss ih =>
    rw [List.cons_append, place, ih, place, List.cons_append, lineAfter, lineAfter, List.foldl_cons]

/-- What comes after a placed span is placed from its line on. -/
theorem eq_place_of_place_eq_append {line : Nat} {ss : List Span} {before after : List PlacedSpan}
    {p : PlacedSpan} (h : place line ss = before ++ p :: after) :
    after = place p.line (after.map PlacedSpan.span) := by
  induction before generalizing line ss with
  | nil =>
    cases ss with
    | nil => exact absurd h (List.cons_ne_nil _ _).symm
    | cons s ss =>
      obtain ⟨rfl, rfl⟩ := List.cons.inj h
      rw [map_span_place]
  | cons q before ih =>
    cases ss with
    | nil => exact absurd h (List.cons_ne_nil _ _).symm
    | cons s ss => exact ih (List.cons.inj h).2

end LoxLexer
