import LoxLexer.Proofs.Scan.Silence

/-!
# Line ends

Some texts end their lines with a line feed, and some with a carriage return before it. A scan makes no
difference between them. A carriage return between lexemes is a blank like any other, it ends whatever a
line feed ends, a comment takes it up, and in a string it is a character of the string.

* `crlf`: a text with a carriage return before each of its line feeds.
* `Reads.crlf`: what a kept span becomes.
* `keptOf_placedSpans_crlf`: the kept spans of a text are those of the other one, each on the same line.
* `scan_crlf`: the tokens and the diagnostics of both sources.
-/

namespace LoxLexer

/-! ## §1 Texts with carriage returns -/

/-- The text with a carriage return before each of its line feeds, whatever else there is before it. -/
def crlf (cs : List Char) : List Char :=
  cs.flatMap fun c => if c = '\n' then ['\r', '\n'] else [c]

/-- What the first character of a text is then. -/
def lineEnd (c : Char) : Char :=
  if c = '\n' then '\r' else c

theorem crlf_append (as bs : List Char) : crlf (as ++ bs) = crlf as ++ crlf bs :=
  List.flatMap_append

theorem crlf_newline_cons (cs : List Char) : crlf ('\n' :: cs) = '\r' :: '\n' :: crlf cs := rfl

theorem crlf_cons_of_ne {c : Char} (h : c ≠ '\n') (cs : List Char) : crlf (c :: cs) = c :: crlf cs := by
  rw [crlf, List.flatMap_cons, if_neg h, List.singleton_append, ← crlf]

theorem crlf_eq_self {cs : List Char} (h : '\n' ∉ cs) : crlf cs = cs := by
  induction cs with
  | nil => rfl
  | cons c cs ih =>
    obtain ⟨hc, hcs⟩ := List.ne_and_not_mem_of_not_mem_cons h
    rw [crlf_cons_of_ne hc.symm, ih hcs]

theorem head?_crlf (cs : List Char) : (crlf cs).head? = cs.head?.map lineEnd := by
  cases cs with
  | nil => rfl
  | cons c cs =>
    by_cases hc : c = '\n'
    · subst hc
      rfl
    · rw [crlf_cons_of_ne hc, List.head?_cons, List.head?_cons, Option.map_some, lineEnd, if_neg hc]

/-- Nothing but carriage returns comes in. -/
theorem mem_crlf_iff {c : Char} (hc : c ≠ '\r') {cs : List Char} : c ∈ crlf cs ↔ c ∈ cs := by
  induction cs with
  | nil => exact Iff.rfl
  | cons d cs ih =>
    by_cases hd : d = '\n'
    · subst hd
      rw [crlf_newline_cons, List.mem_cons, or_iff_right hc, List.mem_cons, List.mem_cons, ih]
    · rw [crlf_cons_of_ne hd, List.mem_cons, List.mem_cons, ih]

theorem crlf_ne_nil {cs : List Char} (h : cs ≠ []) : crlf cs ≠ [] := by
  intro hnil
  apply h
  have hhead := head?_crlf cs
  rw [hnil, List.head?_nil] at hhead
  exact List.head?_eq_none_iff.mp (Option.map_eq_none_iff.mp hhead.symm)

theorem lineFeeds_crlf (cs : List Char) : lineFeeds (crlf cs) = lineFeeds cs := by
  induction cs with
  | nil => rfl
  | cons c cs ih =>
    by_cases hc : c = '\n'
    · subst hc
      rw [crlf_newline_cons]
      simpa [lineFeeds] using ih
    · rw [crlf_cons_of_ne hc]
      simpa [lineFeeds, hc] using ih

/-- A string with a carriage return before each of its line feeds. -/
def crlfText (s : String) : String :=
  String.ofList (crlf s.toList)

/-! ## §2 What tokens and spans become -/

/-- The literal with such line ends: a number has none. -/
def Literal.crlf : Literal → Literal
  | .text s => .text (crlfText s)
  | .number x => .number x

/-- The token with such line ends, on the same line. -/
def Token.crlf (t : Token) : Token :=
  { t with lexeme := crlfText t.lexeme, literal := t.literal.map Literal.crlf }

/-- The outcome with such line ends. -/
def Outcome.crlf : Outcome → Outcome
  | .token kind literal => .token kind (literal.map Literal.crlf)
  | .fault f => .fault f
  | .skipped => .skipped

/-- The span with such line ends, on the same line. -/
def PlacedSpan.crlf (p : PlacedSpan) : PlacedSpan :=
  ⟨⟨LoxLexer.crlf p.span.text, p.span.outcome.crlf⟩, p.line⟩

theorem tokensOf_crlf (ps : List PlacedSpan) :
    tokensOf (ps.map PlacedSpan.crlf) = (tokensOf ps).map Token.crlf := by
  rw [tokensOf, tokensOf, List.filterMap_map, List.map_filterMap]
  apply List.filterMap_congr
  intro p _
  rcases p with ⟨⟨text, outcome⟩, line⟩
  cases outcome with
  | token kind literal =>
    show some _ = some _
    simp [Token.crlf, PlacedSpan.crlf, crlfText]
  | fault f => rfl
  | skipped => rfl

theorem diagnosticsOf_crlf (ps : List PlacedSpan) :
    diagnosticsOf (ps.map PlacedSpan.crlf) = diagnosticsOf ps := by
  rw [diagnosticsOf, diagnosticsOf, faultsOf, faultsOf, List.filterMap_map]
  congr 1
  apply List.filterMap_congr
  intro p _
  rcases p with ⟨⟨text, outcome⟩, line⟩
  cases outcome <;> rfl

/-! ## §3 Spans -/

theorem crlf_quoted (body : List Char) : crlf ('"' :: (body ++ ['"'])) = '"' :: (crlf body ++ ['"']) := by
  rw [crlf_cons_of_ne (by decide), crlf_append]
  rfl

/-- A lexeme with such line ends: a string has them inside, and any other lexeme stays as it is. -/
theorem Lexeme.exists_crlf (l : Lexeme) :
    ∃ l' : Lexeme, l'.text = crlf l.text ∧ l'.kind = l.kind ∧ l'.literal = l.literal.map Literal.crlf ∧
      ∀ next, l.EndsAt next → l'.EndsAt next := by
  by_cases hkind : l.kind = .string
  · obtain ⟨body, hne, hquote, rfl⟩ := exists_string hkind
    have hquote' : '"' ∉ crlf body := by
      rw [mem_crlf_iff (by decide)]
      exact hquote
    refine ⟨.string (crlf body) (crlf_ne_nil hne) hquote', (crlf_quoted body).symm, rfl, ?_, ?_⟩
    · simp [literal, Literal.crlf, crlfText]
    · exact fun _ _ => trivial
  · have hline : '\n' ∉ l.text := l.not_mem_text_of_isBlank hkind (by decide)
    refine ⟨l, (crlf_eq_self hline).symm, rfl, ?_, fun _ h => h⟩
    cases l with
    | string body => exact absurd rfl hkind
    | _ => rfl

namespace Reads

variable {text : List Char} {o : Outcome} {next : Option Char}

/-- A kept span before a line feed ends before the carriage return that comes in. -/
theorem lineEnd (h : Reads text o next) (ho : o ≠ .skipped) :
    Reads text o (next.map LoxLexer.lineEnd) := by
  cases next with
  | none => exact h
  | some c =>
    rw [Option.map_some, LoxLexer.lineEnd]
    split
    · exact h.of_stops ho (Lexeme.stops_of_isBlank (by decide))
    · exact h

/-- **What a kept span becomes**: one of the same kind with such line ends. -/
theorem crlf (h : Reads text o next) (ho : o ≠ .skipped) :
    Reads (LoxLexer.crlf text) o.crlf next := by
  cases h with
  | silent h => exact absurd rfl ho
  | faulty h =>
    apply Reads.faulty
    cases h with
    | unexpected hc =>
      rw [crlf_eq_self (by simpa using fun hline => absurd (hline ▸ hc.blank) (by decide))]
      exact .unexpected hc
    | emptyString => exact .emptyString
    | @openString body hbody =>
      rw [crlf_cons_of_ne (by decide)]
      apply Faulty.openString
      rw [mem_crlf_iff (by decide)]
      exact hbody
    | loneDigit hd =>
      have hdigit := (NumberLexeme.cons_mem_grammar.mp hd.mem).1
      rw [crlf_eq_self (by simpa using fun hline => absurd (hline ▸ hdigit) (by decide))]
      exact .loneDigit hd
  | lexeme l h =>
    obtain ⟨l', htext, hkind, hliteral, hends⟩ := l.exists_crlf
    rw [← htext, Outcome.crlf, ← hkind, ← hliteral]
    exact .lexeme l' (hends _ h)

end Reads

/-! ## §4 Texts -/

/-- A span that stands for nothing changes nothing of what is kept after it, nor of the lines there. -/
theorem keptOf_placedSpans_crlf_of_silent {text cs : List Char} (h : Silent text cs.head?)
    (line : Nat) :
    keptOf (placedSpans line (crlf (text ++ cs))) =
      keptOf (placedSpans (line + lineFeeds text) (crlf cs)) := by
  cases h with
  | @blank c _ hc =>
    rw [List.singleton_append]
    by_cases hline : c = '\n'
    · subst hline
      -- two blanks now, of which only the second takes the scan on by a line
      rw [crlf_newline_cons, keptOf_placedSpans_blank (by decide), keptOf_placedSpans_blank hc]
      rfl
    · rw [crlf_cons_of_ne hline, keptOf_placedSpans_blank hc]
  | slash hnext =>
    rw [List.singleton_append, crlf_cons_of_ne (by decide), ← List.singleton_append]
    apply keptOf_placedSpans_of_silent
    apply Silent.slash
    rw [head?_crlf]
    intro hhead
    obtain ⟨c, hc, hslash⟩ := Option.map_eq_some_iff.mp hhead
    unfold lineEnd at hslash
    split at hslash
    · exact absurd hslash (by decide)
    · exact hnext (hslash ▸ hc)
  | @comment body _ hbody hnext =>
    have hnone : '\n' ∉ '/' :: '/' :: body := by simpa using hbody
    rw [crlf_append, crlf_eq_self hnone]
    cases cs with
    | nil => exact keptOf_placedSpans_of_silent (.comment hbody (by simp [crlf])) line
    | cons c cs =>
      obtain rfl : c = '\n' := hnext c rfl
      -- the comment takes the carriage return up, which would be a blank without it
      have hcomment : Silent ('/' :: '/' :: (body ++ ['\r'])) ('\n' :: crlf cs).head? :=
        .comment (by simpa using hbody) (by simp)
      have hlines : lineFeeds ('/' :: '/' :: (body ++ ['\r'])) =
          lineFeeds ('/' :: '/' :: body) + lineFeeds ['\r'] := by
        rw [← lineFeeds_append]
        rfl
      have htext : '/' :: '/' :: body ++ '\r' :: '\n' :: crlf cs =
          '/' :: '/' :: (body ++ ['\r']) ++ '\n' :: crlf cs := by simp
      rw [crlf_newline_cons, htext, keptOf_placedSpans_of_silent hcomment, hlines,
        keptOf_placedSpans_blank (c := '\r') (by decide), Nat.add_assoc]

/-- **The kept spans of a text with such line ends** are those of the text, each on the same line. -/
theorem keptOf_placedSpans_crlf {ss : List Span} (h : Chain ss) (line : Nat) :
    keptOf (placedSpans line (crlf (textOf ss))) = (keptOf (place line ss)).map PlacedSpan.crlf := by
  induction h generalizing line with
  | nil =>
    rw [textOf_nil, crlf, List.flatMap_nil, placedSpans, spans]
    rfl
  | @cons s ss hs hss ih =>
    rw [textOf_cons]
    by_cases ho : s.outcome = .skipped
    · have hsilent := hs.outcome_eq_skipped_iff.mp ho
      rw [keptOf_placedSpans_crlf_of_silent hsilent, keptOf_place_skipped ho, ih, ← hs.newLines_eq]
    · have hcrlf := (hs.lineEnd ho).crlf ho
      rw [← head?_crlf] at hcrlf
      have ho' : s.outcome.crlf ≠ .skipped := by
        cases h : s.outcome with
        | skipped => exact absurd h ho
        | _ => exact Outcome.noConfusion
      rw [crlf_append, keptOf_placedSpans_of_reads hcrlf ho', lineFeeds_crlf, keptOf_place_cons ho,
        List.map_cons, ih, ← hs.newLines_eq]
      rfl

/-! ## §5 Scans -/

/-- **A scan makes no difference between line ends.** If a carriage return is put before every line feed
of a source, its tokens are the same with the same lines, kinds and numbers, and with the carriage
returns in their texts and in the values of strings, and its diagnostics are the very same. -/
theorem scan_crlf (source : String) :
    tokens (crlfText source) = (tokens source).map Token.crlf ∧
      diagnostics (crlfText source) = diagnostics source := by
  have hkept := keptOf_placedSpans_crlf (chain_spans source.toList) 1
  rw [textOf_spans, ← placedSpans] at hkept
  have htext : (crlfText source).toList = crlf source.toList := String.toList_ofList
  constructor
  · rw [tokens, htext, ← tokensOf_keptOf, hkept, tokensOf_crlf, tokensOf_keptOf]
    rfl
  · rw [diagnostics, htext, ← diagnosticsOf_keptOf, hkept, diagnosticsOf_crlf, diagnosticsOf_keptOf]
    rfl

/-- A lone digit, a comment and a string over two lines. -/
example : tokens (crlfText "7\n//\n\"a\nb\"") = [⟨.string, "\"a\r\nb\"", some (.text "a\r\nb"), 4⟩] := by
  cbv

end LoxLexer
