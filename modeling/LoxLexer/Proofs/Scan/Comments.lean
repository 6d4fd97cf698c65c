import LoxLexer.Proofs.Scan.Silence

/-!
# Comments are invisible

A comment that is put at the end of a line changes nothing of what a scan hands out, whatever the line
ends with. The last span of the line meets a slash in place of the line feed. If it is kept it ends there
as before. If it is a slash or a comment it may take the new comment up, and stands for nothing as before.
The one thing to be asked for is that the end of the line is not inside a string.

* `exists_spans_newline`: a line feed outside strings is a span of its own.
* `Reads.slash_or_joins`: what the span before a line feed does when a comment is put there.
* `scan_comment`: both sources have the same tokens and the same diagnostics.
-/

namespace LoxLexer

/-! ## §1 Line feeds outside strings -/

/-- The span that the character at a place of the text belongs to. -/
def spanAt : List Span → Nat → Option Span
  | [], _ => none
  | s :: ss, i => if i < s.text.length then some s else spanAt ss (i - s.text.length)

/-- Whether the character at a place of a text is inside a string: its span begins with a quote, whether
that string is closed or not. -/
def inString (cs : List Char) (i : Nat) : Bool :=
  (spanAt (spans cs) i).any fun s => s.text.head? == some '"'

theorem spanAt_append (before ss : List Span) (i : Nat) :
    spanAt (before ++ ss) ((textOf before).length + i) = spanAt ss i := by
  induction before with
  | nil => rw [List.nil_append, textOf_nil, List.length_nil, Nat.zero_add]
  | cons s before ih =>
    rw [List.cons_append, spanAt, textOf_cons, List.length_append, if_neg (by omega), ← ih]
    congr 1
    omega

/-- Every character in the text of spans is in one of them. -/
theorem exists_span_of_textOf_eq {ss : List Span} {as bs : List Char} {c : Char}
    (h : textOf ss = as ++ c :: bs) :
    ∃ before s after u v, ss = before ++ s :: after ∧ as = textOf before ++ u ∧
      s.text = u ++ c :: v ∧ bs = v ++ textOf after := by
  induction ss generalizing as with
  | nil => exact absurd h.symm (List.append_ne_nil_of_right_ne_nil as (List.cons_ne_nil c bs))
  | cons s ss ih =>
    rw [textOf_cons] at h
    rcases List.append_eq_append_iff.mp h with ⟨u, rfl, hrest⟩ | ⟨v, hs, hrest⟩
    · -- the first span ends before the character
      obtain ⟨before, t, after, u', v, rfl, rfl, ht, hv⟩ := ih hrest
      exact ⟨s :: before, t, after, u', v, rfl, by rw [textOf_cons, List.append_assoc], ht, hv⟩
    · cases v with
      | nil =>
        -- it ends just before the character, which then begins one of the others
        have hnext : textOf ss = [] ++ c :: bs := hrest.symm
        obtain ⟨before, t, after, u', v, rfl, hu, ht, hv⟩ := ih hnext
        refine ⟨s :: before, t, after, u', v, rfl, ?_, ht, hv⟩
        rw [textOf_cons, List.append_assoc, ← hu, hs, List.append_nil, List.append_nil]
      | cons d v =>
        obtain ⟨rfl, rfl⟩ := List.cons.inj hrest
        exact ⟨[], s, ss, as, v, rfl, rfl, hs, rfl⟩

/-- A line feed outside strings is a span of its own, and what follows it is cut as if it were the
beginning of the text. -/
theorem exists_spans_newline {as bs : List Char}
    (h : inString (as ++ '\n' :: bs) as.length = false) :
    ∃ before, textOf before = as ∧
      spans (as ++ '\n' :: bs) = before ++ ⟨['\n'], .skipped⟩ :: spans bs := by
  obtain ⟨before, ⟨text, o⟩, after, u, v, hspans, rfl, hs, rfl⟩ :=
    exists_span_of_textOf_eq (textOf_spans (as ++ '\n' :: bs))
  obtain rfl : text = u ++ '\n' :: v := hs
  have hchain := chain_spans (textOf before ++ u ++ '\n' :: (v ++ textOf after))
  rw [hspans] at hchain
  have hreads : Reads (u ++ '\n' :: v) o (textOf after).head? := hchain.reads
  -- the span with the line feed does not begin with a quote, and so it begins with the line feed
  have hquote : (u ++ '\n' :: v).head? ≠ some '"' := by
    rw [inString, hspans, List.length_append, spanAt_append, spanAt, if_pos (by simp)] at h
    simpa using h
  have hline : (u ++ '\n' :: v).head? = some '\n' := by
    by_contra hline
    exact hreads.newline_not_mem hline hquote (List.mem_append_right u List.mem_cons_self)
  obtain ⟨more, hmore⟩ := List.head?_eq_some_iff.mp hline
  rw [hmore] at hreads
  rw [hreads.eq_nil_of_newline] at hmore hreads
  obtain ⟨rfl, rfl⟩ : u = [] ∧ v = [] := by simpa [List.append_eq_cons_iff] using hmore
  obtain rfl : o = .skipped := hreads.outcome_unique (.silent (.blank (by decide)))
  refine ⟨before, (List.append_nil _).symm, ?_⟩
  rw [hspans]
  -- the spans after it are what their own text is cut into
  cases hchain.of_append with
  | cons _ hafter =>
    rw [List.nil_append, List.nil_append, spans_textOf hafter]

/-! ## §2 The end of a line with a comment -/

/-- The span before a line feed, when a comment comes between them. Either the span ends before the
comment as well, or it is a slash or a comment and joins it. -/
theorem Reads.slash_or_joins {text comment : List Char} {o : Outcome}
    (h : Reads text o (some '\n')) (hc : '\n' ∉ comment) :
    Reads text o (some '/') ∨
      o = .skipped ∧ Silent (text ++ '/' :: '/' :: comment) (some '\n') := by
  have hnext : ∀ c ∈ some '\n', c = '\n' := fun c hc => (Option.some.inj hc).symm
  by_cases ho : o = .skipped
  · subst ho
    cases h with
    | silent h =>
      cases h with
      | blank hblank => exact .inl (.silent (.blank hblank))
      | slash _ =>
        -- the slash and the first one of the comment begin a comment together
        refine .inr ⟨rfl, ?_⟩
        apply Silent.comment _ hnext
        simpa using hc
      | @comment body _ hbody _ =>
        refine .inr ⟨rfl, ?_⟩
        apply Silent.comment _ hnext
        simpa using ⟨hbody, hc⟩
  · exact .inl (h.of_stops ho Lexeme.stops_slash)

/-- **The spans of a line with a comment at its end**: those of the line, of which the last one may have
joined the comment, and which are kept as they were. -/
theorem exists_spans_comment {before after : List Span} {comment : List Char}
    (h : Chain (before ++ ⟨['\n'], .skipped⟩ :: after)) (hc : '\n' ∉ comment) :
    ∃ before', textOf before' = textOf before ++ '/' :: '/' :: comment ∧
      Chain (before' ++ ⟨['\n'], .skipped⟩ :: after) ∧
      ∀ line, keptOf (place line before') = keptOf (place line before) := by
  have hnext : ∀ c ∈ some '\n', c = '\n' := fun c hc => (Option.some.inj hc).symm
  have hline : Chain (⟨['\n'], .skipped⟩ :: after) := h.of_append
  have hcomment : Chain (⟨'/' :: '/' :: comment, .skipped⟩ :: ⟨['\n'], .skipped⟩ :: after) :=
    .cons (.silent (.comment hc hnext)) hline
  rcases List.eq_nil_or_concat before with rfl | ⟨init, last, rfl⟩
  · refine ⟨[⟨'/' :: '/' :: comment, .skipped⟩], ?_, hcomment, ?_⟩
    · simp
    · intro line
      exact keptOf_place_singleton rfl
  · rw [List.concat_eq_append, List.append_assoc, List.singleton_append] at h
    have hreads : Reads last.text last.outcome (some '\n') := h.reads
    obtain ⟨c, more, htext⟩ := List.exists_cons_of_ne_nil hreads.text_ne_nil
    rw [List.concat_eq_append]
    -- only the last span can look at what has changed, and the spans before it look at its beginning
    rcases hreads.slash_or_joins hc with hstays | ⟨hskipped, hjoins⟩
    · refine ⟨init ++ [last, ⟨'/' :: '/' :: comment, .skipped⟩], ?_, ?_, ?_⟩
      · simp
      · rw [List.append_assoc]
        apply h.replace_tail
        · simp [htext]
        · exact .cons hstays hcomment
      · intro line
        rw [List.append_cons, keptOf_place_append, keptOf_place_singleton rfl, List.append_nil]
    · refine ⟨init ++ [⟨last.text ++ '/' :: '/' :: comment, .skipped⟩], ?_, ?_, ?_⟩
      · simp
      · rw [List.append_assoc]
        apply h.replace_tail
        · simp [htext]
        · exact .cons (.silent hjoins) hline
      · intro line
        rw [keptOf_place_append, keptOf_place_append, keptOf_place_singleton rfl,
          keptOf_place_singleton hskipped]

/-! ## §3 Scans -/

/-- **Line comments are invisible.** A comment may be put before any line feed that is not inside a
string, whatever the comment says and whatever comes before it: the tokens and the diagnostics of the
source stay as they are, with their lines. -/
theorem scan_comment (a b comment : String) (hc : '\n' ∉ comment.toList)
    (ha : inString (a ++ "\n" ++ b).toList a.length = false) :
    tokens (a ++ "//" ++ comment ++ "\n" ++ b) = tokens (a ++ "\n" ++ b) ∧
      diagnostics (a ++ "//" ++ comment ++ "\n" ++ b) = diagnostics (a ++ "\n" ++ b) := by
  have hline : (a ++ "\n" ++ b).toList = a.toList ++ '\n' :: b.toList := by simp
  have hwith : (a ++ "//" ++ comment ++ "\n" ++ b).toList =
      a.toList ++ '/' :: '/' :: comment.toList ++ '\n' :: b.toList := by simp
  rw [hline, ← String.length_toList] at ha
  obtain ⟨before, htext, hspans⟩ := exists_spans_newline ha
  have hchain := chain_spans (a.toList ++ '\n' :: b.toList)
  rw [hspans] at hchain
  obtain ⟨before', htext', hchain', hkept⟩ := exists_spans_comment hchain hc
  have hspans' : spans (a.toList ++ '/' :: '/' :: comment.toList ++ '\n' :: b.toList) =
      before' ++ ⟨['\n'], .skipped⟩ :: spans b.toList := by
    rw [spans_eq_iff]
    refine ⟨hchain', ?_⟩
    rw [textOf_append, htext', textOf_cons, textOf_spans, htext, List.singleton_append]
  -- the comment has no line feed of its own, and so the lines after it stay as they were
  have hlines : lineAfter 1 before' = lineAfter 1 before := by
    have hzero : lineFeeds ('/' :: '/' :: comment.toList) = 0 :=
      List.count_eq_zero.mpr (by simpa using hc)
    rw [lineAfter_of_spans_eq hspans', lineAfter_of_spans_eq hspans, htext', lineFeeds_append, hzero,
      Nat.add_zero]
  apply scan_eq_of_keptOf_eq
  rw [placedSpans, placedSpans, hline, hwith, hspans, hspans', keptOf_place_append,
    keptOf_place_append, hkept, hlines]

/-- A comment after a digit and a slash, which joins the slash and opens no string. -/
theorem scan_comment_after_slash :
    '\n' ∉ "\"8".toList ∧ inString ("7/" ++ "\n" ++ "\"x\"").toList "7/".length = false ∧
      tokens "7///\"8\n\"x\"" = [⟨.string, "\"x\"", some (.text "x"), 2⟩] ∧
      diagnostics "7///\"8\n\"x\"" = [⟨none, some 1, 1003, "invalid number format"⟩] := by
  have hc : '\n' ∉ "\"8".toList := by decide
  have ha : inString ("7/" ++ "\n" ++ "\"x\"").toList "7/".length = false := by cbv
  obtain ⟨htokens, hdiag⟩ := scan_comment "7/" "\"x\"" "\"8" hc ha
  exact ⟨hc, ha, htokens.trans (by cbv), hdiag.trans (by decide +kernel)⟩

end LoxLexer
