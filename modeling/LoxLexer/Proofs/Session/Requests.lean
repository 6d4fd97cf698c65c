import LoxLexer.Listening
import LoxLexer.Proofs.Scan.Lines

/-!
# Sessions lose nothing

A session can be asked for anything in any order and as often as one likes. Whatever the order, the
tokens of the source are handed out once, in full and by the first scan, and its diagnostics are taken
once or are still pending at the end. A reporter hears of all faults during the first scan, and of
nothing else.

Two facts carry this. What has been taken and what is pending only ever grows by what a scan finds, and
a scan leaves nothing unread, so that another one finds nothing.

## Main Results

* `answersWith_eq_map`: with a reporter, requests have the answers that they have without one.
* `handedOut_answers`, `taken_append_pending`: what requests get, from any session on.
* `answersWith_lossless`: all of this from the start of a source.
-/

namespace LoxLexer

variable {α β : Type}

/-! ## §1 Reporters stay out of it -/

theorem reportsOf_append (ps qs : List PlacedSpan) :
    reportsOf (ps ++ qs) = reportsOf ps ++ reportsOf qs := by
  simp [reportsOf, faultsOf]

/-- A span adds to a scan's findings what it would give on its own. -/
theorem Findings.add_eq (reporter : Option (Bus α)) (f : Findings α) (p : PlacedSpan) :
    f.add reporter p =
      ⟨f.tokens ++ tokensOf [p], f.diagnostics ++ diagnosticsOf [p],
        f.deliveries ++ (reportsOf [p]).flatMap (notify reporter)⟩ := by
  rcases p with ⟨⟨text, outcome⟩, line⟩
  cases outcome with
  | token kind literal =>
    show _ = Findings.mk (f.tokens ++ [⟨kind, String.ofList text, literal, line⟩])
      (f.diagnostics ++ []) (f.deliveries ++ [])
    rw [List.append_nil, List.append_nil]
    rfl
  | fault fault =>
    -- the report and the diagnostic have one wording
    show _ = Findings.mk (f.tokens ++ []) (f.diagnostics ++ [Diagnostic.ofFault line fault])
      (f.deliveries ++ (notify reporter ⟨line, (Diagnostic.ofFault line fault).message⟩ ++ []))
    rw [List.append_nil, List.append_nil]
    rfl
  | skipped =>
    show _ = Findings.mk (f.tokens ++ []) (f.diagnostics ++ []) (f.deliveries ++ [])
    rw [List.append_nil, List.append_nil, List.append_nil]
    rfl

theorem foldl_add (reporter : Option (Bus α)) (ps : List PlacedSpan) (f : Findings α) :
    ps.foldl (Findings.add reporter) f =
      ⟨f.tokens ++ tokensOf ps, f.diagnostics ++ diagnosticsOf ps,
        f.deliveries ++ (reportsOf ps).flatMap (notify reporter)⟩ := by
  induction ps generalizing f with
  | nil =>
    show f = Findings.mk (f.tokens ++ []) (f.diagnostics ++ []) (f.deliveries ++ [])
    simp
  | cons p ps ih =>
    rw [List.foldl_cons, ih, Findings.add_eq, ← List.singleton_append (l := ps), tokensOf_append,
      diagnosticsOf_append, reportsOf_append]
    simp

namespace Session

/-- **A reporter stays out of a scan**: it hears the reports, and all else is as without it. -/
theorem scanWith_eq (reporter : Option (Bus α)) (s : Session) :
    s.scanWith reporter =
      (s.scan.1.tokens, s.scan.1.reports.flatMap (notify reporter), s.scan.2) := by
  rw [scanWith, foldl_add]
  rfl

theorem answerWith_eq (reporter : Option (Bus α)) (s : Session) (r : Request) :
    s.answerWith reporter r =
      ((s.answer r).1, (s.answer r).2.1.flatMap (notify reporter), (s.answer r).2.2) := by
  cases r with
  | scan => rw [answerWith, scanWith_eq]; rfl
  | look => rfl
  | take => rfl
  | state => rfl

/-- **A reporter stays out of a session.** -/
theorem answersWith_eq_map (reporter : Option (Bus α)) (s : Session) (rs : List Request) :
    s.answersWith reporter rs =
      (s.answers rs).map fun a => (a.1, a.2.1.flatMap (notify reporter), a.2.2) := by
  induction rs generalizing s with
  | nil => rfl
  | cons r rs ih => rw [answersWith, ih, answerWith_eq, answers, List.map_cons]

/-! ## §2 What requests get -/

/-- The tokens that answers hand out. -/
def handedOut (as : List (Answer × β × Session)) : List Token :=
  as.flatMap fun a =>
    match a.1 with
    | .tokens ts => ts
    | _ => []

/-- The diagnostics that are taken, which are those in the answers to requests that take them. -/
def taken (rs : List Request) (as : List (Answer × β × Session)) : List Diagnostic :=
  (rs.zip as).flatMap fun p =>
    match p.1, p.2.1 with
    | .take, .diagnostics ds => ds
    | _, _ => []

/-- The session that answers end with, if it began as `s`. -/
def final (s : Session) (as : List (Answer × β × Session)) : Session :=
  (as.getLast?.map fun a => a.2.2).getD s

theorem final_cons (s : Session) (a : Answer × β × Session) (as : List (Answer × β × Session)) :
    final s (a :: as) = final a.2.2 as := by
  cases as with
  | nil => rfl
  | cons b as =>
    have hlast : (b :: as).getLast? = some ((b :: as).getLast (List.cons_ne_nil b as)) :=
      List.getLast?_eq_some_getLast _
    simp [final, List.getLast?_cons_cons, hlast]

/-- A request that does not scan leaves the source as it is. -/
theorem unread_answer {s : Session} {r : Request} (h : r ≠ .scan) :
    (s.answer r).2.2.unread = s.unread ∧ (s.answer r).2.2.line = s.line := by
  cases r with
  | scan => exact absurd rfl h
  | look => exact ⟨rfl, rfl⟩
  | take => exact ⟨rfl, rfl⟩
  | state => exact ⟨rfl, rfl⟩

/-- What a scan finds depends on the source alone, and not on what is pending. -/
theorem scan_eq_of_unread_eq {s t : Session} (hunread : s.unread = t.unread)
    (hline : s.line = t.line) : s.scan.1 = t.scan.1 := by
  rw [scan, scan, hunread, hline]

/-- **Tokens are handed out once**, by the first scan. -/
theorem handedOut_answers (s : Session) (rs : List Request) :
    handedOut (s.answers rs) = if .scan ∈ rs then s.scan.1.tokens else [] := by
  induction rs generalizing s with
  | nil => rfl
  | cons r rs ih =>
    have hcons : handedOut (s.answers (r :: rs)) =
        handedOut [s.answer r] ++ handedOut ((s.answer r).2.2.answers rs) := by
      simp [answers, handedOut]
    rw [hcons, ih]
    by_cases hr : r = .scan
    · subst hr
      -- after a scan no other finds a token
      have hagain : (s.answer .scan).2.2.scan.1.tokens = [] := by
        show s.scan.2.scan.1.tokens = []
        rw [scan_scan]
      rw [hagain, ite_self, List.append_nil, if_pos List.mem_cons_self]
      exact List.append_nil _
    · obtain ⟨hunread, hline⟩ := unread_answer (s := s) hr
      have hnone : handedOut [s.answer r] = [] := by
        cases r with
        | scan => exact absurd rfl hr
        | _ => rfl
      rw [hnone, scan_eq_of_unread_eq hunread hline, List.nil_append]
      simp [Ne.symm hr]

/-- **Diagnostics are taken once or stay pending**: what is taken, and what is pending at the end, are
what was pending before and what the first scan finds. -/
theorem taken_append_pending (s : Session) (rs : List Request) :
    taken rs (s.answers rs) ++ (final s (s.answers rs)).pending =
      s.pending ++ if .scan ∈ rs then diagnosticsOf (placedSpans s.line s.unread) else [] := by
  induction rs generalizing s with
  | nil => simp [taken, answers, final]
  | cons r rs ih =>
    have hcons : taken (r :: rs) (s.answers (r :: rs)) =
        taken [r] [s.answer r] ++ taken rs ((s.answer r).2.2.answers rs) := by
      simp [answers, taken]
    rw [hcons, answers, final_cons, List.append_assoc, ih]
    cases r with
    | scan =>
      -- all that was unread has been read, and its diagnostics are pending now
      show [] ++ ((s.pending ++ diagnosticsOf (placedSpans s.line s.unread)) ++
        if .scan ∈ rs then diagnosticsOf (placedSpans s.scan.2.line []) else []) = _
      have hnone : diagnosticsOf (placedSpans s.scan.2.line []) = [] := by
        rw [placedSpans, spans]
        rfl
      rw [hnone, ite_self, List.append_nil, List.nil_append, if_pos List.mem_cons_self]
    | look => simp [taken, answer]
    | take => simp [taken, answer, take]
    | state => simp [taken, answer]

/-- Where a session has come to. -/
theorem unread_final (s : Session) (rs : List Request) :
    (final s (s.answers rs)).unread = (if .scan ∈ rs then [] else s.unread) ∧
      (final s (s.answers rs)).line =
        if .scan ∈ rs then lineAfter s.line (spans s.unread) else s.line := by
  induction rs generalizing s with
  | nil => exact ⟨rfl, rfl⟩
  | cons r rs ih =>
    rw [answers, final_cons]
    obtain ⟨hunread, hline⟩ := ih (s.answer r).2.2
    by_cases hr : r = .scan
    · subst hr
      have hend : lineAfter (s.answer .scan).2.2.line (spans (s.answer .scan).2.2.unread) =
          lineAfter s.line (spans s.unread) := by
        show lineAfter (lineAfter s.line (spans s.unread)) (spans []) = _
        rw [spans]
        rfl
      rw [hunread, hline, hend]
      simp [answer, scan]
    · obtain ⟨hsame, hsame'⟩ := unread_answer (s := s) hr
      rw [hunread, hline, hsame, hsame']
      simp [Ne.symm hr]

/-! ## §3 One request among others -/

/-- Each request is answered by the session that the requests before it have left. -/
theorem getElem?_answers (s : Session) (before : List Request) (r : Request) (rest : List Request) :
    (s.answers (before ++ r :: rest))[before.length]? =
      some ((final s (s.answers before)).answer r) := by
  induction before generalizing s with
  | nil => rfl
  | cons b before ih =>
    rw [List.cons_append, answers, answers, final_cons, List.length_cons, List.getElem?_cons_succ, ih]

theorem length_answers (s : Session) (rs : List Request) : (s.answers rs).length = rs.length := by
  induction rs generalizing s with
  | nil => rfl
  | cons r rs ih => rw [answers, List.length_cons, List.length_cons, ih]

theorem final_append_singleton (s : Session) (before : List Request) (r : Request) :
    final s (s.answers (before ++ [r])) = ((final s (s.answers before)).answer r).2.2 := by
  have hlast : (s.answers (before ++ [r])).getLast? = some ((final s (s.answers before)).answer r) := by
    rw [List.getLast?_eq_getElem?, length_answers, List.length_append, List.length_singleton,
      Nat.add_sub_cancel, getElem?_answers]
  rw [final, hlast]
  rfl

/-- **Reports are made once**, by the first scan. -/
theorem reports_answer (s : Session) (before : List Request) (r : Request) :
    ((final s (s.answers before)).answer r).2.1 =
      if r = .scan ∧ .scan ∉ before then s.scan.1.reports else [] := by
  obtain ⟨hunread, hline⟩ := unread_final s before
  cases r with
  | scan =>
    show (final s (s.answers before)).scan.1.reports = _
    by_cases hscan : .scan ∈ before
    · -- nothing is left unread by the scan before
      rw [if_pos hscan] at hunread
      rw [scan_of_atEnd hunread, if_neg fun h => h.2 hscan]
    · rw [if_neg hscan] at hunread hline
      rw [scan_eq_of_unread_eq hunread hline, if_pos ⟨rfl, hscan⟩]
  | look => rfl
  | take => rfl
  | state => rfl

theorem atEnd_start_iff {source : String} : (start source).atEnd = true ↔ source = "" := by
  rw [atEnd, List.isEmpty_iff]
  show source.toList = [] ↔ source = ""
  exact String.toList_eq_nil_iff

/-! ## §4 Whole sessions -/

section Map

variable {γ : Type} (f : β → γ) (as : List (Answer × β × Session))

/-! What is told meanwhile makes no difference to what requests get. -/

theorem handedOut_map : handedOut (as.map fun a => (a.1, f a.2.1, a.2.2)) = handedOut as := by
  rw [handedOut, List.flatMap_map]
  rfl

theorem taken_map (rs : List Request) :
    taken rs (as.map fun a => (a.1, f a.2.1, a.2.2)) = taken rs as := by
  rw [taken, List.zip_map_right, List.flatMap_map]
  rfl

theorem final_map (s : Session) : final s (as.map fun a => (a.1, f a.2.1, a.2.2)) = final s as := by
  rw [final, List.getLast?_map, Option.map_map]
  rfl

end Map

/-- **No loss and no duplication over any use of a session**, with any number of listeners or without
a reporter. The tokens that are handed out are those of the source, once, if there is a scan at all. So
are the diagnostics that are taken, with those that are still pending at the end. Each request has its
answer. Listeners are told of all faults during the first scan, and of nothing at any other time. Up to
that scan the line is 1, and the end is reached only if the source is empty. From then on the line is
the last one of the source, and the end is reached. -/
theorem answersWith_lossless (reporter : Option (Bus α)) (source : String) (rs : List Request) :
    handedOut ((start source).answersWith reporter rs) =
      (if .scan ∈ rs then tokens source else []) ∧
    taken rs ((start source).answersWith reporter rs) ++
        (final (start source) ((start source).answersWith reporter rs)).pending =
      (if .scan ∈ rs then diagnostics source else []) ∧
    ((start source).answersWith reporter rs).length = rs.length ∧
    ((start source).line = 1 ∧ ((start source).atEnd = true ↔ source = "")) ∧
    ∀ before r rest, rs = before ++ r :: rest → ∃ answer deliveries next,
      ((start source).answersWith reporter rs)[before.length]? = some (answer, deliveries, next) ∧
      deliveries = (if r = .scan ∧ .scan ∉ before then (reports source).flatMap (notify reporter)
        else []) ∧
      next.line = (if .scan ∈ before ++ [r] then 1 + lineFeeds source.toList else 1) ∧
      (next.atEnd = true ↔ .scan ∈ before ++ [r] ∨ source = "") := by
  rw [answersWith_eq_map, handedOut_map, taken_map, final_map, List.length_map]
  refine ⟨handedOut_answers _ rs, taken_append_pending _ rs, length_answers _ rs,
    ⟨rfl, atEnd_start_iff⟩, ?_⟩
  rintro before r rest rfl
  obtain ⟨hunread, hline⟩ := unread_final (start source) (before ++ [r])
  have hanswer := getElem?_answers (start source) before r rest
  rw [final_append_singleton] at hunread hline
  refine ⟨_, _, _, by rw [List.getElem?_map, hanswer, Option.map_some], ?_, ?_, ?_⟩
  · rw [reports_answer, apply_ite (List.flatMap (notify reporter))]
    rfl
  · rw [hline, ← lastLine_eq]
    rfl
  · rw [atEnd, hunread, List.isEmpty_iff]
    by_cases hscan : .scan ∈ before ++ [r]
    · simp [hscan]
    · rw [if_neg hscan, ← atEnd_start_iff, atEnd, List.isEmpty_iff]
      simp [hscan]

/-- Both listeners hear of the wrong character during the first of two scans, and the second is
silent. -/
theorem answersWith_lossless_two_scans :
    let as := (start "# x").answersWith (some ⟨["a", "b"]⟩) [.look, .scan, .take, .scan, .take]
    handedOut as = tokens "# x" ∧
      (∃ answer next, as[1]? = some (answer, [("a", .ofFault 1 (.unexpectedCharacter '#')),
        ("b", .ofFault 1 (.unexpectedCharacter '#'))], next)) ∧
      ∃ answer next, as[3]? = some (answer, [], next) ∧ next.line = 1 ∧ next.atEnd = true := by
  have hspans : placedSpans 1 "# x".toList =
      [⟨⟨['#'], .fault (.unexpectedCharacter '#')⟩, 1⟩, ⟨⟨[' '], .skipped⟩, 1⟩,
        ⟨⟨['x'], .token .identifier none⟩, 1⟩] := by cbv
  have hlines : 1 + lineFeeds "# x".toList = 1 := by decide
  obtain ⟨htokens, -, -, -, hrequests⟩ := answersWith_lossless (some ⟨["a", "b"]⟩) "# x"
    [.look, .scan, .take, .scan, .take]
  obtain ⟨answer, _, next, hfirst, rfl, -⟩ := hrequests [.look] .scan [.take, .scan, .take] rfl
  obtain ⟨answer', _, next', hsecond, rfl, hline, hend⟩ :=
    hrequests [.look, .scan, .take] .scan [.take] rfl
  rw [reports, hspans] at hfirst
  rw [hlines] at hline
  exact ⟨htokens, ⟨answer, next, hfirst⟩, answer', next', hsecond, hline, hend.mpr (.inl (by decide))⟩

end Session

end LoxLexer
