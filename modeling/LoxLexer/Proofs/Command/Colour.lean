import LoxLexer.Proofs.Command.Exit
import LoxLexer.Proofs.Command.Flags

/-!
# Colours make no difference but for their codes

Whether standard error is a terminal, and whether colours are wanted on it, shows in the codes of the
colours and nowhere else. With the codes taken out, what is written is the same, whatever characters
there are in the texts that are written between them, parts of codes included: a code never lies half in
such a text and half in what surrounds it.

* `erase`: a text without the codes.
* `Styled.Tidy`: why no code comes about by what is put together, and `tidy_ofDiagnostic` and the like.
* `Script.uncoloured`: a script with no say about colours, from which all that is seen follows.
* `run_colours`: calls that differ in colours.
-/

namespace LoxLexer.Command

/-! ## §1 Texts without codes -/

/-- A text without the four codes of styles, each of them taken out wherever it occurs. -/
def erase : List Char → List Char
  | '\x1b' :: '[' :: '3' :: '1' :: 'm' :: cs => erase cs
  | '\x1b' :: '[' :: '3' :: '6' :: 'm' :: cs => erase cs
  | '\x1b' :: '[' :: '1' :: 'm' :: cs => erase cs
  | '\x1b' :: '[' :: '0' :: 'm' :: cs => erase cs
  | c :: cs => c :: erase cs
  | [] => []

theorem erase_code (style : Style) (t : List Char) : erase (style.code.toList ++ t) = erase t := by
  cases style <;> rfl

theorem erase_endOfStyles (t : List Char) : erase (endOfStyles.toList ++ t) = erase t := rfl

theorem erase_cons {c : Char} (h : c ≠ '\x1b') (t : List Char) : erase (c :: t) = c :: erase t := by
  rw [erase]
  all_goals
    rintro _ rfl
    exact absurd rfl h

theorem erase_append_of_not_mem {t : List Char} (h : '\x1b' ∉ t) (u : List Char) :
    erase (t ++ u) = t ++ erase u := by
  induction t with
  | nil => rfl
  | cons c t ih =>
    rw [List.mem_cons, not_or] at h
    rw [List.cons_append, erase_cons (Ne.symm h.1), ih h.2, List.cons_append]

/-- The characters that a code goes on with. -/
def GoesOn (c : Char) : Prop :=
  c ∈ ['[', '0', '1', '3', '6', 'm']

instance (c : Char) : Decidable (GoesOn c) :=
  inferInstanceAs (Decidable (c ∈ ['[', '0', '1', '3', '6', 'm']))

theorem exists_eq_append_of_append_eq {t u k rest : List Char} (h : t ++ u = k ++ rest)
    (hk : ∀ c ∈ k, GoesOn c) (hu : ∀ c ∈ u.head?, ¬ GoesOn c) : ∃ more, t = k ++ more := by
  rcases List.append_eq_append_iff.mp h with ⟨v, rfl, rfl⟩ | ⟨v, rfl, -⟩
  · cases v with
    | nil => exact ⟨[], by simp⟩
    | cons c v => exact absurd (hk c (by simp)) (hu c rfl)
  · exact ⟨v, rfl⟩

/-- **No code lies across the place where two texts meet**, if the second begins with no character that
a code goes on with. -/
theorem erase_append {t u : List Char} (h : ∀ c ∈ u.head?, ¬ GoesOn c) :
    erase (t ++ u) = erase t ++ erase u := by
  fun_induction erase t with
  | case1 t ih => exact ih
  | case2 t ih => exact ih
  | case3 t ih => exact ih
  | case4 t ih => exact ih
  | case5 c t hred hcyan hbold hend ih =>
    -- a code that begins here would have to end within the first text
    have hwhole : ∀ k rest, (∀ d ∈ k, GoesOn d) → t ++ u = k ++ rest → ∃ more, t = k ++ more :=
      fun k rest hk heq => exists_eq_append_of_append_eq heq hk h
    rw [List.cons_append, List.cons_append, ← ih, erase]
    · intro rest hc heq
      obtain ⟨more, ht⟩ := hwhole ['[', '3', '1', 'm'] rest (by simp [GoesOn]) heq
      exact hred more hc ht
    · intro rest hc heq
      obtain ⟨more, ht⟩ := hwhole ['[', '3', '6', 'm'] rest (by simp [GoesOn]) heq
      exact hcyan more hc ht
    · intro rest hc heq
      obtain ⟨more, ht⟩ := hwhole ['[', '1', 'm'] rest (by simp [GoesOn]) heq
      exact hbold more hc ht
    · intro rest hc heq
      obtain ⟨more, ht⟩ := hwhole ['[', '0', 'm'] rest (by simp [GoesOn]) heq
      exact hend more hc ht
  | case6 => rfl

theorem erase_append_cons {c : Char} (h : ¬ GoesOn c) (t u : List Char) :
    erase (t ++ c :: u) = erase t ++ erase (c :: u) := by
  apply erase_append
  intro d hd
  obtain rfl : c = d := Option.some.inj hd
  exact h

/-! ## §2 Styled texts -/

/-- A piece as it is written, with or without colours. -/
def Piece.render (colour : Bool) (p : Piece) : String :=
  if colour then p.coded else p.text

theorem Piece.erase_render (p : Piece) (colour : Bool) {c : Char} (h : ¬ GoesOn c) (t : List Char) :
    erase ((p.render colour).toList ++ c :: t) = erase p.text.toList ++ erase (c :: t) := by
  have hcodes : ∀ (styles : List Style) (u : List Char),
      erase ((String.join (styles.map Style.code)).toList ++ u) = erase u := by
    intro styles u
    induction styles with
    | nil => rfl
    | cons style styles ih =>
      rw [List.map_cons, String.join_cons, String.toList_append, List.append_assoc, erase_code, ih]
  rw [render, coded]
  split
  · split
    · exact erase_append_cons h _ _
    · -- the code at the end of the styles begins with no character that a code goes on with
      have hend : endOfStyles.toList ++ c :: t = '\x1b' :: (['[', '0', 'm'] ++ c :: t) := rfl
      rw [String.toList_append, String.toList_append, List.append_assoc, List.append_assoc, hcodes, hend,
        erase_append_cons (by decide), ← hend, erase_endOfStyles]
  · exact erase_append_cons h _ _

namespace Styled

/-- **Texts in which no code comes about by what is put together.** A text with codes around it is
followed by one without, which begins with no character that a code goes on with; a text without codes
has no character that begins one; and the last text is the end of a line. -/
inductive Tidy : Styled → Prop where
  | last (text : String) : Tidy [.bare (text ++ "\n")]
  | bare {text : String} {s : Styled} (h : '\x1b' ∉ text.toList) (hs : Tidy s) : Tidy (.bare text :: s)
  | styled {p : Piece} {next : String} {s : Styled} {c : Char} {more : List Char}
      (hnext : next.toList = c :: more) (hc : ¬ GoesOn c) (hs : Tidy (.bare next :: s)) :
      Tidy (p :: .bare next :: s)

theorem render_cons (colour : Bool) (p : Piece) (s : Styled) :
    render colour (p :: s) = p.render colour ++ render colour s := by
  cases colour with
  | true => exact String.join_cons
  | false => exact String.join_cons

theorem render_bare (colour : Bool) (text : String) : (Piece.bare text).render colour = text := by
  cases colour <;> rfl

theorem Tidy.exists_erase {s : Styled} (h : s.Tidy) :
    ∃ u, ∀ colour t, erase ((s.render colour).toList ++ t) = u ++ erase t := by
  induction h with
  | last text =>
    refine ⟨erase text.toList ++ ['\n'], ?_⟩
    intro colour t
    have htext : (render colour [.bare (text ++ "\n")]).toList ++ t = text.toList ++ '\n' :: t := by
      cases colour <;> simp [render, plain, coded, Piece.bare, Piece.coded, String.join]
    rw [htext, erase_append_cons (by decide), erase_cons (by decide), List.append_assoc]
    rfl
  | @bare text s h _ ih =>
    obtain ⟨u, hu⟩ := ih
    refine ⟨text.toList ++ u, ?_⟩
    intro colour t
    rw [render_cons, render_bare, String.toList_append, List.append_assoc, erase_append_of_not_mem h, hu,
      List.append_assoc]
  | @styled p next s c more hnext hc _ ih =>
    obtain ⟨u, hu⟩ := ih
    refine ⟨erase p.text.toList ++ u, ?_⟩
    intro colour t
    have hrest : (render colour (.bare next :: s)).toList ++ t =
        c :: (more ++ ((s.render colour).toList ++ t)) := by
      rw [render_cons, render_bare, String.toList_append, hnext, List.append_assoc, List.cons_append]
    rw [render_cons, String.toList_append, List.append_assoc, hrest, p.erase_render colour hc, ← hrest, hu,
      List.append_assoc]

/-- **With and without its codes a tidy text is the same**, once the codes are taken out, and it stays
apart from what is written next. -/
theorem Tidy.erase_render {s : Styled} (h : s.Tidy) (colour : Bool) (t : List Char) :
    erase ((s.render colour).toList ++ t) = erase s.plain.toList ++ erase t := by
  obtain ⟨u, hu⟩ := h.exists_erase
  -- without codes and with nothing after it, the text shows what is left of it
  have hplain := hu false []
  have hnil : erase [] = [] := rfl
  rw [List.append_nil, hnil, List.append_nil] at hplain
  rw [hu, ← hplain]
  rfl

end Styled

namespace Complaint

/-- A piece before a message, with which a line ends. -/
theorem tidy_message (p : Piece) (message : String) :
    Styled.Tidy [p, .bare (": " ++ message ++ "\n")] := by
  have htext : (": " ++ message ++ "\n").toList = ':' :: (' ' :: (message.toList ++ ['\n'])) := by simp
  exact .styled htext (by decide) (.last (": " ++ message))

theorem tidy_space {p : Piece} {s : Styled} (hs : s.Tidy) : Styled.Tidy (p :: .bare " " :: s) :=
  .styled rfl (by decide) (.bare (by decide) hs)

theorem tidy_ofDiagnostic (d : Diagnostic) : (ofDiagnostic d).Tidy := by
  obtain ⟨file, line, code, message⟩ := d
  have hrest : Styled.Tidy
      [errorWord, .bare " ", ⟨[.cyan], "LOX" ++ toString code⟩, .bare (": " ++ message ++ "\n")] :=
    tidy_space (tidy_message ⟨[.cyan], "LOX" ++ toString code⟩ message)
  have hfile : ∀ {f : String} {s : Styled}, s.Tidy → Styled.Tidy (⟨[.cyan], f⟩ :: .bare ": " :: s) :=
    fun hs => .styled rfl (by decide) (.bare (by decide) hs)
  -- with and without the line, and then with and without the file
  cases line with
  | none =>
    cases file with
    | none => exact hrest
    | some f => exact hfile hrest
  | some n =>
    cases file with
    | none => exact tidy_space hrest
    | some f => exact hfile (tidy_space hrest)

theorem tidy_ofReport (r : Report) : (ofReport r).Tidy :=
  tidy_space (tidy_message errorWord r.message)

theorem tidy_ofCount (n : Nat) : (ofCount n).Tidy :=
  .bare (by decide) (.styled rfl (by decide) (.last ""))

theorem tidy_ofError (message : String) : (ofError message).Tidy :=
  tidy_message errorWord message

end Complaint

/-! ## §3 Scripts without colours -/

/-- An action with no wish for colours. -/
def Action.uncoloured : Action → Action
  | print text otherwise => print text otherwise
  | complain _ c => complain false c

namespace Script

/-- A script with no wish for colours. -/
def uncoloured (s : Script) : Script :=
  { s with actions := s.actions.map Action.uncoloured }

/-- All complaints are tidy. -/
def Tidy (s : Script) : Prop :=
  ∀ pretty c, .complain pretty c ∈ s.actions → c.Tidy

theorem uncoloured_after (as : List Action) (s : Script) :
    (s.after as).uncoloured = s.uncoloured.after (as.map Action.uncoloured) := by
  rw [after, uncoloured, List.map_append]
  rfl

theorem Tidy.after {s : Script} (h : s.Tidy) {as : List Action}
    (has : ∀ pretty c, .complain pretty c ∈ as → c.Tidy) : (s.after as).Tidy := by
  intro pretty c hc
  rcases List.mem_append.mp hc with hc | hc
  · exact has pretty c hc
  · exact h pretty c hc

/-- Colours make no difference to what is left of a script. -/
theorem uncoloured_cut (e : Ending) (as : List Action) :
    (cut e as).uncoloured = cut e (as.map Action.uncoloured) := by
  induction as with
  | nil => rfl
  | cons a as ih =>
    cases a with
    | print text otherwise =>
      rw [List.map_cons, Action.uncoloured, cut, cut, ← ih]
      split <;> rfl
    | complain pretty c =>
      rw [List.map_cons, Action.uncoloured, cut, cut, ← ih, uncoloured_after]
      rfl

theorem Tidy.cut {as : List Action} (h : ∀ pretty c, .complain pretty c ∈ as → c.Tidy) (e : Ending) :
    (Script.cut e as).Tidy := by
  induction as with
  | nil =>
    intro pretty c hc
    cases hc
  | cons a as ih =>
    have hrest := ih fun pretty c hc => h pretty c (List.mem_cons_of_mem a hc)
    cases a with
    | print text otherwise =>
      rw [Script.cut]
      split
      · exact hrest
      · intro pretty c hc
        cases hc
    | complain pretty c =>
      apply hrest.after
      intro pretty' c' hc'
      exact h pretty' c' (List.mem_cons.mpr (.inl (List.mem_singleton.mp hc')))

theorem uncoloured_onFull (s : Script) : s.onFull.uncoloured = s.uncoloured.onFull :=
  uncoloured_cut s.ending s.actions

theorem Tidy.onFull {s : Script} (h : s.Tidy) : s.onFull.Tidy :=
  Tidy.cut h s.ending

end Script

/-! ## §4 What is seen of scripts -/

/-- **Runs that are seen to do the same**, but for the codes in what they write to standard error. -/
structure SameButCodes (r r' : Result) : Prop where
  output : r.output = r'.output
  code : r.code = r'.code
  errors : erase r.errors.toList = erase r'.errors.toList

/-- The complaints of actions are the same without colours, and stay apart from what is written next. -/
theorem erase_errorsOf {as : List Action} (h : ∀ pretty c, .complain pretty c ∈ as → c.Tidy)
    (terminal : Bool) (t : List Char) :
    erase ((errorsOf terminal as).toList ++ t) = erase (errorsOf false as).toList ++ erase t := by
  induction as generalizing terminal t with
  | nil => rfl
  | cons a as ih =>
    have hrest := ih fun pretty c hc => h pretty c (List.mem_cons_of_mem a hc)
    cases a with
    | print text otherwise => exact hrest terminal t
    | complain pretty c =>
      have hc : c.Tidy := h pretty c List.mem_cons_self
      have hcons : ∀ terminal, errorsOf terminal (.complain pretty c :: as) =
          c.render (pretty && terminal) ++ errorsOf terminal as := fun terminal => String.join_cons
      have hplain : erase (c.render (pretty && false) ++ errorsOf false as).toList =
          erase c.plain.toList ++ erase (errorsOf false as).toList := by
        rw [String.toList_append, hc.erase_render]
      rw [hcons, hcons, hplain, String.toList_append, List.append_assoc, hc.erase_render, hrest,
        List.append_assoc]

variable (crash : Unchecked → Crash)

theorem Ending.erase_complaint (e : Ending) (terminal : Bool) :
    erase ((e.complaint crash).render terminal).toList =
      erase ((e.complaint crash).render false).toList := by
  cases e with
  | exit n => cases terminal <;> rfl
  | refused e => simp only [complaint, Styled.render_singleton]
  | broken e =>
    have h := fun colour => (Complaint.tidy_ofError e.text).erase_render colour []
    simp only [List.append_nil] at h
    exact (h terminal).trans (h false).symm
  | crashed text reason => simp only [complaint, Styled.render_singleton]

namespace Script

/-- **A terminal makes no difference but for codes.** -/
theorem Tidy.erase_errors {s : Script} (h : s.Tidy) (terminal : Bool) :
    erase (s.result terminal crash).errors.toList = erase (s.result false crash).errors.toList := by
  rw [result_eq, result_eq, String.toList_append, String.toList_append, erase_errorsOf h,
    erase_errorsOf h, s.ending.erase_complaint]

/-- Without a terminal nothing is seen of colours that are wanted. -/
theorem result_uncoloured (s : Script) :
    s.uncoloured.result false crash = s.result false crash := by
  have hprinted : (s.actions.map Action.uncoloured).filterMap Action.printed? =
      s.actions.filterMap Action.printed? := by
    rw [List.filterMap_map]
    congr 1
    funext a
    cases a <;> rfl
  have hwritten : (s.actions.map Action.uncoloured).filterMap (Action.written? false) =
      s.actions.filterMap (Action.written? false) := by
    rw [List.filterMap_map]
    congr 1
    funext a
    cases a with
    | print text otherwise => rfl
    | complain pretty c => simp [Action.uncoloured, Action.written?]
  rw [result, result, uncoloured, hprinted, hwritten]

/-- **Scripts that differ in colours only** are seen to do the same, but for codes. -/
theorem Tidy.same_result {s s' : Script} (h : s.Tidy) (h' : s'.Tidy) (hsame : s'.uncoloured = s.uncoloured)
    (terminal terminal' : Bool) :
    SameButCodes (s'.result terminal' crash) (s.result terminal crash) := by
  have hresult : s'.result false crash = s.result false crash := by
    rw [← result_uncoloured, hsame, result_uncoloured]
  have houtput : (s'.result false crash).output = (s.result false crash).output := by rw [hresult]
  have hcode : (s'.result false crash).code = (s.result false crash).code := by rw [hresult]
  refine ⟨houtput, hcode, ?_⟩
  rw [h'.erase_errors, h.erase_errors, hresult]

end Script

/-! ## §5 Calls -/

theorem uncoloured_map_complain {α : Type} (pretty : Bool) (f : α → Styled) (xs : List α) :
    (xs.map fun x => Action.complain pretty (f x)).map Action.uncoloured =
      xs.map fun x => Action.complain false (f x) :=
  List.map_map

theorem uncoloured_fileScript (s : Settings) (path source : String) :
    (fileScript s path source).uncoloured = fileScript { s with pretty := false } path source := by
  rw [fileScript, fileScript]
  split
  · rw [Script.uncoloured, List.map_cons, uncoloured_map_complain]
    rfl
  · rw [Script.uncoloured, List.map_cons, List.map_append, uncoloured_map_complain]
    rfl

theorem uncoloured_promptScript (s : Settings) (lines : List (List UInt8)) :
    (promptScript s lines).uncoloured = promptScript { s with pretty := false } lines := by
  induction lines with
  | nil => rfl
  | cons line lines ih =>
    cases hline : decode line with
    | none =>
      rw [promptScript_cons_of_noText _ _ hline, promptScript_cons_of_noText _ _ hline]
      rfl
    | some text =>
      rw [promptScript_cons_of_text _ _ hline, promptScript_cons_of_text _ _ hline,
        Script.uncoloured_after, ih, lineActions, List.map_cons, List.map_append,
        uncoloured_map_complain]
      rfl

theorem tidy_fileScript (s : Settings) (path source : String) : (fileScript s path source).Tidy := by
  intro pretty c hc
  rw [fileScript] at hc
  split at hc
  · simp only [List.mem_cons, List.mem_map] at hc
    rcases hc with hc | ⟨d, -, hd⟩
    · cases hc
    · rw [← (Action.complain.inj hd).2]
      exact Complaint.tidy_ofDiagnostic d
  · simp only [List.mem_cons, List.mem_append, List.mem_map, List.not_mem_nil, or_false] at hc
    rcases hc with hc | ⟨d, -, hd⟩ | hc
    · cases hc
    · rw [← (Action.complain.inj hd).2]
      exact Complaint.tidy_ofDiagnostic d
    · rw [(Action.complain.inj hc).2]
      exact Complaint.tidy_ofCount _

theorem tidy_promptScript (s : Settings) (lines : List (List UInt8)) : (promptScript s lines).Tidy := by
  have hprompt : ∀ {pretty c}, Action.complain pretty c ≠ printPrompt s := by
    intro pretty c h
    cases h
  induction lines with
  | nil =>
    intro pretty c hc
    rcases List.mem_pair.mp hc with hc | hc
    · exact absurd hc hprompt
    · cases hc
  | cons line lines ih =>
    cases hline : decode line with
    | none =>
      rw [promptScript_cons_of_noText s lines hline]
      intro pretty c hc
      exact absurd (List.mem_singleton.mp hc) hprompt
    | some text =>
      rw [promptScript_cons_of_text s lines hline]
      apply ih.after
      intro pretty c hc
      simp only [lineActions, List.mem_cons, List.mem_append, List.mem_map, List.not_mem_nil,
        or_false] at hc
      rcases hc with hc | ⟨r, -, hr⟩ | hc
      · exact absurd hc hprompt
      · rw [← (Action.complain.inj hr).2]
        exact Complaint.tidy_ofReport r
      · cases hc

/-- A plan with no wish for colours. -/
def Plan.uncoloured : Plan → Plan
  | script s => script s.uncoloured
  | prompt s => prompt { s with pretty := false }

theorem Plan.toScript_uncoloured (p : Plan) (input : List UInt8) :
    (p.toScript input).uncoloured = p.uncoloured.toScript input := by
  cases p with
  | script s => rfl
  | prompt s => exact uncoloured_promptScript s (splitLines input)

/-- The settings of invocations that differ in colours differ in nothing else. -/
theorem settings_noPretty (i : Invocation) (noPretty : Bool) (files : Files) :
    (({ i with noPretty := noPretty } : Invocation).settings files).map
        (fun s => { s with pretty := false }) =
      (i.settings files).map (fun s => { s with pretty := false }) := by
  have hload : ({ i with noPretty := noPretty } : Invocation).loadConfig files = i.loadConfig files := rfl
  have hformat : ({ i with noPretty := noPretty } : Invocation).parseFormat = i.parseFormat := rfl
  rw [Invocation.settings, Invocation.settings, hload, hformat]
  cases i.loadConfig files with
  | error e => rfl
  | ok config => cases i.parseFormat <;> rfl

/-- The plan of an invocation, from what its settings come to. -/
def planFrom (i : Invocation) (files : Files) (settings : Except ConfigError Settings) : Plan :=
  if i.version then .script ⟨[.print versionLine (.crashed .version noRoom)], .exit 0⟩
  else
    match settings with
    | .error e => .script (.ends (.broken (.options e)))
    | .ok s =>
      match i.file with
      | none => .prompt s
      | some path =>
        match files.readText path with
        | .error e => .script (.ends (.broken (.unreadableSource path e)))
        | .ok source => .script (fileScript s path source)

theorem planFrom_settings (i : Invocation) (files : Files) :
    planFrom i files (i.settings files) = i.plan files := rfl

theorem uncoloured_planFrom (i : Invocation) (files : Files) (settings : Except ConfigError Settings) :
    (planFrom i files settings).uncoloured =
      planFrom i files (settings.map fun s => { s with pretty := false }) := by
  unfold planFrom
  split
  · rfl
  · cases settings with
    | error e => rfl
    | ok s =>
      simp only [Except.map]
      cases i.file with
      | none => rfl
      | some path =>
        dsimp only
        cases files.readText path with
        | error e => rfl
        | ok source => exact congrArg Plan.script (uncoloured_fileScript s path source)

/-- **Invocations that differ in colours come down to plans that do.** -/
theorem uncoloured_plan (i : Invocation) (noPretty : Bool) (files : Files) :
    (({ i with noPretty := noPretty } : Invocation).plan files).uncoloured =
      (i.plan files).uncoloured := by
  rw [← planFrom_settings, ← planFrom_settings, uncoloured_planFrom, uncoloured_planFrom,
    settings_noPretty]
  rfl

theorem tidy_plan (i : Invocation) (files : Files) (input : List UInt8) :
    ((i.plan files).toScript input).Tidy := by
  have hends : ∀ e, (Script.ends e).Tidy := by
    intro e pretty c hc
    cases hc
  rw [Invocation.plan]
  split
  · intro pretty c hc
    cases List.mem_singleton.mp hc
  · split
    · exact hends _
    · split
      · exact tidy_promptScript _ _
      · split
        · exact hends _
        · exact tidy_fileScript _ _ _

/-- **Colours make no difference but for their codes.** Take a call with arguments that are accepted. If it
does not say `--no-pretty`, it can say so as well. And whether it does or not, and whether standard error is
a terminal or not, the exit code and all that is printed are the same, and so is all that is written to
standard error, once the codes are taken out. -/
theorem run_colours {args : List String} {i : Invocation} (hargs : parse args = .ok i) :
    (i.noPretty = false → parse ("--no-pretty" :: args) = .ok { i with noPretty := true }) ∧
      ∀ (args' : List String) (noPretty : Bool), parse args' = .ok { i with noPretty := noPretty } →
        ∀ (w : Surroundings) (terminal : Bool),
          SameButCodes (run { w with errorsToTerminal := terminal } args') (run w args) := by
  refine ⟨?_, ?_⟩
  · intro hpretty
    -- the flag is new, and no other option of the invocation is read from it
    obtain ⟨said, rfl, hparse⟩ := parse_flag_cons (f := .noPretty) (by decide) hargs
    have hsaid : Said.flag .noPretty ∉ said := by simpa [Invocation.ofSaid] using hpretty
    have hmore : Invocation.ofSaid (.flag .noPretty :: said) =
        { Invocation.ofSaid said with noPretty := true } := by
      simp [Invocation.ofSaid, List.findSome?_cons, Said.file?, Said.value?]
    rw [← hmore]
    exact hparse hsaid
  · intro args' noPretty hargs' w terminal
    have hplan : plan args w.files = i.plan w.files := by simp only [plan, hargs]
    have hplan' : plan args' w.files = ({ i with noPretty := noPretty } : Invocation).plan w.files := by
      simp only [plan, hargs']
    have htidy := tidy_plan i w.files w.input
    have htidy' := tidy_plan { i with noPretty := noPretty } w.files w.input
    -- both calls do the same but for the wish for colours
    have hsame : ((plan args' w.files).toScript w.input).uncoloured =
        ((plan args w.files).toScript w.input).uncoloured := by
      rw [Plan.toScript_uncoloured, Plan.toScript_uncoloured, hplan, hplan', uncoloured_plan]
    rw [← hplan] at htidy
    rw [← hplan'] at htidy'
    simp only [run]
    cases w.outputFull with
    | false => exact htidy.same_result w.crash htidy' hsame _ _
    | true =>
      apply htidy.onFull.same_result w.crash htidy'.onFull
      rw [Script.uncoloured_onFull, Script.uncoloured_onFull, hsame]

/-- A path and a source with the beginnings of codes in them, before the code that ends a colour and before
the end of the line. -/
theorem run_colours_code_in_path :
    let w : Surroundings :=
      ⟨fun path => if path = "\x1b[3" then .ok (encode "\x1b") else .error .notFound, [], true, false,
        default⟩
    SameButCodes (run { w with errorsToTerminal := false } ["--no-pretty", "\x1b[3"])
      (run w ["\x1b[3"]) := by
  intro w
  have hargs : parse ["\x1b[3"] = .ok ⟨some "\x1b[3", none, none, false, false, false⟩ := by rfl
  obtain ⟨hflag, hsame⟩ := run_colours hargs
  exact hsame ["--no-pretty", "\x1b[3"] true (hflag rfl) w false

end LoxLexer.Command
