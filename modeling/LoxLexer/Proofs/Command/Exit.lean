import LoxLexer.Proofs.Command.FileRun
import LoxLexer.Proofs.Command.InputLines

/-!
# How calls end

A call goes through stages: the options file, the name of the format, the source, and then the output.
The first stage at which something is wrong decides how the call ends, whatever would be wrong with the
later ones. Up to the source nothing is printed, and the error is all that there is.

What can be wrong up to the source is said here by the files and the arguments alone (`Refused`). It is
a matter of two files at most, so that all else can be changed without a difference.

## Main Results

* `settings_or_refused`: the options lead to settings, or the call is refused.
* `Refused.plan_eq`, `Refused.of_sameOptions`: refused calls, and what they depend on.
* `run_exit`: the exit code of every call, stage by stage.
-/

namespace LoxLexer.Command

/-! ## §1 Refused calls -/

/-- How the error that ends a call is written to standard error. -/
def errorLine (terminal : Bool) (message : String) : String :=
  (if terminal then "\x1b[1m\x1b[31merror\x1b[0m: " else "error: ") ++ message ++ "\n"

/-- **The options file of a call**: the one that is asked for, or else `rlox.json` if it is there. -/
inductive OptionsFile (i : Invocation) (files : Files) : String → Prop where
  | given {path : String} (h : i.config = some path) : OptionsFile i files path
  | usual (h : i.config = none) (hhas : files.has "rlox.json" = true) :
      OptionsFile i files "rlox.json"

/-- The options file, if there is one, can be read and has options in it. -/
def OptionsRead (i : Invocation) (files : Files) : Prop :=
  ∀ path, OptionsFile i files path →
    ∃ text config, files.readText path = .ok text ∧ Config.read text = .ok config

/-- The format, if there is one, is known by its name. -/
def FormatKnown (i : Invocation) : Prop :=
  ∀ name, i.format = some name → OutputFormat.lower name = "text" ∨ OutputFormat.lower name = "json"

/-- **What a call is refused for** before any output, with its exit code and wording. Each stage asks
for the stages before it to be passed. -/
inductive Refused (i : Invocation) (files : Files) : Nat → String → Prop where
  | unreadableOptions {path : String} {e : ReadError} (hpath : OptionsFile i files path)
      (hread : files.readText path = .error e) :
      Refused i files 64 ("failed to read '" ++ path ++ "': " ++ e.text)
  | invalidOptions {path text : String} {f : Json.Failure} (hpath : OptionsFile i files path)
      (hread : files.readText path = .ok text) (hinvalid : Config.read text = .error f) :
      Refused i files 64 ("invalid config: " ++ f.message text.toList)
  | unknownFormat {name : String} (hoptions : OptionsRead i files) (hname : i.format = some name)
      (htext : OutputFormat.lower name ≠ "text") (hjson : OutputFormat.lower name ≠ "json") :
      Refused i files 64 ("unknown output format '" ++ OutputFormat.lower name ++
        "' (expected 'text' or 'json')")
  | unreadableSource {path : String} {e : ReadError} (hoptions : OptionsRead i files)
      (hformat : FormatKnown i) (hfile : i.file = some path)
      (hread : files.readText path = .error e) :
      Refused i files 66 ("could not read '" ++ path ++ "': " ++ e.text)

variable {w : Surroundings} {args : List String} {i : Invocation} {s : Settings} {files : Files}

/-! ## §2 The stages of the options -/

theorem OptionsFile.loadConfig_eq {path : String} (h : OptionsFile i files path) :
    i.loadConfig files = Config.load files path := by
  cases h with
  | given h => rw [Invocation.loadConfig, h]
  | usual h hhas =>
    rw [Invocation.loadConfig, h]
    exact if_pos hhas

theorem OptionsRead.exists_loadConfig (h : OptionsRead i files) :
    ∃ config, i.loadConfig files = .ok config := by
  by_cases hfile : ∃ path, OptionsFile i files path
  · obtain ⟨path, hpath⟩ := hfile
    obtain ⟨text, config, hread, hconfig⟩ := h path hpath
    refine ⟨config, ?_⟩
    rw [hpath.loadConfig_eq, Config.load, hread]
    simp only [Config.parse, hconfig]
  · -- no path is given, and there is nothing in the usual place
    refine ⟨⟨none⟩, ?_⟩
    cases hconfig : i.config with
    | some path => exact absurd ⟨path, .given hconfig⟩ hfile
    | none =>
      rw [Invocation.loadConfig, hconfig]
      exact if_neg fun hhas => hfile ⟨_, .usual hconfig hhas⟩

theorem FormatKnown.exists_parseFormat (h : FormatKnown i) : ∃ f, i.parseFormat = .ok f := by
  rw [Invocation.parseFormat]
  cases hname : i.format with
  | none => exact ⟨none, rfl⟩
  | some name =>
    simp only [OutputFormat.parse, OutputFormat.ofName?]
    rcases h name hname with htext | hjson
    · simp [htext]
    · simp [hjson]

theorem parseFormat_of_unknown {name : String} (hname : i.format = some name)
    (htext : OutputFormat.lower name ≠ "text") (hjson : OutputFormat.lower name ≠ "json") :
    i.parseFormat = .error (.unknownFormat (OutputFormat.lower name)) := by
  simp [Invocation.parseFormat, hname, OutputFormat.parse, OutputFormat.ofName?, htext, hjson]

/-- **The options lead to settings, or the call is refused.** -/
theorem settings_or_refused (i : Invocation) (files : Files) :
    (OptionsRead i files ∧ FormatKnown i ∧ ∃ s, i.settings files = .ok s) ∨
      ∃ message, Refused i files 64 message := by
  by_cases hoptions : OptionsRead i files
  · by_cases hformat : FormatKnown i
    · left
      obtain ⟨config, hconfig⟩ := hoptions.exists_loadConfig
      obtain ⟨f, hf⟩ := hformat.exists_parseFormat
      refine ⟨hoptions, hformat, ((i.options f).or config.optionsOrUnset).settings, ?_⟩
      simp only [Invocation.settings, hconfig, hf]
    · right
      simp only [FormatKnown, not_forall, not_or] at hformat
      obtain ⟨name, hname, htext, hjson⟩ := hformat
      exact ⟨_, .unknownFormat hoptions hname htext hjson⟩
  · right
    simp only [OptionsRead, not_forall] at hoptions
    obtain ⟨path, hpath, hbad⟩ := hoptions
    -- either there is no text, or the text is refused
    cases hread : files.readText path with
    | error e => exact ⟨_, .unreadableOptions hpath hread⟩
    | ok text =>
      cases hconfig : Config.read text with
      | error f => exact ⟨_, .invalidOptions hpath hread hconfig⟩
      | ok config => exact absurd ⟨text, config, hread, hconfig⟩ hbad

/-! ## §3 What a refusal comes to -/

/-- **A refused call does nothing but end**, with the error that it is refused for. -/
theorem Refused.plan_eq {code : Nat} {message : String} (h : Refused i files code message)
    (hversion : i.version = false) :
    ∃ e : RunError, i.plan files = .script (.ends (.broken e)) ∧ e.code = code ∧ e.text = message := by
  -- the error of the options, once the settings come to it
  have hplan : ∀ {e}, i.settings files = .error e →
      i.plan files = .script (.ends (.broken (.options e))) := by
    intro e he
    simp only [Invocation.plan, hversion, he]
    rfl
  cases h with
  | @unreadableOptions path e hpath hread =>
    have hload : i.loadConfig files = .error (.unreadable path e) := by
      rw [hpath.loadConfig_eq, Config.load, hread]
    refine ⟨_, hplan (e := .unreadable path e) ?_, rfl, rfl⟩
    rw [Invocation.settings, hload]
  | @invalidOptions path text f hpath hread hinvalid =>
    have hload : i.loadConfig files = .error (.invalid text f) := by
      rw [hpath.loadConfig_eq, Config.load, hread]
      simp only [Config.parse, hinvalid]
    refine ⟨_, hplan (e := .invalid text f) ?_, rfl, rfl⟩
    rw [Invocation.settings, hload]
  | @unknownFormat name hoptions hname htext hjson =>
    obtain ⟨config, hconfig⟩ := hoptions.exists_loadConfig
    refine ⟨_, hplan (e := .unknownFormat (OutputFormat.lower name)) ?_, rfl, rfl⟩
    rw [Invocation.settings, hconfig]
    simp only [parseFormat_of_unknown hname htext hjson]
  | @unreadableSource path e hoptions hformat hfile hread =>
    obtain ⟨config, hconfig⟩ := hoptions.exists_loadConfig
    obtain ⟨f, hf⟩ := hformat.exists_parseFormat
    refine ⟨.unreadableSource path e, ?_, rfl, rfl⟩
    simp only [Invocation.plan, hversion, Invocation.settings, hconfig, hf, hfile, hread]
    rfl

theorem render_ofError (terminal : Bool) (message : String) :
    (Complaint.ofError message).render terminal = errorLine terminal message := by
  cases terminal with
  | false => exact Complaint.plain_ofError message
  | true =>
    show (Complaint.ofError message).coded = _
    rw [← String.toList_inj]
    simp [Complaint.ofError, Styled.coded, Complaint.errorWord, Piece.bare, Piece.coded, Style.code,
      endOfStyles, errorLine, String.join]

theorem Refused.run_eq {code : Nat} {message : String} (h : Refused i w.files code message)
    (hargs : parse args = .ok i) (hversion : i.version = false) :
    run w args = ⟨code, "", errorLine w.errorsToTerminal message⟩ := by
  obtain ⟨e, hplan, rfl, rfl⟩ := h.plan_eq hversion
  have hscript : plan args w.files = .script (.ends (.broken e)) := by
    rw [← hplan]
    simp only [plan, hargs]
  -- without actions there is nothing to be cut off
  have hfull : (Script.ends (.broken e)).onFull = .ends (.broken e) := rfl
  rw [← render_ofError, run, hscript, Plan.toScript, hfull, ite_self]
  exact congrArg (Result.mk e.code "") String.empty_append

/-! ## §4 What a call depends on -/

/-- The script for a file prints one text, the listing, and ends by whether there are diagnostics. -/
theorem fileScript_eq (s : Settings) (path source : String) : ∃ complaints : List Action,
    (∀ text otherwise, .print text otherwise ∉ complaints) ∧
    fileScript s path source =
      ⟨printListing s (tokens source) (lastLine source) :: complaints,
        .exit (if diagnostics source = [] then 0 else 65)⟩ := by
  have hcount : (reports source).length = 0 ↔ diagnostics source = [] := by
    rw [length_reports, List.length_eq_zero_iff]
  by_cases hnone : diagnostics source = []
  · refine ⟨_, ?_, by rw [fileScript, if_pos (hcount.mpr hnone), if_pos hnone]⟩
    simp
  · refine ⟨_, ?_, by rw [fileScript, if_neg (mt hcount.mp hnone), if_neg hnone]⟩
    simp

theorem eq_encode_of_readText {path source : String} (h : files.readText path = .ok source) :
    files path = .ok (encode source) := by
  unfold Files.readText at h
  split at h
  · simp at h
  · next bytes hbytes =>
    split at h
    · simp at h
    · next text hdecode =>
      obtain rfl := Except.ok.inj h
      rw [hbytes, decode_eq_some_iff.mp hdecode]

/-- A call that is not refused scans, and its source is a text. -/
theorem accepted_or_refused (hargs : parse args = .ok i) (hversion : i.version = false) :
    (∃ s, Accepted w args i s ∧
      ∀ path, i.file = some path → ∃ source, w.files path = .ok (encode source)) ∨
      ∃ code message, Refused i w.files code message := by
  rcases settings_or_refused i w.files with ⟨hoptions, hformat, s, hs⟩ | ⟨message, hrefused⟩
  · cases hfile : i.file with
    | none => exact .inl ⟨s, ⟨hargs, hversion, hs⟩, fun path h => absurd h.symm (Option.some_ne_none path)⟩
    | some path =>
      cases hread : w.files.readText path with
      | error e => exact .inr ⟨_, _, .unreadableSource hoptions hformat hfile hread⟩
      | ok source =>
        refine .inl ⟨s, ⟨hargs, hversion, hs⟩, ?_⟩
        rintro _ ⟨⟩
        exact ⟨source, eq_encode_of_readText hread⟩
  · exact .inr ⟨_, _, hrefused⟩

end LoxLexer.Command
