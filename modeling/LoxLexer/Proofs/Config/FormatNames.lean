import LoxLexer.Proofs.Config.Spelling

/-!
# Names of formats

The format of the output has a name in two places: in the arguments, and in the options file, where it is a
JSON string. The two are read along different ways, but to the same end. The small and capital letters of
ASCII do not differ, and no other letters count as letters of the names. A name that is not known is refused
in the same words.

* `OutputFormat.lower_eq_name_iff`: the spellings of a name.
* `Config.read_format`: an options file with nothing but a format.
* `OutputFormat.parse_iff_config`: the two places agree.
-/

namespace LoxLexer

open Json (Field Named Space Spells StringText)

/-! ## §1 Letters of either case -/

/-- Nothing but a small letter and the capital letter becomes the small letter. -/
theorem toLower_eq_iff {c l : Char} (hl : l.isLower = true) :
    c.toLower = l ↔ c = l ∨ c.toNat + 32 = l.toNat := by
  have hsmall : 97 ≤ l.toNat ∧ l.toNat ≤ 122 := by
    change (decide (97 ≤ l.toNat) && decide (l.toNat ≤ 122)) = true at hl
    rwa [Bool.and_eq_true, decide_eq_true_iff, decide_eq_true_iff] at hl
  rw [← Char.toNat_inj, ← Char.toNat_inj]
  unfold Char.toLower
  split
  · next h =>
    have hcapital : 65 ≤ c.toNat ∧ c.toNat ≤ 90 := h
    have hcode : (c.val + ('a'.val - 'A'.val)).toNat = c.toNat + 32 := by
      rw [UInt32.toNat_add]
      exact Nat.mod_eq_of_lt (by show c.toNat + 32 < 2 ^ 32; omega)
    show (c.val + ('a'.val - 'A'.val)).toNat = l.toNat ↔ _
    omega
  · next h =>
    have hother : ¬ (65 ≤ c.toNat ∧ c.toNat ≤ 90) := h
    omega

theorem map_toLower_eq_iff {cs ls : List Char} (hls : ∀ l ∈ ls, l.isLower = true) :
    cs.map Char.toLower = ls ↔ List.Forall₂ (fun c l => c = l ∨ c.toNat + 32 = l.toNat) cs ls := by
  induction cs generalizing ls with
  | nil =>
    rw [List.map_nil, List.forall₂_nil_left_iff]
    exact eq_comm
  | cons c cs ih =>
    cases ls with
    | nil => simp
    | cons l ls =>
      rw [List.forall_mem_cons] at hls
      rw [List.map_cons, List.cons.injEq, List.forall₂_cons, toLower_eq_iff hls.1, ih hls.2]

namespace OutputFormat

/-- **The spellings of a name**: letter by letter, the small letter of the name or its capital. -/
theorem lower_eq_name_iff {s : String} {f : OutputFormat} :
    lower s = f.name ↔
      List.Forall₂ (fun c l => c = l ∨ c.toNat + 32 = l.toNat) s.toList f.name.toList := by
  have hsmall : f.name.toList.all Char.isLower = true := by
    cases f <;> rfl
  rw [lower, ← String.toList_inj, String.toList_ofList]
  exact map_toLower_eq_iff (List.all_eq_true.mp hsmall)

theorem parse_eq_ok_iff {s : String} {f : OutputFormat} : parse s = .ok f ↔ lower s = f.name := by
  rw [← ofName?_eq_some_iff, parse]
  cases ofName? s <;> simp

/-- Names that are not known are refused in the same words in both places. -/
theorem refused_of_ne {s : String} (h : ∀ f : OutputFormat, lower s ≠ f.name) :
    parse s = .error (.unknownFormat (lower s)) ∧ find s = .error (unknownName (lower s)) := by
  have hnone : ofName? s = none := by
    rw [Option.eq_none_iff_forall_not_mem]
    intro f hf
    exact h f (ofName?_eq_some_iff.mp hf)
  rw [parse, find, hnone]
  exact ⟨rfl, rfl⟩

end OutputFormat

/-! ## §2 Options files with a format -/

/-- A message begins with the wording of the cause. -/
theorem Json.Failure.exists_message_eq (text : List Char) (f : Failure) :
    ∃ place, f.message text = f.cause.text ++ place := by
  refine ⟨" at line " ++ (toString (lineAndColumn text (byteSize text - f.left)).1 ++ (" column " ++
    toString (lineAndColumn text (byteSize text - f.left)).2)), ?_⟩
  simp only [message, String.append_assoc]

/-- The wording of what is wrong with a file has that of the cause in it. -/
theorem ConfigError.exists_text_invalid (file : String) (f : Json.Failure) :
    ∃ before after, (ConfigError.invalid file f).text = before ++ f.cause.text ++ after := by
  have htext : (ConfigError.invalid file f).text = "invalid config: " ++ f.message file.toList := rfl
  obtain ⟨place, hplace⟩ := Json.Failure.exists_message_eq file.toList f
  refine ⟨"invalid config: ", place, ?_⟩
  rw [htext, hplace, String.append_assoc]

section

variable {s : String} {t : List Char}

/-- The text of an options file that has nothing but a format in it. -/
theorem toList_formatFile (t : List Char) :
    ("\x7b\"options\":\x7b\"format\":" ++ String.ofList t ++ "\x7d\x7d").toList =
      '{' :: '"' :: ("options".toList ++ '"' :: ':' ::
        ('{' :: '"' :: ("format".toList ++ '"' :: ':' :: (t ++ ['}', '}'])))) := by
  simp

theorem exists_cons_of_stringText (h : StringText s t) : ∃ cs, t = '"' :: cs := by
  cases h with
  | mk h => exact ⟨_, rfl⟩

theorem named_format : Named "format" "format".toList :=
  Json.spells_self (by decide)

theorem named_options : Named "options" "options".toList :=
  Json.spells_self (by decide)

/-- **An options file with nothing but a format** holds the format of that name. If there is none, the file
is refused for the name, at the end of the record of options. -/
theorem Config.read_format (h : StringText s t) :
    read ("\x7b\"options\":\x7b\"format\":" ++ String.ofList t ++ "\x7d\x7d") =
      match OutputFormat.find s with
      | .ok f => .ok ⟨some ⟨some f, none, none, none⟩⟩
      | .error reason => .error (.placed (.refused reason) 1) := by
  have hquote : Json.BeginsValue '"' := by decide
  have hbrace : Json.BeginsValue '{' := by decide
  have hformatField : Options.shape.field? "format" =
      some (.optional "format" (Json.readNamed OutputFormat.find) (Json.shortens_readNamed _)
        fun v o => { o with format := v }) := rfl
  have hoptionsField : shape.field? "options" =
      some (.optional "options" Options.shape.read Options.shape.shortens_read
        fun v c => { c with options := v }) := rfl
  have hnull : '"' ≠ 'n' ∧ '{' ≠ 'n' := by decide
  have htext := (Json.gives_readText h).reads [] ['}', '}'] Space.nil (Json.endsNumber_closing .record ['}'])
  obtain ⟨cs, rfl⟩ := exists_cons_of_stringText h
  rw [List.nil_append, List.cons_append] at htext
  rw [read, Json.Shape.readAll, toList_formatFile]
  -- the name is read as a text, and then the records around it are left again
  cases hfind : OutputFormat.find s with
  | ok f =>
    have hformat : Json.readNamed OutputFormat.find ('"' :: (cs ++ ['}', '}'])) = .ok (f, ['}', '}']) := by
      simp only [Json.readNamed, htext, hfind]
    have hoptions := Json.Shape.read_one_member hformatField named_format
      (Field.read_optional_ok hquote hnull.1 hformat)
    have hfile := Json.Shape.read_one_member hoptionsField named_options
      (Field.read_optional_ok hbrace hnull.2 hoptions)
    rw [List.cons_append, hfile]
    rfl
  | error reason =>
    have hformat : Json.readNamed OutputFormat.find ('"' :: (cs ++ ['}', '}'])) =
        .error (.unplaced (.refused reason) ['}', '}']) := by
      simp only [Json.readNamed, htext, hfind]
    have hoptions := Json.Shape.read_member_error hformatField named_format
      (Field.read_optional_error hquote hnull.1 hformat)
    have hfile := Json.Shape.read_member_error hoptionsField named_options
      (Field.read_optional_error hbrace hnull.2 hoptions)
    rw [List.cons_append, hfile]
    rfl

/-- **Formats have the same names in the arguments and in the options file.** Whatever the spelling of a
string as JSON,

* the options file with nothing but the string for a format holds a format exactly if the string is the name
  of this format among the arguments, and then nothing else;
* the names are those of the formats, with small letters of ASCII in the place of capital ones: letter by
  letter they are the small letter of the name or its capital;
* another string is refused in both places. The message is the same, but for the file it says more before and
  after. -/
theorem OutputFormat.parse_iff_config (h : StringText s t) :
    let file := "\x7b\"options\":\x7b\"format\":" ++ String.ofList t ++ "\x7d\x7d"
    let reason := "unknown output format '" ++ lower s ++ "' (expected 'text' or 'json')"
    (∀ c, Config.parse file = .ok c ↔
      ∃ f, OutputFormat.parse s = .ok f ∧ c = ⟨some ⟨some f, none, none, none⟩⟩) ∧
    (∀ f, OutputFormat.parse s = .ok f ↔ lower s = f.name) ∧
    (∀ f : OutputFormat, lower s = f.name ↔
      List.Forall₂ (fun c l => c = l ∨ c.toNat + 32 = l.toNat) s.toList f.name.toList) ∧
    (lower s ≠ "text" → lower s ≠ "json" →
      (∃ failure before after, Config.parse file = .error (.invalid file failure) ∧
        (ConfigError.invalid file failure).text = before ++ reason ++ after) ∧
      OutputFormat.parse s = .error (.unknownFormat (lower s)) ∧
        (ConfigError.unknownFormat (lower s)).text = reason) := by
  intro file reason
  have hreason : unknownName (lower s) = reason := rfl
  have hparse : ∀ f, OutputFormat.parse s = .ok f ↔ OutputFormat.find s = .ok f := by
    intro f
    rw [parse_eq_ok_iff, find_eq_ok_iff]
  have hread : Config.read file = _ := Config.read_format h
  clear_value file reason
  refine ⟨?_, fun f => parse_eq_ok_iff, fun f => lower_eq_name_iff, ?_⟩
  · intro c
    simp only [hparse, Config.parse, hread]
    cases hfind : OutputFormat.find s with
    | ok f => simp [eq_comm]
    | error r => simp
  · intro htext hjson
    have hne : ∀ f : OutputFormat, lower s ≠ f.name := by
      intro f
      cases f with
      | text => exact htext
      | json => exact hjson
    obtain ⟨hrefused, hfind⟩ := refused_of_ne hne
    simp only [hfind, hreason] at hread
    have hfile : Config.parse file = .error (.invalid file (.placed (.refused reason) 1)) := by
      rw [Config.parse, hread]
    obtain ⟨before, after, htext⟩ := ConfigError.exists_text_invalid file (.placed (.refused reason) 1)
    exact ⟨⟨_, before, after, hfile, htext⟩, hrefused, hreason⟩

end

/-- A known name in letters of both cases, one of them escaped; and a name between quotes, which are
escaped and part of it. -/
theorem OutputFormat.parse_iff_config_escaped :
    Config.parse "\x7b\"options\":\x7b\"format\":\"J\\u0073oN\"\x7d\x7d" =
        .ok ⟨some ⟨some .json, none, none, none⟩⟩ ∧
      (∃ e, Config.parse "\x7b\"options\":\x7b\"format\":\"\\\"TEXT\\\"\"\x7d\x7d" = .error e) ∧
      OutputFormat.parse "\"TEXT\"" = .error (.unknownFormat "\"text\"") := by
  have hdigit : ∀ n < 16, Json.IsHexDigit (Json.hexDigit n) n := fun n hn => ⟨hn, .inl rfl⟩
  have hknown : StringText "JsoN" "\"J\\u0073oN\"".toList := by
    have hunit : Json.CodeUnit ['0', '0', '7', '3'] 's'.toNat :=
      .mk (hdigit 0 (by decide)) (hdigit 0 (by decide)) (hdigit 7 (by decide)) (hdigit 3 (by decide))
    have hletters : Spells ['o', 'N'] ['o', 'N'] := Json.spells_self (by decide)
    have hspells : Spells "J\\u0073oN".toList "JsoN".toList :=
      .plain (by decide) (@Spells.unit 's' ['0', '0', '7', '3'] _ _ hunit hletters)
    exact .mk hspells
  have hquoted : StringText "\"TEXT\"" "\"\\\"TEXT\\\"\"".toList := by
    have hletters : Spells ('T' :: 'E' :: 'X' :: 'T' :: ['\\', '"']) ('T' :: 'E' :: 'X' :: 'T' :: ['"']) :=
      .plain (by decide) (.plain (by decide) (.plain (by decide) (.plain (by decide) (.letter .quote .nil))))
    have hspells : Spells "\\\"TEXT\\\"".toList "\"TEXT\"".toList := .letter .quote hletters
    exact .mk hspells
  obtain ⟨hfile, hname, -, -⟩ := OutputFormat.parse_iff_config hknown
  obtain ⟨-, -, -, hrefused⟩ := OutputFormat.parse_iff_config hquoted
  obtain ⟨⟨failure, -, -, herror, -⟩, hunknown, -⟩ := hrefused (by decide) (by decide)
  have hjson : OutputFormat.parse "JsoN" = .ok .json := (hname .json).mpr (by decide)
  exact ⟨(hfile _).mpr ⟨.json, hjson, rfl⟩, ⟨_, herror⟩, hunknown⟩

end LoxLexer
