import LoxLexer.Config.File
import LoxLexer.Proofs.Json.Refusals

/-!
# Spellings of options

One content of an options file has many texts. The members of a record may come in any order, and so may
others that mean nothing; an option that is left open is `null` or is not there at all; or a record is
the list of its fields. A text that gives a field twice, or lists too few fields or too many, is no
spelling of anything.

* `Options.Spelling`, `Config.SpelledBy`: the texts of options and of what an options file holds.
* `Config.ImproperText`: the texts that are faulty in these ways.
* `Config.parse_spellings`: a text is read as what it spells, and an improper one is refused.
-/

namespace LoxLexer

open Json.Shape (TakesInOrder)
open Json (Accepts AsWritten BooleanText FieldGiven Gives Improper IsValue ListOf Named Nullable
  PassesOver RecordOf Space Spells StringText)

/-! ## §1 Texts of options -/

/-- The texts of a format: its name, in letters of either case. -/
inductive FormatText : OutputFormat → List Char → Prop where
  | mk {f : OutputFormat} {s : String} {t : List Char} (hname : OutputFormat.lower s = f.name)
      (h : StringText s t) : FormatText f t

namespace Options

/-- The names of the members of a record of options. -/
def names : List String :=
  ["format", "pretty", "prompt", "showEof"]

/-- The texts that a member of a record of options may have. -/
inductive MemberText (o : Options) : String → List Char → Prop where
  | format {t : List Char} (h : Nullable FormatText o.format t) : MemberText o "format" t
  | pretty {t : List Char} (h : Nullable BooleanText o.pretty t) : MemberText o "pretty" t
  | prompt {t : List Char} (h : Nullable StringText o.prompt t) : MemberText o "prompt" t
  | showEof {t : List Char} (h : Nullable BooleanText o.showEof t) : MemberText o "showEof" t
  | other {name : String} {t : List Char} (hname : name ∉ names) (h : IsValue t) : MemberText o name t

/-- **Options are given by members**, each option at most once, and all of them that are set. -/
structure GivenBy (o : Options) (ms : List (String × List Char)) : Prop where
  texts : ∀ m ∈ ms, o.MemberText m.1 m.2
  once : ms.Pairwise fun m m' => m.1 = m'.1 → m.1 ∉ names
  format : (∀ m ∈ ms, m.1 ≠ "format") → o.format = none
  pretty : (∀ m ∈ ms, m.1 ≠ "pretty") → o.pretty = none
  prompt : (∀ m ∈ ms, m.1 ≠ "prompt") → o.prompt = none
  showEof : (∀ m ∈ ms, m.1 ≠ "showEof") → o.showEof = none

/-- **The texts of options**: records of members, and lists of the four values. -/
inductive Spelling (o : Options) : List Char → Prop where
  | record {ms : List (String × List Char)} {t : List Char} (h : RecordOf Named ms t)
      (hgiven : o.GivenBy ms) : Spelling o t
  | list {f p q e t : List Char} (h : ListOf [f, p, q, e] t) (hformat : Nullable FormatText o.format f)
      (hpretty : Nullable BooleanText o.pretty p) (hprompt : Nullable StringText o.prompt q)
      (hshowEof : Nullable BooleanText o.showEof e) : Spelling o t

end Options

namespace Config

/-- The names of the members of an options file. -/
def names : List String :=
  ["options"]

/-- The texts that a member of an options file may have. -/
inductive MemberText (c : Config) : String → List Char → Prop where
  | options {t : List Char} (h : Nullable Options.Spelling c.options t) : MemberText c "options" t
  | other {name : String} {t : List Char} (hname : name ∉ names) (h : IsValue t) : MemberText c name t

/-- The content of an options file is given by members. -/
structure GivenBy (c : Config) (ms : List (String × List Char)) : Prop where
  texts : ∀ m ∈ ms, c.MemberText m.1 m.2
  once : ms.Pairwise fun m m' => m.1 = m'.1 → m.1 ∉ names
  options : (∀ m ∈ ms, m.1 ≠ "options") → c.options = none

/-- The texts of what an options file holds, as values. -/
inductive Spelling (c : Config) : List Char → Prop where
  | record {ms : List (String × List Char)} {t : List Char} (h : RecordOf Named ms t)
      (hgiven : c.GivenBy ms) : Spelling c t
  | list {o t : List Char} (h : ListOf [o] t) (hoptions : Nullable Options.Spelling c.options o) :
      Spelling c t

/-- **The texts of an options file**, with blanks around them. -/
inductive SpelledBy (c : Config) (text : String) : Prop where
  | mk {before t after : List Char} (htext : text.toList = before ++ (t ++ after))
      (hbefore : Space before) (hafter : Space after) (h : c.Spelling t)

/-- Values that give fields twice or list them in a wrong number, as a whole or within the value that they
give as the options. -/
inductive ImproperValue : List Char → Prop where
  | file {t : List Char} (h : Improper names t) : ImproperValue t
  | member {ms : List (List Char × List Char)} {m : List Char × List Char} {t : List Char}
      (h : RecordOf AsWritten ms t) (hvalues : ∀ x ∈ ms, IsValue x.2) (hm : m ∈ ms)
      (hname : Named "options" m.1) (himproper : Improper Options.names m.2) : ImproperValue t
  | element {v t : List Char} (h : ListOf [v] t) (himproper : Improper Options.names v) :
      ImproperValue t

/-- **Texts of options files that are improper**, with blanks around them. -/
inductive ImproperText (text : String) : Prop where
  | mk {before t after : List Char} (htext : text.toList = before ++ (t ++ after))
      (hbefore : Space before) (hafter : Space after) (h : ImproperValue t)

end Config

/-! ## §2 Options are read -/

namespace OutputFormat

theorem ofName?_eq_some_iff {s : String} {f : OutputFormat} : ofName? s = some f ↔ lower s = f.name := by
  unfold ofName?
  cases f with
  | text => split_ifs <;> simp_all [name]
  | json => split_ifs <;> simp_all [name]

theorem find_eq_ok_iff {s : String} {f : OutputFormat} : find s = .ok f ↔ lower s = f.name := by
  rw [← ofName?_eq_some_iff, find]
  cases ofName? s <;> simp

end OutputFormat

theorem FormatText.gives {f : OutputFormat} {t : List Char} (h : FormatText f t) :
    Gives (Json.readNamed OutputFormat.find) t f := by
  cases h with
  | mk hname h => exact Json.gives_readNamed h (OutputFormat.find_eq_ok_iff.mpr hname)

namespace Options

/-- Options with only those of some names. -/
def only (o : Options) (seen : List String) : Options :=
  ⟨if "format" ∈ seen then o.format else none, if "pretty" ∈ seen then o.pretty else none,
    if "prompt" ∈ seen then o.prompt else none, if "showEof" ∈ seen then o.showEof else none⟩

theorem names_eq : shape.fields.map Json.Field.name = names := rfl

theorem field?_eq_none_iff {name : String} : shape.field? name = none ↔ name ∉ names := by
  rw [Json.Shape.field?_eq_none_iff, names_eq]

theorem MemberText.isValue {o : Options} {name : String} {t : List Char} (h : o.MemberText name t)
    (hname : name ∉ names) : IsValue t := by
  cases h with
  | other _ h => exact h
  | _ => exact absurd hname (by decide)

theorem MemberText.fieldGiven {o : Options} {name : String} {t : List Char}
    (h : o.MemberText name t) {f : Json.Field Options} (hfield : shape.field? name = some f) :
    ∃ put, FieldGiven f t put ∧ ∀ seen, put (o.only seen) = o.only (name :: seen) := by
  cases h with
  | format h =>
    obtain rfl := Option.some.inj hfield
    refine ⟨_, Json.fieldGiven_optional (fun _ _ => FormatText.gives) h, ?_⟩
    simp [only]
  | pretty h =>
    obtain rfl := Option.some.inj hfield
    refine ⟨_, Json.fieldGiven_optional (fun _ _ => Json.gives_readBoolean) h, ?_⟩
    simp [only]
  | prompt h =>
    obtain rfl := Option.some.inj hfield
    refine ⟨_, Json.fieldGiven_optional (fun _ _ => Json.gives_readText) h, ?_⟩
    simp [only]
  | showEof h =>
    obtain rfl := Option.some.inj hfield
    refine ⟨_, Json.fieldGiven_optional (fun _ _ => Json.gives_readBoolean) h, ?_⟩
    simp [only]
  | other hname h =>
    rw [field?_eq_none_iff.mpr hname] at hfield
    cases hfield

/-- What members give of options is all that is set, if the options are given by the members. -/
theorem GivenBy.only_eq {o : Options} {ms : List (String × List Char)} (h : o.GivenBy ms)
    {seen : List String} (hseen : ∀ m ∈ ms, m.1 ∈ names → m.1 ∈ seen) : o.only seen = o := by
  have hnamed : ∀ name ∈ names, ∀ m ∈ ms, m.1 = name → m.1 ∈ seen := by
    rintro _ hname m hm rfl
    exact hseen m hm hname
  have hformat := Json.Shape.ite_mem_eq (hnamed "format" (by decide)) h.format
  have hpretty := Json.Shape.ite_mem_eq (hnamed "pretty" (by decide)) h.pretty
  have hprompt := Json.Shape.ite_mem_eq (hnamed "prompt" (by decide)) h.prompt
  have hshowEof := Json.Shape.ite_mem_eq (hnamed "showEof" (by decide)) h.showEof
  simp only [only, hformat, hpretty, hprompt, hshowEof]

theorem GivenBy.takes {o : Options} {ms : List (String × List Char)} (h : o.GivenBy ms) :
    shape.Takes [] (o.only []) ms o := by
  apply Json.Shape.takes_of_once
  · exact fun m hm f hf => (h.texts m hm).fieldGiven hf
  · exact fun m hm hname => (h.texts m hm).isValue hname
  · exact h.once
  · intro m _ hmem
    cases hmem
  · exact fun seen _ hseen => h.only_eq hseen

/-- **Options are read from each of their texts.** -/
theorem gives_of_spelling {o : Options} {t : List Char} (h : o.Spelling t) : Gives shape.read t o := by
  cases h with
  | record h hgiven => exact Json.Shape.gives_of_record h hgiven.takes
  | list h hformat hpretty hprompt hshowEof =>
    apply Json.Shape.gives_of_list h
    apply TakesInOrder.cons (Json.fieldGiven_optional (fun _ _ => FormatText.gives) hformat)
    apply TakesInOrder.cons (Json.fieldGiven_optional (fun _ _ => Json.gives_readBoolean) hpretty)
    apply TakesInOrder.cons (Json.fieldGiven_optional (fun _ _ => Json.gives_readText) hprompt)
    apply TakesInOrder.cons (Json.fieldGiven_optional (fun _ _ => Json.gives_readBoolean) hshowEof)
    exact .nil

theorem passesOver_fields : ∀ f ∈ shape.fields, PassesOver f.read := by
  intro f hf
  simp only [shape, List.mem_cons, List.not_mem_nil, or_false] at hf
  rcases hf with rfl | rfl | rfl | rfl
  · exact Json.passesOver_optional (Json.passesOver_readNamed _)
  · exact Json.passesOver_optional Json.passesOver_readBoolean
  · exact Json.passesOver_optional Json.passesOver_readText
  · exact Json.passesOver_optional Json.passesOver_readBoolean

end Options

/-! ## §3 Options files are read -/

namespace Config

/-- The content of an options file with only what has one of some names. -/
def only (c : Config) (seen : List String) : Config :=
  ⟨if "options" ∈ seen then c.options else none⟩

theorem names_eq : shape.fields.map Json.Field.name = names := rfl

theorem field?_eq_none_iff {name : String} : shape.field? name = none ↔ name ∉ names := by
  rw [Json.Shape.field?_eq_none_iff, names_eq]

theorem GivenBy.takes {c : Config} {ms : List (String × List Char)} (h : c.GivenBy ms) :
    shape.Takes [] (c.only []) ms c := by
  apply Json.Shape.takes_of_once
  · intro m hm f hf
    obtain ⟨name, t⟩ := m
    cases h.texts _ hm with
    | options h =>
      obtain rfl := Option.some.inj hf
      exact ⟨_, Json.fieldGiven_optional (fun _ _ => Options.gives_of_spelling) h, by simp [only]⟩
    | other hname h =>
      rw [field?_eq_none_iff.mpr hname] at hf
      cases hf
  · intro m hm hname
    obtain ⟨name, t⟩ := m
    cases h.texts _ hm with
    | options h => exact absurd hname (by simp [names_eq, names])
    | other _ h => exact h
  · exact h.once
  · intro m _ hmem
    cases hmem
  · intro seen _ hseen
    have hoptions : (if "options" ∈ seen then c.options else none) = c.options := by
      apply Json.Shape.ite_mem_eq _ h.options
      intro m hm hname
      apply hseen m hm
      rw [hname, names_eq]
      decide
    rw [only, hoptions]

/-- The content of an options file is read from each of its texts. -/
theorem gives_of_spelling {c : Config} {t : List Char} (h : c.Spelling t) : Gives shape.read t c := by
  cases h with
  | record h hgiven => exact Json.Shape.gives_of_record h hgiven.takes
  | list h hoptions =>
    apply Json.Shape.gives_of_list h
    apply TakesInOrder.cons (Json.fieldGiven_optional (fun _ _ => Options.gives_of_spelling) hoptions)
    exact .nil

/-- **Each text of an options file is read as what it spells.** -/
theorem parse_of_spelledBy {c : Config} {text : String} (h : c.SpelledBy text) :
    parse text = .ok c := by
  obtain ⟨htext, hbefore, hafter, h⟩ := h
  rename_i before t after
  have hend : Json.EndsNumber (after ++ []) := Json.EndsNumber.nil.space_append hafter
  have hskip : Json.skipBlanks (after ++ []) = [] := Json.skipBlanks_append hafter []
  have hread := (gives_of_spelling h).reads before (after ++ []) hbefore hend
  rw [List.append_nil] at hread hskip
  rw [parse, read, Json.Shape.readAll, htext, hread]
  simp only [hskip]

theorem passesOver_fields : ∀ f ∈ shape.fields, PassesOver f.read := by
  intro f hf
  simp only [shape, List.mem_cons, List.not_mem_nil, or_false] at hf
  rw [hf]
  exact Json.passesOver_optional (Json.Shape.passesOver_read Options.passesOver_fields)

/-- What gives the options improperly is refused as the value of the field. -/
theorem not_accepts_options {t : List Char} (h : Improper Options.names t) {f : Json.Field Config}
    (hf : shape.field? "options" = some f) : ¬ Accepts f.read t := by
  intro haccepts
  obtain rfl := Option.some.inj hf
  obtain ⟨c, more, rfl, hblank, hnull⟩ := h.opening
  have hoptions : Accepts Options.shape.read (c :: more) :=
    Json.accepts_of_optional haccepts hblank hnull
  exact Json.Shape.not_accepts_of_improper Options.passesOver_fields h hoptions

theorem not_accepts_of_improperValue {t : List Char} (h : ImproperValue t) :
    ¬ Accepts shape.read t := by
  intro haccepts
  -- the fault is in the file itself or in the value that gives the options
  cases h with
  | file h => exact Json.Shape.not_accepts_of_improper passesOver_fields h haccepts
  | member h hvalues hm hname himproper =>
    have hregular := Json.Shape.regular_of_accepts passesOver_fields h hvalues haccepts
    exact not_accepts_options himproper rfl (hregular.accepts hm rfl hname)
  | @element v _ h himproper =>
    have hvalues : ∀ w ∈ [v], IsValue w := by
      intro w hw
      rw [List.mem_singleton.mp hw]
      exact himproper.isValue
    cases Json.Shape.forall₂_of_accepts passesOver_fields h hvalues haccepts with
    | cons hoptions _ => exact not_accepts_options himproper rfl hoptions

/-- **Improper texts are refused.** -/
theorem parse_of_improperText {text : String} (h : ImproperText text) :
    ∃ f, parse text = .error (.invalid text f) := by
  obtain ⟨htext, hbefore, hafter, h⟩ := h
  rename_i before t after
  cases hread : shape.read text.toList with
  | error f =>
    refine ⟨f, ?_⟩
    rw [parse, read, Json.Shape.readAll, hread]
  | ok p =>
    have hend : Json.EndsNumber after := by
      have hnil := Json.EndsNumber.nil.space_append hafter
      rwa [List.append_nil] at hnil
    rw [htext] at hread
    exact absurd ⟨before, after, p, hbefore, hend, hread⟩ (not_accepts_of_improperValue h)

/-- **An options file is read for what it spells**, and it is the same content for each of its texts. No
text is read in which a field is given twice or fields are listed in a wrong number. -/
theorem parse_spellings :
    (∀ (c : Config) (text : String), c.SpelledBy text → parse text = .ok c) ∧
      ∀ text : String, ImproperText text → ∃ f, parse text = .error (.invalid text f) := by
  refine ⟨?_, ?_⟩
  · intro c text h
    exact parse_of_spelledBy h
  · intro text h
    exact parse_of_improperText h

/-- A name with an escape in it, beside a member that means nothing; and the same name given twice, with the
escape and without. -/
theorem parse_spellings_escaped_name :
    parse "\x7b\"x\":[\x7b\x7d] ,\n\"\\u006fptions\": [\"JSON\",null,\"\\ud83d\\ude00\",null]\x7d\n" =
        .ok ⟨some ⟨some .json, none, some "😀", none⟩⟩ ∧
      ∃ f, parse "\x7b\"options\":null,\"\\u006fptions\":null\x7d" =
        .error (.invalid "\x7b\"options\":null,\"\\u006fptions\":null\x7d" f) := by
  have hnil : Space [] := Json.Space.nil
  have hspace : Space [' '] := by simp [Space, isBlank]
  have hline : Space ['\n'] := by simp [Space, isBlank]
  have hdigit : ∀ n < 16, Json.IsHexDigit (Json.hexDigit n) n := fun n hn => ⟨hn, .inl rfl⟩
  have hplain : Named "options" "options".toList := Json.spells_self (by decide)
  have hescaped : Named "options" "\\u006fptions".toList := by
    have hunit : Json.CodeUnit ['0', '0', '6', 'f'] 'o'.toNat :=
      .mk (hdigit 0 (by decide)) (hdigit 0 (by decide)) (hdigit 6 (by decide)) (hdigit 15 (by decide))
    have hletters : Spells "ptions".toList "ptions".toList := Json.spells_self (by decide)
    exact @Spells.unit 'o' ['0', '0', '6', 'f'] _ _ hunit hletters
  have hface : Spells "\\ud83d\\ude00".toList "😀".toList := by
    have hfirst : Json.CodeUnit ['d', '8', '3', 'd'] (0xD800 + 61) :=
      .mk (hdigit 13 (by decide)) (hdigit 8 (by decide)) (hdigit 3 (by decide)) (hdigit 13 (by decide))
    have hsecond : Json.CodeUnit ['d', 'e', '0', '0'] (0xDC00 + 512) :=
      .mk (hdigit 13 (by decide)) (hdigit 14 (by decide)) (hdigit 0 (by decide)) (hdigit 0 (by decide))
    exact @Spells.pair '😀' 61 512 _ _ [] [] (by decide) (by decide) (by decide) hfirst hsecond .nil
  have hjson : Spells "JSON".toList "JSON".toList := Json.spells_self (by decide)
  -- the value of the member that means nothing
  have hvalue : IsValue ['[', '{', '}', ']'] := by
    have hrecord : IsValue ['{', '}'] := .record (.empty hnil) (by simp)
    have helement : Json.Element ['{', '}'] _ := .mk hnil hnil
    refine .list (.items (.one helement)) ?_
    simpa using hrecord
  have hspelled : Options.Spelling ⟨some .json, none, some "😀", none⟩
      "[\"JSON\",null,\"\\ud83d\\ude00\",null]".toList := by
    have hitem : ∀ v, Json.Element v _ := fun v => .mk hnil hnil
    exact .list (.items (.more (hitem _) (.more (hitem _) (.more (hitem _) (.one (hitem _))))))
      (.some (.mk (by decide) (.mk hjson))) .null (.some (.mk hface)) .null
  refine ⟨parse_spellings.1 _ _ ?_, parse_spellings.2 _ ?_⟩
  · have hx : Named "x" ['x'] := Json.spells_self (by decide)
    have hother : ∀ v, Json.Member Named ("x", v) _ := fun v => .mk hnil hx hnil hnil hspace
    have hgiven : ∀ v, Json.Member Named ("options", v) _ :=
      fun v => .mk hline hescaped hnil hspace hnil
    have hmembers := Json.CommaSeparated.more (hother ['[', '{', '}', ']'])
      (.one (hgiven "[\"JSON\",null,\"\\ud83d\\ude00\",null]".toList))
    refine .mk rfl hnil hline (.record (.items hmembers) ⟨?_, ?_, ?_⟩)
    · simp only [List.forall_mem_cons]
      exact ⟨.other (by decide) hvalue, .options (.some hspelled), by simp⟩
    · simp
    · simp
  · have hmember : Json.Member AsWritten ("options".toList, "null".toList) _ :=
      .mk hnil ⟨rfl, hplain.quotable⟩ hnil hnil hnil
    have hmember' : Json.Member AsWritten ("\\u006fptions".toList, "null".toList) _ :=
      .mk hnil ⟨rfl, hescaped.quotable⟩ hnil hnil hnil
    have hvalues : ∀ m ∈ [("options".toList, "null".toList), ("\\u006fptions".toList, "null".toList)],
        IsValue m.2 := by
      simp only [List.forall_mem_cons]
      exact ⟨.scalar .null, .scalar .null, by simp⟩
    have htext : ∀ text : String, text.toList = [] ++ (text.toList ++ []) :=
      fun text => (List.append_nil text.toList).symm
    refine .mk (htext _) hnil hnil (.file ?_)
    exact @Improper.twice names [] [] [] _ _ _ "options" (.items (.more hmember (.one hmember'))) hvalues
      (by decide) hplain hescaped

end Config

end LoxLexer
