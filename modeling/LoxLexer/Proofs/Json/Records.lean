import LoxLexer.Json.Record
import LoxLexer.Proofs.Json.Values

/-!
# Reading what is spelled

A reading function has to give the same value for all the texts of it, wherever they stand: with blanks
before them, and with anything after them that does not go on with a number. For scalars that is a matter
of their letters. A record is read member by member. What matters is what the members say, and
not how their names are spelled, what stands between them, or which other members there are.

* `Gives`: a reading function gives a value for a text.
* `Shape.gives_of_record`, `Shape.gives_of_list`: the two ways to give a record.
* `Shape.read_member`: a record is read as far as its first member.
-/

namespace LoxLexer.Json

variable {α ρ : Type}

/-! ## §1 Reading functions and texts -/

/-- **A reading function gives a value for a text.** The text is not that of `null`, which is read before
anything else is tried. -/
structure Gives (read : List Char → Read α) (t : List Char) (a : α) : Prop where
  begins : ∃ c more, t = c :: more ∧ BeginsValue c ∧ c ≠ 'n'
  reads : ∀ before rest, Space before → EndsNumber rest → read (before ++ (t ++ rest)) = .ok (a, rest)

/-- A value that may be left open: `null` is the text of one that is. -/
inductive Nullable (Text : α → List Char → Prop) : Option α → List Char → Prop where
  | null : Nullable Text none ['n', 'u', 'l', 'l']
  | some {a : α} {t : List Char} (h : Text a t) : Nullable Text (some a) t

/-- The texts of a boolean. -/
inductive BooleanText : Bool → List Char → Prop where
  | yes : BooleanText true ['t', 'r', 'u', 'e']
  | no : BooleanText false ['f', 'a', 'l', 's', 'e']

/-- The texts of the name of a member: its spellings as a string. -/
def Named (name : String) (t : List Char) : Prop :=
  Spells t name.toList

/-- The texts of a string: its spellings between quotes. -/
inductive StringText : String → List Char → Prop where
  | mk {s : String} {t : List Char} (h : Spells t s.toList) : StringText s ('"' :: (t ++ ['"']))

/-- A value that is not `null` is read as if it had to be there. -/
theorem readOptional_eq (read : List Char → Read α) {before : List Char} (hbefore : Space before)
    {c : Char} (hc : BeginsValue c) (hnull : c ≠ 'n') (cs : List Char) :
    readOptional read (before ++ c :: cs) = (read (c :: cs)).map fun p => (some p.1, p.2) := by
  rw [readOptional, skipBlanks_append hbefore, skipBlanks_cons hc.blank]
  split
  · next u hu => exact absurd (List.cons.inj hu).1 hnull
  · cases read (c :: cs) <;> rfl

theorem readOptional_append {read : List Char → Read α} {Text : α → List Char → Prop}
    (hread : ∀ a t, Text a t → Gives read t a) {x : Option α} {t : List Char} (h : Nullable Text x t)
    {before rest : List Char} (hbefore : Space before) (hrest : EndsNumber rest) :
    readOptional read (before ++ (t ++ rest)) = .ok (x, rest) := by
  cases h with
  | null =>
    have hblank : isBlank 'n' = false := by decide
    rw [readOptional, skipBlanks_append hbefore, List.cons_append, skipBlanks_cons hblank]
    simp only [readLiteral_append]
  | @some a t h =>
    -- the text cannot be taken for `null`
    obtain ⟨⟨c, more, rfl, hc, hnull⟩, hreads⟩ := hread a t h
    have hread := hreads [] rest Space.nil hrest
    rw [List.nil_append] at hread
    rw [List.cons_append, readOptional_eq read hbefore hc hnull, ← List.cons_append, hread]
    rfl

theorem gives_readBoolean {b : Bool} {t : List Char} (h : BooleanText b t) : Gives readBoolean t b := by
  cases h with
  | yes =>
    refine ⟨⟨'t', _, rfl, by decide, by decide⟩, ?_⟩
    intro before rest hbefore _
    rw [readBoolean, skipBlanks_append hbefore, List.cons_append, skipBlanks_cons (by decide)]
    simp only [readLiteral_append]
    rfl
  | no =>
    refine ⟨⟨'f', _, rfl, by decide, by decide⟩, ?_⟩
    intro before rest hbefore _
    rw [readBoolean, skipBlanks_append hbefore, List.cons_append, skipBlanks_cons (by decide)]
    simp only [readLiteral_append]
    rfl

theorem gives_readText {s : String} {t : List Char} (h : StringText s t) : Gives readText t s := by
  cases h with
  | mk h =>
    refine ⟨⟨'"', _, rfl, by decide, by decide⟩, ?_⟩
    intro before rest hbefore _
    rw [readText, skipBlanks_append hbefore, List.cons_append, skipBlanks_cons (by decide),
      List.append_assoc]
    simp only [List.singleton_append, readString_append h, Except.map, String.ofList_toList]

theorem gives_readNamed {find : String → Except String α} {s : String} {a : α} {t : List Char}
    (h : StringText s t) (hfind : find s = .ok a) : Gives (readNamed find) t a := by
  obtain ⟨hbegins, hreads⟩ := gives_readText h
  refine ⟨hbegins, ?_⟩
  intro before rest hbefore hrest
  simp only [readNamed, hreads before rest hbefore hrest, hfind]

/-- **A field is given by a text**, which reads as a change to the record. -/
structure FieldGiven (f : Field ρ) (t : List Char) (put : ρ → ρ) : Prop where
  begins : ∃ c more, t = c :: more ∧ BeginsValue c
  reads : ∀ before rest, Space before → EndsNumber rest →
    f.read (before ++ (t ++ rest)) = .ok (put, rest)

theorem fieldGiven_optional {name : String} {read : List Char → Read α} {hr : Shortens read}
    {put : Option α → ρ → ρ} {Text : α → List Char → Prop} (hread : ∀ a t, Text a t → Gives read t a)
    {x : Option α} {t : List Char} (h : Nullable Text x t) :
    FieldGiven (Field.optional name read hr put) t (put x) := by
  refine ⟨?_, ?_⟩
  · cases h with
    | null => exact ⟨'n', _, rfl, by decide⟩
    | some h =>
      obtain ⟨⟨c, more, rfl, hc, -⟩, -⟩ := hread _ _ h
      exact ⟨c, more, rfl, hc⟩
  · intro before rest hbefore hrest
    show (readOptional read _).map _ = _
    rw [readOptional_append hread h hbefore hrest]
    rfl

section

variable {name : String} {read : List Char → Read α} {hr : Shortens read} {put : Option α → ρ → ρ}
  {c : Char} {cs : List Char}

theorem Field.read_optional_ok (hc : BeginsValue c) (hnull : c ≠ 'n') {a : α} {rest : List Char}
    (h : read (c :: cs) = .ok (a, rest)) :
    (Field.optional name read hr put).read (c :: cs) = .ok (put (some a), rest) := by
  show (readOptional read ([] ++ c :: cs)).map _ = _
  rw [readOptional_eq read Space.nil hc hnull, h]
  rfl

/-- What is wrong with the value of a field is wrong with the field. -/
theorem Field.read_optional_error (hc : BeginsValue c) (hnull : c ≠ 'n') {e : Failure}
    (h : read (c :: cs) = .error e) : (Field.optional name read hr put).read (c :: cs) = .error e := by
  show (readOptional read ([] ++ c :: cs)).map _ = _
  rw [readOptional_eq read Space.nil hc hnull, h]
  rfl

end

namespace Shape

variable {shape : Shape ρ}

/-! ## §2 Members -/

/-- **What members come to**: each field that is given changes the record, and other members must be
values but do nothing. No field may come twice, nor one of those that have been `seen`. -/
inductive Takes (shape : Shape ρ) : List String → ρ → List (String × List Char) → ρ → Prop where
  | nil {seen : List String} {r : ρ} : Takes shape seen r [] r
  | known {seen : List String} {r r' : ρ} {name : String} {t : List Char} {f : Field ρ} {put : ρ → ρ}
      {ms : List (String × List Char)} (hfield : shape.field? name = some f) (hnew : name ∉ seen)
      (ht : FieldGiven f t put) (h : Takes shape (name :: seen) (put r) ms r') :
      Takes shape seen r ((name, t) :: ms) r'
  | other {seen : List String} {r r' : ρ} {name : String} {t : List Char}
      {ms : List (String × List Char)} (hfield : shape.field? name = none) (ht : IsValue t)
      (h : Takes shape seen r ms r') : Takes shape seen r ((name, t) :: ms) r'

/-- The members of a record are read one after the other. -/
theorem readMembers_eq (shape : Shape ρ) (first : Bool) (seen : List String) (acc : ρ)
    (cs : List Char) :
    shape.readMembers first seen acc cs =
      match skipBlanks cs with
      | [] => .error (.here .endOfRecord [])
      | c :: rest =>
        if c = '}' then .ok (acc, c :: rest)
        else
          (readNameStart first c rest).bind fun rest =>
          (readString rest).bind fun (name, rest) =>
            match shape.field? (String.ofList name) with
            | some field =>
              if seen.contains field.name then .error (.unplaced (.duplicateMember field.name) rest)
              else
                (readColon rest).bind fun rest => (field.read rest).bind fun (put, rest) =>
                  shape.readMembers false (field.name :: seen) (put acc) rest
            | none =>
              (readColon rest).bind fun rest => (skipValue rest).bind fun rest =>
                shape.readMembers false seen acc rest := by
  conv_lhs => rw [readMembers]
  split
  · next h => simp only [h]
  · next c rest h =>
    simp only [h]
    split
    · rfl
    · split
      · next f hf => simp only [hf, Except.bind]
      · next u hu =>
        simp only [hu, Except.bind]
        split
        · next f hf => simp only [hf]
        · next name v hv =>
          simp only [hv]
          cases hfield : shape.field? (String.ofList name) with
          | some field =>
            dsimp only
            split
            · rfl
            · split
              · next f hf => simp only [hf]
              · next w hw =>
                simp only [hw]
                split
                · next f hf => simp only [hf]
                · next put x hx => simp only [hx]
          | none =>
            dsimp only
            split
            · next f hf => simp only [hf]
            · next w hw =>
              simp only [hw]
              split
              · next f hf => simp only [hf]
              · next x hx => simp only [hx]

theorem readMembers_space (shape : Shape ρ) (first : Bool) (seen : List String) (acc : ρ)
    {blanks : List Char} (h : Space blanks) (cs : List Char) :
    shape.readMembers first seen acc (blanks ++ cs) = shape.readMembers first seen acc cs := by
  rw [readMembers_eq, skipBlanks_append h, ← readMembers_eq]

/-- How a member begins, as the first one or as a later one. -/
def beginning (first : Bool) : List Char :=
  if first then [] else [',']

/-- A member begins with a quote, which the blanks and the comma come before. -/
theorem readMembers_start (shape : Shape ρ) (first : Bool) (seen : List String) (acc : ρ)
    {before : List Char} (hbefore : Space before) (cs : List Char) :
    shape.readMembers first seen acc (beginning first ++ (before ++ '"' :: cs)) =
      (readString cs).bind fun (name, rest) =>
        match shape.field? (String.ofList name) with
        | some field =>
          if seen.contains field.name then .error (.unplaced (.duplicateMember field.name) rest)
          else
            (readColon rest).bind fun rest => (field.read rest).bind fun (put, rest) =>
              shape.readMembers false (field.name :: seen) (put acc) rest
        | none =>
          (readColon rest).bind fun rest => (skipValue rest).bind fun rest =>
            shape.readMembers false seen acc rest := by
  have hquote : isBlank '"' = false := by decide
  have hcomma : isBlank ',' = false := by decide
  rw [readMembers_eq]
  cases first with
  | true =>
    rw [beginning, if_pos rfl, List.nil_append, skipBlanks_append hbefore, skipBlanks_cons hquote]
    rfl
  | false =>
    rw [beginning, if_neg (by decide), List.singleton_append, skipBlanks_cons hcomma]
    simp only [readNameStart, skipBlanks_append hbefore, skipBlanks_cons hquote]
    rfl

/-- The name of a member and its colon. -/
theorem readMembers_name (shape : Shape ρ) (first : Bool) (seen : List String) (acc : ρ)
    {before name colon : List Char} {s : List Char} (hbefore : Space before)
    (hname : Spells name s) (hcolon : Space colon) (rest : List Char) :
    shape.readMembers first seen acc
        (beginning first ++ (before ++ '"' :: (name ++ '"' :: (colon ++ ':' :: rest)))) =
      match shape.field? (String.ofList s) with
      | some field =>
        if seen.contains field.name then
          .error (.unplaced (.duplicateMember field.name) (colon ++ ':' :: rest))
        else
          (field.read rest).bind fun (put, rest) =>
            shape.readMembers false (field.name :: seen) (put acc) rest
      | none => (skipValue rest).bind fun rest => shape.readMembers false seen acc rest := by
  rw [readMembers_start shape first seen acc hbefore]
  simp only [readString_append hname, Except.bind, readColon_append hcolon]

theorem exists_field?_iff {name : String} :
    (∃ f, shape.field? name = some f) ↔ name ∈ shape.fields.map Field.name := by
  rw [← Option.isSome_iff_exists, field?, List.find?_isSome]
  simp

theorem field?_eq_none_iff {name : String} :
    shape.field? name = none ↔ name ∉ shape.fields.map Field.name := by
  rw [← exists_field?_iff, ← Option.isSome_iff_exists, Option.not_isSome_iff_eq_none]

theorem name_of_field? {name : String} {f : Field ρ} (h : shape.field? name = some f) :
    f.name = name := by
  simpa using List.find?_some h

/-- **A member that is taken is read to its end**, whether it gives a field or not. -/
theorem readMembers_member {seen : List String} {r r' : ρ} {m : String × List Char}
    {ms : List (String × List Char)} {t : List Char} (h : Member Named m t)
    (htakes : shape.Takes seen r (m :: ms) r') (first : Bool) {rest : List Char}
    (hrest : EndsNumber rest) :
    ∃ seen' r₁, shape.Takes seen' r₁ ms r' ∧
      shape.readMembers first seen r (beginning first ++ (t ++ rest)) =
        shape.readMembers false seen' r₁ rest := by
  cases h with
  | @mk name before written colon between value after hbefore hname hcolon hbetween hafter =>
    have hstart := fun cs => readMembers_name shape first seen r hbefore hname hcolon cs
    rw [String.ofList_toList] at hstart
    have hend : EndsNumber (after ++ rest) := hrest.space_append hafter
    -- the blanks after the value are those before the next comma
    have hblanks := fun seen r => readMembers_space shape false seen r hafter rest
    simp only [List.append_assoc, List.cons_append]
    cases htakes with
    | @known _ _ _ _ _ f put _ hfield hnew ht h =>
      -- the record is changed, and the name is seen
      refine ⟨_, _, h, ?_⟩
      have hcontains : seen.contains name = false := by simpa using hnew
      rw [hstart, hfield]
      simp only [name_of_field? hfield, hcontains, ht.reads between _ hbetween hend, Except.bind, hblanks]
      rfl
    | other hfield ht h =>
      -- the value is passed over
      refine ⟨_, _, h, ?_⟩
      rw [hstart, hfield]
      simp only [skipValue_append hbetween ht hend, Except.bind, hblanks]

/-- **All members are read**, up to the closing brace. -/
theorem readMembers_append {ms : List (String × List Char)} {t : List Char}
    (h : CommaSeparated (Member Named) ms t) {seen : List String} {r r' : ρ}
    (htakes : shape.Takes seen r ms r') (first : Bool) (rest : List Char) :
    shape.readMembers first seen r (beginning first ++ (t ++ '}' :: rest)) = .ok (r', '}' :: rest) := by
  have hclosing : EndsNumber ('}' :: rest) := endsNumber_closing .record rest
  -- only the first member comes without a comma before it
  induction h generalizing seen r first with
  | one h =>
    obtain ⟨seen', r₁, hnil, hread⟩ := readMembers_member h htakes first hclosing
    cases hnil
    rw [hread, readMembers_eq, skipBlanks_cons (by decide)]
    rfl
  | @more m ms t u h _ ih =>
    obtain ⟨seen', r₁, hmore, hread⟩ :=
      readMembers_member h htakes first (endsNumber_comma (u ++ '}' :: rest))
    rw [List.append_assoc, List.cons_append, hread]
    exact ih hmore false

/-- **Members that are given once each come to a record**, if each of them adds its field to what there
is of it: `only seen` is the record as far as the fields in `seen` go. -/
theorem takes_of_once {only : List String → ρ} {r : ρ} {ms : List (String × List Char)}
    {seen : List String}
    (hknown : ∀ m ∈ ms, ∀ f, shape.field? m.1 = some f →
      ∃ put, FieldGiven f m.2 put ∧ ∀ seen, put (only seen) = only (m.1 :: seen))
    (hother : ∀ m ∈ ms, m.1 ∉ shape.fields.map Field.name → IsValue m.2)
    (honce : ms.Pairwise fun m m' => m.1 = m'.1 → m.1 ∉ shape.fields.map Field.name)
    (hnew : ∀ m ∈ ms, m.1 ∈ seen → m.1 ∉ shape.fields.map Field.name)
    (hall : ∀ seen', seen ⊆ seen' → (∀ m ∈ ms, m.1 ∈ shape.fields.map Field.name → m.1 ∈ seen') →
      only seen' = r) : shape.Takes seen (only seen) ms r := by
  induction ms generalizing seen with
  | nil =>
    rw [hall seen (List.Subset.refl seen) (by simp)]
    exact .nil
  | cons m ms ih =>
    rw [List.pairwise_cons] at honce
    have hknown' := fun m' hm' => hknown m' (List.mem_cons_of_mem m hm')
    have hother' := fun m' hm' => hother m' (List.mem_cons_of_mem m hm')
    cases hfield : shape.field? m.1 with
    | none =>
      -- a member that gives no field leaves what there is of the record
      have hname : m.1 ∉ shape.fields.map Field.name := field?_eq_none_iff.mp hfield
      apply Takes.other hfield (hother m List.mem_cons_self hname)
      apply ih hknown' hother' honce.2
      · exact fun m' hm' => hnew m' (List.mem_cons_of_mem m hm')
      · intro seen' hseen hms
        apply hall seen' hseen
        intro m' hm' hname'
        rcases List.mem_cons.mp hm' with rfl | hm'
        · exact absurd hname' hname
        · exact hms m' hm' hname'
    | some f =>
      have hname : m.1 ∈ shape.fields.map Field.name := exists_field?_iff.mp ⟨f, hfield⟩
      obtain ⟨put, hgiven, hput⟩ := hknown m List.mem_cons_self f hfield
      have hfresh : m.1 ∉ seen := fun hmem => hnew m List.mem_cons_self hmem hname
      apply Takes.known hfield hfresh hgiven
      rw [hput]
      apply ih hknown' hother' honce.2
      · intro m' hm' hmem
        rcases List.mem_cons.mp hmem with heq | hmem
        · rw [heq]
          exact honce.1 m' hm' heq.symm
        · exact hnew m' (List.mem_cons_of_mem m hm') hmem
      · intro seen' hseen hms
        have hcons := List.cons_subset.mp hseen
        apply hall seen' hcons.2
        intro m' hm' hname'
        rcases List.mem_cons.mp hm' with rfl | hm'
        · exact hcons.1
        · exact hms m' hm' hname'

/-- An option is kept if its member was seen, or if there is no such member and it is not set. -/
theorem ite_mem_eq {β : Type} {ms : List (String × List Char)} {seen : List String} {name : String}
    {x : Option β} (hseen : ∀ m ∈ ms, m.1 = name → m.1 ∈ seen)
    (hx : (∀ m ∈ ms, m.1 ≠ name) → x = none) : (if name ∈ seen then x else none) = x := by
  split
  · rfl
  · next hnot =>
    refine (hx ?_).symm
    intro m hm hname
    rw [← hname] at hnot
    exact hnot (hseen m hm hname)

/-! ## §3 Elements -/

/-- **What elements come to**: there is one for each field, and each of them changes the record. -/
inductive TakesInOrder : List (Field ρ) → ρ → List (List Char) → ρ → Prop where
  | nil {r : ρ} : TakesInOrder [] r [] r
  | cons {f : Field ρ} {fields : List (Field ρ)} {r r' : ρ} {t : List Char} {ts : List (List Char)}
      {put : ρ → ρ} (ht : FieldGiven f t put) (h : TakesInOrder fields (put r) ts r') :
      TakesInOrder (f :: fields) r (t :: ts) r'

/-- The text of an element begins behind the comma and the blanks before it. -/
theorem readElementStart_append (first : Bool) {blanks before : List Char} (hblanks : Space blanks)
    (hbefore : Space before) {c : Char} (hc : BeginsValue c) (cs : List Char) :
    ∃ d rest, skipBlanks (blanks ++ (beginning first ++ (before ++ c :: cs))) = d :: rest ∧ d ≠ ']' ∧
      readElementStart first d rest = .ok (c :: cs) := by
  have hcomma : isBlank ',' = false := by decide
  have hclosing : c ≠ ']' := hc.closing .list
  cases first with
  | true =>
    refine ⟨c, cs, ?_, hclosing, rfl⟩
    rw [beginning, if_pos rfl, List.nil_append, skipBlanks_append hblanks, skipBlanks_append hbefore,
      skipBlanks_cons hc.blank]
  | false =>
    refine ⟨',', before ++ c :: cs, ?_, by decide, ?_⟩
    · rw [beginning, if_neg (by decide), List.singleton_append, skipBlanks_append hblanks,
        skipBlanks_cons hcomma]
    · simp [readElementStart, skipBlanks_append hbefore, skipBlanks_cons hc.blank, hclosing]

theorem readElements_element (shape : Shape ρ) (fields : List (Field ρ)) {f : Field ρ} {put : ρ → ρ}
    {v t : List Char} (h : Element v t) (hv : FieldGiven f v put) (count : Nat) (r : ρ)
    {blanks rest : List Char} (hblanks : Space blanks) (hrest : EndsNumber rest) :
    ∃ blanks', Space blanks' ∧
      shape.readElements count r (f :: fields) (blanks ++ (beginning (count = 0) ++ (t ++ rest))) =
        shape.readElements (count + 1) (put r) fields (blanks' ++ rest) := by
  cases h with
  | @mk before _ after hbefore hafter =>
    refine ⟨after, hafter, ?_⟩
    obtain ⟨⟨c, more, rfl, hc⟩, hreads⟩ := hv
    obtain ⟨d, cs, hs, hd, hstart⟩ :=
      readElementStart_append (count = 0) hblanks hbefore hc (more ++ (after ++ rest))
    have hread := hreads [] (after ++ rest) Space.nil (hrest.space_append hafter)
    rw [List.nil_append, List.cons_append] at hread
    rw [List.append_assoc, List.append_assoc, List.cons_append, readElements, hs]
    simp only [if_neg hd, hstart, hread]

/-- **All elements are read**, up to the closing bracket or the blanks before it. -/
theorem readElements_append (shape : Shape ρ) {fields : List (Field ρ)} {vs : List (List Char)}
    {t : List Char} (h : CommaSeparated Element vs t) {r r' : ρ} (htakes : TakesInOrder fields r vs r')
    (count : Nat) {blanks : List Char} (hblanks : Space blanks) (rest : List Char) :
    ∃ blanks', Space blanks' ∧
      shape.readElements count r fields (blanks ++ (beginning (count = 0) ++ (t ++ ']' :: rest))) =
        .ok (r', blanks' ++ ']' :: rest) := by
  -- an element leaves the blanks after it to the next one
  induction h generalizing fields r count blanks with
  | one h =>
    cases htakes with
    | cons hv hnil =>
      cases hnil
      obtain ⟨blanks', hblanks', hread⟩ :=
        readElements_element shape [] h hv count r hblanks (endsNumber_closing .list rest)
      exact ⟨blanks', hblanks', hread⟩
  | @more v vs t u h _ ih =>
    cases htakes with
    | @cons f fields _ _ _ _ put hv hmore =>
      obtain ⟨blanks', hblanks', hread⟩ :=
        readElements_element shape fields h hv count r hblanks (endsNumber_comma (u ++ ']' :: rest))
      rw [List.append_assoc, List.cons_append, hread]
      exact ih hmore (count + 1) hblanks'

/-! ## §4 Records -/

theorem readEnd_closing (b : Bracket) {blanks : List Char} (h : Space blanks) (rest : List Char) :
    readEnd b (blanks ++ b.closing :: rest) = (rest, none) := by
  rw [readEnd, skipBlanks_append h, skipBlanks_cons (isBlank_closing b)]
  exact if_pos rfl

theorem finish_closing (b : Bracket) {blanks : List Char} (h : Space blanks) (r : ρ)
    (rest : List Char) : finish b (.ok (r, blanks ++ b.closing :: rest)) = .ok (r, rest) := by
  simp only [finish, readEnd_closing b h]

/-- **A record is read from its members**, in any order. -/
theorem gives_of_record {ms : List (String × List Char)} {t : List Char} (h : RecordOf Named ms t)
    {r : ρ} (htakes : shape.Takes [] shape.blank ms r) : Gives shape.read t r := by
  have hopening : BeginsValue '{' := by decide
  -- with and without members, the braces are read around what is between them
  have hread : ∀ t' rest, shape.readMembers true [] shape.blank (t' ++ '}' :: rest) = .ok (r, '}' :: rest) →
      ∀ before, Space before → shape.read (before ++ '{' :: (t' ++ '}' :: rest)) = .ok (r, rest) := by
    intro t' rest hmembers before hbefore
    rw [read, skipBlanks_append hbefore, skipBlanks_cons hopening.blank]
    simp only [if_true, hmembers]
    exact finish_closing .record Space.nil r rest
  cases h with
  | @empty blanks hblanks =>
    cases htakes
    refine ⟨⟨_, _, rfl, hopening, by decide⟩, ?_⟩
    intro before rest hbefore _
    have hmembers : shape.readMembers true [] shape.blank (blanks ++ '}' :: rest) =
        .ok (shape.blank, '}' :: rest) := by
      rw [readMembers_eq, skipBlanks_append hblanks, skipBlanks_cons (by decide)]
      rfl
    have hrecord := hread _ rest hmembers before hbefore
    rw [List.cons_append, List.append_assoc]
    exact hrecord
  | @items _ t h =>
    refine ⟨⟨_, _, rfl, hopening, by decide⟩, ?_⟩
    intro before rest hbefore _
    have hrecord := hread _ rest (readMembers_append h htakes true rest) before hbefore
    rw [List.cons_append, List.append_assoc]
    exact hrecord

/-- **A record is read from its fields in their order**, all of them. -/
theorem gives_of_list {vs : List (List Char)} {t : List Char} (h : ListOf vs t) {r : ρ}
    (htakes : TakesInOrder shape.fields shape.blank vs r) : Gives shape.read t r := by
  have hopening : BeginsValue '[' := by decide
  have hread : ∀ t' blanks rest, Space blanks →
      shape.readElements 0 shape.blank shape.fields (t' ++ ']' :: rest) = .ok (r, blanks ++ ']' :: rest) →
      ∀ before, Space before → shape.read (before ++ '[' :: (t' ++ ']' :: rest)) = .ok (r, rest) := by
    intro t' blanks rest hblanks helements before hbefore
    rw [read, skipBlanks_append hbefore, skipBlanks_cons hopening.blank]
    simp only [helements]
    exact finish_closing .list hblanks r rest
  cases h with
  | @empty blanks hblanks =>
    refine ⟨⟨_, _, rfl, hopening, by decide⟩, ?_⟩
    intro before rest hbefore _
    -- no elements are those of a record without fields
    have helements : shape.readElements 0 shape.blank shape.fields (blanks ++ ']' :: rest) =
        .ok (r, blanks ++ ']' :: rest) := by
      cases hfields : shape.fields with
      | nil =>
        rw [hfields] at htakes
        cases htakes
        rfl
      | cons f fields =>
        rw [hfields] at htakes
        cases htakes
    have hrecord := hread _ blanks rest hblanks helements before hbefore
    rw [List.cons_append, List.append_assoc]
    exact hrecord
  | @items _ t h =>
    refine ⟨⟨_, _, rfl, hopening, by decide⟩, ?_⟩
    intro before rest hbefore _
    obtain ⟨blanks, hblanks, helements⟩ := readElements_append shape h htakes 0 Space.nil rest
    have hrecord := hread _ blanks rest hblanks helements before hbefore
    rw [List.cons_append, List.append_assoc]
    exact hrecord

/-! ## §5 Records with one member -/

section

variable {f : Field ρ} {name : String} {written : List Char}

/-- A record is read as far as its first member, if the member has the name of a field. -/
theorem read_member (hfield : shape.field? name = some f) (hname : Named name written) (cs : List Char) :
    shape.read ('{' :: '"' :: (written ++ '"' :: ':' :: cs)) =
      finish .record ((f.read cs).bind fun (put, rest) =>
        shape.readMembers false [f.name] (put shape.blank) rest) := by
  have hmember := readMembers_name shape true [] shape.blank Space.nil hname Space.nil cs
  rw [String.ofList_toList, hfield] at hmember
  rw [read, skipBlanks_cons (by decide)]
  exact congrArg (finish .record) hmember

/-- A record with one member has the one field. -/
theorem read_one_member (hfield : shape.field? name = some f) (hname : Named name written)
    {put : ρ → ρ} {cs rest : List Char} (hread : f.read cs = .ok (put, '}' :: rest)) :
    shape.read ('{' :: '"' :: (written ++ '"' :: ':' :: cs)) = .ok (put shape.blank, rest) := by
  have hend : shape.readMembers false [f.name] (put shape.blank) ('}' :: rest) =
      .ok (put shape.blank, '}' :: rest) := by
    rw [readMembers_eq, skipBlanks_cons (by decide)]
    rfl
  rw [read_member hfield hname, hread]
  show finish .record (shape.readMembers false [f.name] (put shape.blank) ('}' :: rest)) = _
  rw [hend]
  exact finish_closing .record Space.nil _ rest

/-- What is wrong with the first member is placed by the end of the record. -/
theorem read_member_error (hfield : shape.field? name = some f) (hname : Named name written)
    {e : Failure} {cs : List Char} (hread : f.read cs = .error e) :
    shape.read ('{' :: '"' :: (written ++ '"' :: ':' :: cs)) = finish .record (.error e) := by
  rw [read_member hfield hname, hread]
  rfl

end

end Shape

end LoxLexer.Json
