import LoxLexer.Proofs.Number.Conversion
import LoxLexer.Proofs.Json.Strings

/-!
# Values as texts

Which texts are values of JSON: scalars, and the lists and records of values, with blanks wherever
nothing is cut in two by them. A name may come twice in a record, and what stands between quotes need
not spell a string.

* `IsValue`: the values, of any depth.
* `skipValue_append`: every value is passed over, up to its end.
-/

namespace LoxLexer.Json

/-! ## §1 The rules -/

/-- Blanks and nothing else. -/
def Space (t : List Char) : Prop :=
  ∀ c ∈ t, isBlank c = true

/-- Digits, at least one. -/
def Digits (ds : List Char) : Prop :=
  ds ≠ [] ∧ ∀ c ∈ ds, isDigit c = true

/-- **The numerals of JSON**: no zero comes before other digits, and there are digits wherever there can
be some. -/
structure IsNumeral (n : Numeral) : Prop where
  whole : n.whole = ['0'] ∨ Digits n.whole ∧ n.whole.head? ≠ some '0'
  fraction : ∀ ds ∈ n.fraction, Digits ds
  letter : ∀ x ∈ n.exponent, x.letter = 'e' ∨ x.letter = 'E'
  sign : ∀ x ∈ n.exponent, ∀ c ∈ x.sign, c = '+' ∨ c = '-'
  digits : ∀ x ∈ n.exponent, Digits x.digits

/-- Values without brackets. -/
inductive IsScalar : List Char → Prop where
  | null : IsScalar ['n', 'u', 'l', 'l']
  | yes : IsScalar ['t', 'r', 'u', 'e']
  | no : IsScalar ['f', 'a', 'l', 's', 'e']
  | string {t : List Char} (h : Quotable t) : IsScalar ('"' :: (t ++ ['"']))
  | number {n : Numeral} (h : IsNumeral n) : IsScalar n.text
  | negative {n : Numeral} (h : IsNumeral n) : IsScalar ('-' :: n.text)

/-- The character that opens a bracket. -/
def Bracket.opening : Bracket → Char
  | list => '['
  | record => '{'

section
variable {α : Type}

/-- Texts of items, with a comma between them. -/
inductive CommaSeparated (Item : α → List Char → Prop) : List α → List Char → Prop where
  | one {a : α} {t : List Char} (h : Item a t) : CommaSeparated Item [a] t
  | more {a : α} {as : List α} {t u : List Char} (h : Item a t) (hmore : CommaSeparated Item as u) :
      CommaSeparated Item (a :: as) (t ++ ',' :: u)

/-- Items between brackets. -/
inductive Enclosed (b : Bracket) (Item : α → List Char → Prop) : List α → List Char → Prop where
  | empty {t : List Char} (h : Space t) : Enclosed b Item [] (b.opening :: (t ++ [b.closing]))
  | items {as : List α} {t : List Char} (h : CommaSeparated Item as t) :
      Enclosed b Item as (b.opening :: (t ++ [b.closing]))

/-- An element of a list: a value with blanks around it. -/
inductive Element : List Char → List Char → Prop where
  | mk {before value after : List Char} (hbefore : Space before) (hafter : Space after) :
      Element value (before ++ (value ++ after))

/-- A member of a record: a name between quotes, a colon and a value, with blanks around them. -/
inductive Member (Named : α → List Char → Prop) : α × List Char → List Char → Prop where
  | mk {a : α} {before name colon between value after : List Char} (hbefore : Space before)
      (hname : Named a name) (hcolon : Space colon) (hbetween : Space between) (hafter : Space after) :
      Member Named (a, value)
        (before ++ '"' :: (name ++ '"' :: (colon ++ ':' :: (between ++ (value ++ after)))))

/-- The list of values, as a text. -/
abbrev ListOf : List (List Char) → List Char → Prop :=
  Enclosed .list Element

/-- The record of named values, as a text. -/
abbrev RecordOf (Named : α → List Char → Prop) : List (α × List Char) → List Char → Prop :=
  Enclosed .record (Member Named)

end

/-- A name that is known only as it is written. -/
def AsWritten (name t : List Char) : Prop :=
  t = name ∧ Quotable name

/-- **The values of JSON**, as texts. -/
inductive IsValue : List Char → Prop where
  | scalar {t : List Char} (h : IsScalar t) : IsValue t
  | list {vs : List (List Char)} {t : List Char} (h : ListOf vs t) (hv : ∀ v ∈ vs, IsValue v) :
      IsValue t
  | record {ms : List (List Char × List Char)} {t : List Char} (h : RecordOf AsWritten ms t)
      (hv : ∀ m ∈ ms, IsValue m.2) : IsValue t

/-- No number goes on with this text. -/
def EndsNumber (rest : List Char) : Prop :=
  ∀ c ∈ rest.head?, isDigit c = false ∧ c ≠ '.' ∧ c ≠ 'e' ∧ c ≠ 'E'

/-! ## §2 Blanks -/

theorem skipBlanks_append {t : List Char} (h : Space t) (cs : List Char) :
    skipBlanks (t ++ cs) = skipBlanks cs :=
  List.dropWhile_append_of_pos h

theorem skipBlanks_cons {c : Char} (h : isBlank c = false) (cs : List Char) :
    skipBlanks (c :: cs) = c :: cs := by
  rw [skipBlanks, List.dropWhile_cons_of_neg (by simp [h])]

theorem Space.nil : Space [] := by
  intro c hc
  cases hc

theorem endsNumber_cons {c : Char} {rest : List Char} (hdigit : isDigit c = false) (hpoint : c ≠ '.')
    (he : c ≠ 'e') (hE : c ≠ 'E') : EndsNumber (c :: rest) := by
  intro d hd
  obtain rfl : c = d := Option.some.inj hd
  exact ⟨hdigit, hpoint, he, hE⟩

theorem EndsNumber.nil : EndsNumber [] := by
  intro c hc
  cases hc

/-- No number goes on with blanks. -/
theorem EndsNumber.space_append {t rest : List Char} (ht : Space t) (h : EndsNumber rest) :
    EndsNumber (t ++ rest) := by
  cases t with
  | nil => exact h
  | cons c t =>
    have hc : isBlank c = true := ht c List.mem_cons_self
    rcases isBlank_iff.mp hc with rfl | rfl | rfl | rfl
    all_goals exact endsNumber_cons (by decide) (by decide) (by decide) (by decide)

/-! ## §3 Numbers -/

theorem readWhole_append {e : Cause} {n : Numeral} (h : IsNumeral n) {rest : List Char}
    (hrest : ∀ c ∈ rest.head?, isDigit c = false) :
    readWhole e (n.whole ++ rest) = .ok (n.whole, rest) := by
  rcases h.whole with hzero | ⟨⟨hne, hdigits⟩, hhead⟩
  · -- after a zero there must be no digit
    rw [hzero]
    have hany : rest.head?.any isDigit = false := by
      cases rest with
      | nil => rfl
      | cons c rest => exact hrest c rfl
    simp [readWhole, hany]
  · cases hwhole : n.whole with
    | nil => exact absurd hwhole hne
    | cons d ds =>
      rw [hwhole] at hdigits hhead
      have hd : d ≠ '0' := by simpa using hhead
      obtain ⟨htake, hdrop⟩ :=
        takeWhile_append_eq (fun c hc => hdigits c (List.mem_cons_of_mem d hc)) hrest
      rw [List.cons_append, readWhole, if_neg hd, if_pos (hdigits d List.mem_cons_self), htake, hdrop]

theorem Digits.exists_cons {ds : List Char} (h : Digits ds) :
    ∃ d more, ds = d :: more ∧ isDigit d = true ∧ ∀ c ∈ more, isDigit c = true := by
  obtain ⟨hne, hdigits⟩ := h
  cases ds with
  | nil => exact absurd rfl hne
  | cons d more =>
    exact ⟨d, more, rfl, hdigits d List.mem_cons_self, fun c hc => hdigits c (List.mem_cons_of_mem d hc)⟩

/-- The fraction of a numeral as text, with its point. -/
def fractionText (n : Numeral) : List Char :=
  match n.fraction with
  | none => []
  | some ds => '.' :: ds

theorem readFraction_append {e : Cause} {n : Numeral} (h : IsNumeral n) {rest : List Char}
    (hpoint : rest.head? ≠ some '.') (hrest : ∀ c ∈ rest.head?, isDigit c = false) :
    readFraction e (fractionText n ++ rest) = .ok (n.fraction, rest) := by
  cases hfraction : n.fraction with
  | none =>
    have hnone : fractionText n = [] := by rw [fractionText, hfraction]
    rw [hnone]
    cases rest with
    | nil => rfl
    | cons c rest =>
      have hc : c ≠ '.' := by simpa using hpoint
      simp [readFraction, hc]
  | some ds =>
    have hsome : fractionText n = '.' :: ds := by rw [fractionText, hfraction]
    have hds : Digits ds := h.fraction ds hfraction
    obtain ⟨htake, hdrop⟩ := takeWhile_append_eq hds.2 hrest
    obtain ⟨d, more, rfl, hd, -⟩ := hds.exists_cons
    rw [hsome, List.cons_append, readFraction, htake, hdrop]
    simp [hd]

theorem readExponentDigits_append {e : Cause} {ds : List Char} (h : Digits ds) {rest : List Char}
    (hrest : ∀ c ∈ rest.head?, isDigit c = false) :
    readExponentDigits e (ds ++ rest) = .ok (ds, rest) := by
  obtain ⟨d, more, rfl, hd, hmore⟩ := h.exists_cons
  obtain ⟨htake, hdrop⟩ := takeWhile_append_eq hmore hrest
  rw [List.cons_append, readExponentDigits, if_pos hd, htake, hdrop]

/-- The exponent of a numeral as text. -/
def exponentText (n : Numeral) : List Char :=
  match n.exponent with
  | none => []
  | some x => x.text

theorem readExponent_append {e : Cause} {n : Numeral} (h : IsNumeral n) {rest : List Char}
    (hrest : EndsNumber rest) : readExponent e (exponentText n ++ rest) = .ok (n.exponent, rest) := by
  cases hexponent : n.exponent with
  | none =>
    have hnone : exponentText n = [] := by rw [exponentText, hexponent]
    rw [hnone]
    cases rest with
    | nil => rfl
    | cons c rest =>
      obtain ⟨-, -, he, hE⟩ := hrest c rfl
      simp [readExponent, he, hE]
  | some x =>
    have hsome : exponentText n = x.text := by rw [exponentText, hexponent]
    have hdigits := h.digits x hexponent
    have hletter : (x.letter = 'e' || x.letter = 'E') = true := by simpa using h.letter x hexponent
    -- the sign ends where the digits begin, of which there are some
    have hsign : Exponent.readSign (x.sign.toList ++ (x.digits ++ rest)) = (x.sign, x.digits ++ rest) := by
      apply Exponent.readSign_toList_append (h.sign x hexponent)
      obtain ⟨d, more, hx, hd, -⟩ := hdigits.exists_cons
      rw [hx]
      intro c hc
      obtain rfl : d = c := Option.some.inj hc
      exact hd
    rw [hsome, Exponent.text, List.cons_append, List.append_assoc, readExponent, if_pos hletter, hsign]
    simp only [readExponentDigits_append hdigits fun c hc => (hrest c hc).1]

/-- What comes after the whole part of a numeral begins with no digit, and where there is no fraction
with no point either. -/
theorem head?_exponentText_append {n : Numeral} (h : IsNumeral n) {rest : List Char}
    (hrest : EndsNumber rest) {c : Char} (hc : c ∈ (exponentText n ++ rest).head?) :
    isDigit c = false ∧ c ≠ '.' := by
  cases hexponent : n.exponent with
  | none =>
    have hnone : exponentText n = [] := by rw [exponentText, hexponent]
    rw [hnone] at hc
    exact ⟨(hrest c hc).1, (hrest c hc).2.1⟩
  | some x =>
    have hsome : exponentText n = x.text := by rw [exponentText, hexponent]
    rw [hsome] at hc
    obtain rfl : x.letter = c := Option.some.inj hc
    rcases h.letter x hexponent with hx | hx
    · rw [hx]
      decide
    · rw [hx]
      decide

/-- **A numeral is read to its end**, if no number goes on with what follows. -/
theorem readNumeral_append {e : Cause} {n : Numeral} (h : IsNumeral n) {rest : List Char}
    (hrest : EndsNumber rest) : readNumeral e (n.text ++ rest) = .ok (n, rest) := by
  have htext : n.text ++ rest = n.whole ++ (fractionText n ++ (exponentText n ++ rest)) := by
    rw [Numeral.text, List.append_assoc, List.append_assoc]
    rfl
  -- each part ends where the next one begins, and that is where no digit comes
  have hhead := fun c => head?_exponentText_append (c := c) h hrest
  have hfraction : readFraction e (fractionText n ++ (exponentText n ++ rest)) =
      .ok (n.fraction, exponentText n ++ rest) :=
    readFraction_append h (fun hpoint => (hhead _ hpoint).2 rfl) fun c hc => (hhead c hc).1
  have hwhole : ∀ c ∈ (fractionText n ++ (exponentText n ++ rest)).head?, isDigit c = false := by
    intro c hc
    cases hpoint : n.fraction with
    | none =>
      have hnone : fractionText n = [] := by rw [fractionText, hpoint]
      rw [hnone] at hc
      exact (hhead c hc).1
    | some ds =>
      have hsome : fractionText n = '.' :: ds := by rw [fractionText, hpoint]
      rw [hsome] at hc
      obtain rfl : '.' = c := Option.some.inj hc
      decide
  simp only [htext, readNumeral, readWhole_append h hwhole, hfraction, readExponent_append h hrest]

/-! ## §4 Passing over scalars -/

theorem readLiteral_append (letters rest : List Char) :
    readLiteral letters (letters ++ rest) = .ok rest := by
  induction letters with
  | nil => rfl
  | cons l ls ih => rw [List.cons_append, readLiteral, if_pos rfl, ih]

theorem skipNumber_append {n : Numeral} (h : IsNumeral n) {rest : List Char}
    (hrest : EndsNumber rest) : skipNumber (n.text ++ rest) = .ok rest := by
  rw [skipNumber, readNumeral_append h hrest]
  rfl

theorem IsNumeral.exists_cons {n : Numeral} (h : IsNumeral n) :
    ∃ d more, n.text = d :: more ∧ isDigit d = true := by
  have hwhole : Digits n.whole := by
    rcases h.whole with hzero | ⟨hdigits, -⟩
    · rw [hzero]
      exact ⟨List.cons_ne_nil _ _, List.forall_mem_singleton.mpr rfl⟩
    · exact hdigits
  obtain ⟨d, more, hd, hdigit, -⟩ := hwhole.exists_cons
  have htext : n.text = d :: (more ++ (fractionText n ++ exponentText n)) := by
    rw [Numeral.text, hd, List.append_assoc]
    rfl
  exact ⟨d, _, htext, hdigit⟩

/-- What a value can begin with: no blank, and nothing that closes a bracket. -/
structure BeginsValue (c : Char) : Prop where
  blank : isBlank c = false
  closing : ∀ b : Bracket, c ≠ b.closing

instance (c : Char) : Decidable (BeginsValue c) :=
  decidable_of_iff (isBlank c = false ∧ c ≠ ']' ∧ c ≠ '}')
    ⟨fun h => ⟨h.1, fun b => by cases b <;> simp [Bracket.closing, h.2]⟩,
      fun h => ⟨h.blank, h.closing .list, h.closing .record⟩⟩

theorem beginsValue_of_isDigit {c : Char} (h : isDigit c = true) : BeginsValue c := by
  refine ⟨?_, ?_⟩
  · cases hblank : isBlank c with
    | false => rfl
    | true => rcases isBlank_iff.mp hblank with rfl | rfl | rfl | rfl <;> exact absurd h (by decide)
  · rintro b rfl
    cases b <;> exact absurd h (by decide)

theorem skipScalar_of_isDigit {d : Char} (h : isDigit d = true) (cs : List Char) :
    skipScalar d cs = skipNumber (d :: cs) := by
  have hne : ∀ c, isDigit c = false → d ≠ c := by
    rintro c hc rfl
    simp [h] at hc
  rw [skipScalar, if_neg (hne 'n' (by decide)), if_neg (hne 't' (by decide)),
    if_neg (hne 'f' (by decide)), if_neg (hne '"' (by decide)), if_neg (hne '-' (by decide)), if_pos h]

/-- **A scalar is passed over to its end.** It begins with a character that opens no bracket. -/
theorem IsScalar.skipScalar_eq {t : List Char} (h : IsScalar t) :
    ∃ c more, t = c :: more ∧ BeginsValue c ∧ (c ≠ '[' ∧ c ≠ '{') ∧
      ∀ rest, EndsNumber rest → skipScalar c (more ++ rest) = .ok rest := by
  cases h with
  | null =>
    refine ⟨'n', _, rfl, by decide, by decide, ?_⟩
    intro rest _
    exact readLiteral_append ['u', 'l', 'l'] rest
  | yes =>
    refine ⟨'t', _, rfl, by decide, by decide, ?_⟩
    intro rest _
    exact readLiteral_append ['r', 'u', 'e'] rest
  | no =>
    refine ⟨'f', _, rfl, by decide, by decide, ?_⟩
    intro rest _
    exact readLiteral_append ['a', 'l', 's', 'e'] rest
  | @string t h =>
    refine ⟨'"', _, rfl, by decide, by decide, ?_⟩
    intro rest _
    rw [List.append_assoc]
    exact skipString_append h rest
  | negative h =>
    refine ⟨'-', _, rfl, by decide, by decide, ?_⟩
    intro rest hrest
    exact skipNumber_append h hrest
  | @number n h =>
    obtain ⟨d, more, htext, hd⟩ := h.exists_cons
    refine ⟨d, more, htext, beginsValue_of_isDigit hd, ⟨?_, ?_⟩, ?_⟩
    · rintro rfl
      exact absurd hd (by decide)
    · rintro rfl
      exact absurd hd (by decide)
    · intro rest hrest
      rw [skipScalar_of_isDigit hd, ← List.cons_append, ← htext]
      exact skipNumber_append h hrest

/-! ## §5 Passing over values -/

theorem skipFrom_value_eq (opened : List Bracket) (cs : List Char) :
    skipFrom .value opened cs =
      match skipBlanks cs with
      | [] => .error (.here .endOfValue [])
      | c :: rest =>
        if c = '[' then skipFrom .firstItem (.list :: opened) rest
        else if c = '{' then skipFrom .firstItem (.record :: opened) rest
        else (skipScalar c rest).bind (skipFrom .separator opened) := by
  conv_lhs => rw [skipFrom]
  split
  · next h => simp only [h]
  · next c rest h =>
    simp only [h]
    split
    · rfl
    · split
      · rfl
      · split <;> next hs => simp only [hs, Except.bind]

theorem skipFrom_firstItem_eq (b : Bracket) (outer : List Bracket) (cs : List Char) :
    skipFrom .firstItem (b :: outer) cs =
      match skipBlanks cs with
      | [] => .error (.here b.endOfText [])
      | c :: rest =>
        if c = b.closing then skipFrom .separator outer rest
        else (b.skipToValue (c :: rest)).bind (skipFrom .value (b :: outer)) := by
  conv_lhs => rw [skipFrom]
  split
  · next h => simp only [h]
  · next c rest h =>
    simp only [h]
    split
    · rfl
    · split <;> next hs => simp only [hs, Except.bind]

theorem skipFrom_separator_eq (b : Bracket) (outer : List Bracket) (cs : List Char) :
    skipFrom .separator (b :: outer) cs =
      match skipBlanks cs with
      | [] => .error (.here b.endOfText [])
      | c :: rest =>
        if c = b.closing then skipFrom .separator outer rest
        else if c = ',' then (b.skipToValue rest).bind (skipFrom .value (b :: outer))
        else .error (.next b.expectedAfterValue (c :: rest)) := by
  conv_lhs => rw [skipFrom]
  split
  · next h => simp only [h]
  · next c rest h =>
    simp only [h]
    split
    · rfl
    · split
      · split <;> next hs => simp only [hs, Except.bind]
      · rfl

theorem skipFrom_separator_nil (cs : List Char) : skipFrom .separator [] cs = .ok cs := by
  rw [skipFrom]
  intro h
  cases h

theorem skipFrom_value_space (opened : List Bracket) {before : List Char} (h : Space before)
    (cs : List Char) : skipFrom .value opened (before ++ cs) = skipFrom .value opened cs := by
  rw [skipFrom_value_eq, skipBlanks_append h, ← skipFrom_value_eq]

theorem skipFrom_separator_space (b : Bracket) (outer : List Bracket) {before : List Char}
    (h : Space before) (cs : List Char) :
    skipFrom .separator (b :: outer) (before ++ cs) = skipFrom .separator (b :: outer) cs := by
  rw [skipFrom_separator_eq, skipBlanks_append h, ← skipFrom_separator_eq]

theorem isBlank_closing (b : Bracket) : isBlank b.closing = false := by
  cases b <;> rfl

theorem skipFrom_separator_closing (b : Bracket) (outer : List Bracket) (rest : List Char) :
    skipFrom .separator (b :: outer) (b.closing :: rest) = skipFrom .separator outer rest := by
  rw [skipFrom_separator_eq, skipBlanks_cons (isBlank_closing b)]
  exact if_pos rfl

theorem skipFrom_separator_comma (b : Bracket) (outer : List Bracket) (cs : List Char) :
    skipFrom .separator (b :: outer) (',' :: cs) =
      (b.skipToValue cs).bind (skipFrom .value (b :: outer)) := by
  rw [skipFrom_separator_eq, skipBlanks_cons (by decide)]
  cases b <;> rfl

/-- A text that is passed over as a value, up to its end. -/
structure Skipped (v : List Char) : Prop where
  begins : ∃ c more, v = c :: more ∧ BeginsValue c
  skip : ∀ opened rest, EndsNumber rest →
    skipFrom .value opened (v ++ rest) = skipFrom .separator opened rest

/-- A text that is passed over within a bracket, as its first items or as later ones. -/
structure Bracket.Passes (b : Bracket) (t : List Char) : Prop where
  first : ∀ outer rest, EndsNumber rest →
    skipFrom .firstItem (b :: outer) (t ++ rest) = skipFrom .separator (b :: outer) rest
  later : ∀ outer rest, EndsNumber rest →
    skipFrom .separator (b :: outer) (',' :: (t ++ rest)) = skipFrom .separator (b :: outer) rest

theorem IsScalar.skipped {t : List Char} (h : IsScalar t) : Skipped t := by
  obtain ⟨c, more, rfl, hc, ⟨hlist, hrecord⟩, hskip⟩ := h.skipScalar_eq
  refine ⟨⟨c, more, rfl, hc⟩, ?_⟩
  intro opened rest hrest
  rw [skipFrom_value_eq, List.cons_append, skipBlanks_cons hc.blank]
  simp only [hlist, hrecord, if_false, hskip rest hrest]
  rfl

theorem Element.passes {v t : List Char} (h : Element v t) (hv : Skipped v) :
    Bracket.list.Passes t := by
  cases h with
  | @mk before _ after hbefore hafter =>
    obtain ⟨⟨c, more, rfl, hc⟩, hskip⟩ := hv
    -- the value and the blanks after it
    have hvalue : ∀ outer rest, EndsNumber rest →
        skipFrom .value (.list :: outer) (before ++ (c :: more ++ (after ++ rest))) =
          skipFrom .separator (.list :: outer) rest := by
      intro outer rest hrest
      rw [skipFrom_value_space _ hbefore, hskip _ _ (hrest.space_append hafter),
        skipFrom_separator_space _ _ hafter]
    refine ⟨?_, ?_⟩
    · intro outer rest hrest
      -- a first element is told from the end of the list by how it begins
      have hclosing : c ≠ Bracket.list.closing := hc.closing .list
      have hfirst := hvalue outer rest hrest
      rw [skipFrom_value_space _ hbefore] at hfirst
      rw [skipFrom_firstItem_eq, List.append_assoc, List.append_assoc, skipBlanks_append hbefore,
        List.cons_append, skipBlanks_cons hc.blank]
      simp only [if_neg hclosing]
      exact hfirst
    · intro outer rest hrest
      rw [skipFrom_separator_comma, List.append_assoc, List.append_assoc]
      exact hvalue outer rest hrest

theorem readColon_append {colon : List Char} (h : Space colon) (rest : List Char) :
    readColon (colon ++ ':' :: rest) = .ok rest := by
  rw [readColon, skipBlanks_append h, skipBlanks_cons (by decide)]
  rfl

theorem Member.passes {m : List Char × List Char} {t : List Char} (h : Member AsWritten m t)
    (hv : Skipped m.2) : Bracket.record.Passes t := by
  cases h with
  | @mk _ before name colon between value after hbefore hname hcolon hbetween hafter =>
    obtain ⟨rfl, hquotable⟩ := hname
    -- the name and its colon, for a text with or without the blanks before them
    have hlead : ∀ rest, skipName ('"' :: (name ++ '"' :: (colon ++ ':' :: rest))) = .ok rest := by
      intro rest
      rw [skipName, skipBlanks_cons (by decide)]
      simp only [if_pos, skipString_append hquotable, readColon_append hcolon]
    have hname : ∀ rest, skipName (before ++ '"' :: (name ++ '"' :: (colon ++ ':' :: rest))) =
        .ok rest := by
      intro rest
      rw [← hlead rest, skipName, skipName, skipBlanks_append hbefore]
    have hvalue : ∀ outer rest, EndsNumber rest →
        skipFrom .value (.record :: outer) (between ++ (value ++ (after ++ rest))) =
          skipFrom .separator (.record :: outer) rest := by
      intro outer rest hrest
      rw [skipFrom_value_space _ hbetween, hv.skip _ _ (hrest.space_append hafter),
        skipFrom_separator_space _ _ hafter]
    refine ⟨?_, ?_⟩
    · intro outer rest hrest
      simp only [List.append_assoc, List.cons_append]
      rw [skipFrom_firstItem_eq, skipBlanks_append hbefore, skipBlanks_cons (by decide)]
      simp only [Bracket.skipToValue, hlead]
      exact (if_neg (by decide)).trans (hvalue outer rest hrest)
    · intro outer rest hrest
      simp only [List.append_assoc, List.cons_append]
      rw [skipFrom_separator_comma, Bracket.skipToValue, hname]
      exact hvalue outer rest hrest

theorem endsNumber_comma (rest : List Char) : EndsNumber (',' :: rest) :=
  endsNumber_cons (by decide) (by decide) (by decide) (by decide)

theorem endsNumber_closing (b : Bracket) (rest : List Char) : EndsNumber (b.closing :: rest) := by
  cases b <;> exact endsNumber_cons (by decide) (by decide) (by decide) (by decide)

section
variable {α : Type} {Item : α → List Char → Prop} {b : Bracket} {as : List α} {t : List Char}

/-- **Items are passed over together** if each of them is passed over. -/
theorem CommaSeparated.passes (h : CommaSeparated Item as t)
    (hitem : ∀ a ∈ as, ∀ u, Item a u → b.Passes u) : b.Passes t := by
  -- the comma between two items belongs to the second one
  induction h with
  | one h => exact hitem _ List.mem_cons_self _ h
  | @more a as t u h _ ih =>
    have ha := hitem a List.mem_cons_self t h
    have has := ih fun x hx => hitem x (List.mem_cons_of_mem a hx)
    refine ⟨?_, ?_⟩
    · intro outer rest hrest
      rw [List.append_assoc, List.cons_append, ha.first _ _ (endsNumber_comma _), has.later _ _ hrest]
    · intro outer rest hrest
      rw [List.append_assoc, List.cons_append, ha.later _ _ (endsNumber_comma _), has.later _ _ hrest]

theorem Enclosed.opening (h : Enclosed b Item as t) : ∃ more, t = b.opening :: more := by
  cases h <;> exact ⟨_, rfl⟩

theorem Enclosed.skipped (h : Enclosed b Item as t)
    (hitem : ∀ a ∈ as, ∀ u, Item a u → b.Passes u) : Skipped t := by
  have hbegins : BeginsValue b.opening := by
    cases b <;> decide
  have hopening : ∀ opened cs,
      skipFrom .value opened (b.opening :: cs) = skipFrom .firstItem (b :: opened) cs := by
    intro opened cs
    rw [skipFrom_value_eq, skipBlanks_cons hbegins.blank]
    cases b <;> rfl
  cases h with
  | @empty t h =>
    refine ⟨⟨_, _, rfl, hbegins⟩, ?_⟩
    intro opened rest _
    rw [List.cons_append, List.append_assoc, hopening, skipFrom_firstItem_eq, skipBlanks_append h,
      List.singleton_append, skipBlanks_cons (isBlank_closing b)]
    exact if_pos rfl
  | @items _ t h =>
    refine ⟨⟨_, _, rfl, hbegins⟩, ?_⟩
    intro opened rest _
    rw [List.cons_append, List.append_assoc, hopening, List.singleton_append,
      (h.passes hitem).first _ _ (endsNumber_closing b _), skipFrom_separator_closing]

end

/-- **Values are passed over**, whatever brackets are open around them. -/
theorem IsValue.skipped {v : List Char} (h : IsValue v) : Skipped v := by
  -- on the depth of brackets, each of which passes its items over
  induction h with
  | scalar h => exact h.skipped
  | list h _ ih => exact h.skipped fun v hv u hu => hu.passes (ih v hv)
  | record h _ ih => exact h.skipped fun m hm u hu => hu.passes (ih m hm)

theorem skipValue_append {before v rest : List Char} (hbefore : Space before) (hv : IsValue v)
    (hrest : EndsNumber rest) : skipValue (before ++ (v ++ rest)) = .ok rest := by
  rw [skipValue, skipFrom_value_space _ hbefore, hv.skipped.skip _ _ hrest, skipFrom_separator_nil]

end LoxLexer.Json
