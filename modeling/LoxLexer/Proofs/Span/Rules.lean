import Mathlib.Data.List.TakeWhile
import LoxLexer.Proofs.Span.Lexeme

/-!
# The rules of spans

What a span is, said without saying how it is found: a text, its outcome, and the one character of
look-ahead that may have a say in it. The rules come in three groups, one for each outcome, and a text
has to be cut into spans by them.

* `Step.reads_of`: the span that a character begins follows the rules.
* `Step.of_eq_of_reads`: whatever follows the rules at the front of a text is the span cut from it.
-/

namespace LoxLexer

/-! ## §1 The rules -/

/-- Spans that stand for nothing: a blank, a slash without a second one, and a comment, which goes on
up to the end of its line. -/
inductive Silent : List Char → Option Char → Prop where
  | blank {c : Char} {next : Option Char} (hc : isBlank c = true) : Silent [c] next
  | slash {next : Option Char} (hnext : next ≠ some '/') : Silent ['/'] next
  | comment {body : List Char} {next : Option Char} (hbody : '\n' ∉ body)
      (hnext : ∀ c ∈ next, c = '\n') : Silent ('/' :: '/' :: body) next

/-- Characters that begin no span of another kind. -/
structure Unexpected (c : Char) : Prop where
  blank : isBlank c = false
  slash : c ≠ '/'
  quote : c ≠ '"'
  digit : isDigit c = false
  word : isWordStart c = false
  mark : ∀ m : Mark, m.char ≠ c
  operator : ∀ o : Operator, o.char ≠ c

/-- Spans that stand for a fault. -/
inductive Faulty : List Char → Fault → Option Char → Prop where
  | unexpected {c : Char} {next : Option Char} (hc : Unexpected c) :
      Faulty [c] (.unexpectedCharacter c) next
  | emptyString {next : Option Char} : Faulty ['"', '"'] .unterminatedString next
  | openString {body : List Char} (hbody : '"' ∉ body) :
      Faulty ('"' :: body) .unterminatedString none
  | loneDigit {d c : Char} (hd : NumberLexeme.EndsAt [d] (some c)) :
      Faulty [d] .invalidNumberFormat (some c)

/-- **The rules of spans**: a text has an outcome where a character, or nothing, follows it. -/
inductive Reads : List Char → Outcome → Option Char → Prop where
  | silent {text : List Char} {next : Option Char} (h : Silent text next) : Reads text .skipped next
  | faulty {text : List Char} {f : Fault} {next : Option Char} (h : Faulty text f next) :
      Reads text (.fault f) next
  | lexeme {next : Option Char} (l : Lexeme) (h : l.EndsAt next) :
      Reads l.text (.token l.kind l.literal) next

/-! ## §2 Cutting at a character -/

variable {α : Type*} {p : α → Bool}

theorem of_mem_head?_dropWhile {l : List α} {a : α} (h : a ∈ (l.dropWhile p).head?) :
    p a = false := by
  have hnot := List.head?_dropWhile_not p l
  rw [Option.mem_def.mp h] at hnot
  exact hnot

/-- A text is cut after the characters of a class if the next one is not of the class. -/
theorem takeWhile_append_eq {u v : List α} (hu : ∀ a ∈ u, p a = true)
    (hv : ∀ a ∈ v.head?, p a = false) :
    (u ++ v).takeWhile p = u ∧ (u ++ v).dropWhile p = v := by
  rw [List.takeWhile_append_of_pos hu, List.dropWhile_append_of_pos hu]
  cases v with
  | nil => simp
  | cons a v => simp [hv a rfl]

/-- A text is cut in one way after the characters of a class. -/
theorem eq_of_append_eq {u v w x : List α} (hu : ∀ a ∈ u, p a = true) (hv : ∀ a ∈ v, p a = true)
    (hw : ∀ a ∈ w.head?, p a = false) (hx : ∀ a ∈ x.head?, p a = false) (h : u ++ w = v ++ x) :
    u = v ∧ w = x := by
  obtain ⟨htake, hdrop⟩ := takeWhile_append_eq hu hw
  obtain ⟨htake', hdrop'⟩ := takeWhile_append_eq hv hx
  rw [h, htake'] at htake
  rw [h, hdrop'] at hdrop
  exact ⟨htake.symm, hdrop.symm⟩

/-- A text is cut in one way at the first place at which a character stands. -/
theorem eq_of_append_cons_eq [DecidableEq α] {a : α} {u v w x : List α} (hu : a ∉ u) (hv : a ∉ v)
    (h : u ++ a :: w = v ++ a :: x) : u = v ∧ w = x := by
  have hne : ∀ {u : List α}, a ∉ u → ∀ b ∈ u, (b != a) = true := by
    intro u hu b hb
    simpa using fun hba : b = a => hu (hba ▸ hb)
  obtain ⟨huv, hwx⟩ := eq_of_append_eq (hne hu) (hne hv) (by simp) (by simp) h
  exact ⟨huv, (List.cons.inj hwx).2⟩

theorem not_mem_takeWhile_ne [DecidableEq α] (a : α) (l : List α) : a ∉ l.takeWhile (· != a) := by
  intro h
  simpa using List.mem_takeWhile_imp h

theorem eq_of_mem_head?_dropWhile_ne [DecidableEq α] {a b : α} {l : List α}
    (h : b ∈ (l.dropWhile (· != a)).head?) : b = a := by
  simpa using of_mem_head?_dropWhile h

namespace Step

/-! ## §3 Every span follows the rules -/

theorem reads_slash (cs : List Char) :
    Reads ('/' :: (slash cs).more) (slash cs).outcome (slash cs).rest.head? := by
  unfold slash
  split
  · next h =>
    obtain ⟨ds, rfl⟩ := List.head?_eq_some_iff.mp h
    exact .silent (.comment (not_mem_takeWhile_ne '\n' ds) fun c hc => eq_of_mem_head?_dropWhile_ne hc)
  · next h => exact .silent (.slash h)

theorem reads_string (cs : List Char) :
    Reads ('"' :: (string cs).more) (string cs).outcome (string cs).rest.head? := by
  have hbody := not_mem_takeWhile_ne '"' cs
  unfold string
  split
  · exact .faulty (.openString hbody)
  · next q rest h =>
    obtain rfl : q = '"' := eq_of_mem_head?_dropWhile_ne (l := cs) (by rw [h]; rfl)
    by_cases hnil : cs.takeWhile (· != '"') = []
    · simp only [hnil]
      exact .faulty .emptyString
    · have hempty : (cs.takeWhile (· != '"')).isEmpty = false := by simpa using hnil
      simp only [hempty]
      exact .lexeme (.string _ hnil hbody) trivial

theorem reads_number {d : Char} (hd : isDigit d = true) (cs : List Char) :
    Reads (d :: (number d cs).more) (number d cs).outcome (number d cs).rest.head? := by
  have hends := NumberLexeme.endsAt_split hd cs
  unfold number
  rcases hsplit : NumberLexeme.split cs with ⟨more, rest⟩
  rw [hsplit] at hends
  cases more with
  | nil =>
    -- a digit alone is the one lexeme whose outcome depends on whether the text goes on
    cases rest with
    | nil => exact .lexeme (.number [d] hends.mem) ⟨hends, fun _ => rfl⟩
    | cons c rest => exact .faulty (.loneDigit hends)
  | cons c more => exact .lexeme (.number (d :: c :: more) hends.mem) ⟨hends, fun h => by simp at h⟩

theorem reads_word {c : Char} (hc : isWordStart c = true) (cs : List Char) :
    Reads (c :: (word c cs).more) (word c cs).outcome (word c cs).rest.head? :=
  .lexeme (.word c _ hc fun _ h => List.mem_takeWhile_imp h) fun _ h => of_mem_head?_dropWhile h

theorem reads_operator (o : Operator) (cs : List Char) :
    Reads (o.char :: (operator o cs).more) (operator o cs).outcome (operator o cs).rest.head? := by
  fun_cases operator o cs with
  | case1 rest => exact .lexeme (.operator o true) trivial
  | case2 cs h =>
    refine .lexeme (.operator o false) fun hhead => ?_
    obtain ⟨ds, hds⟩ := List.head?_eq_some_iff.mp hhead
    exact h ds hds

theorem reads_symbol {c : Char} (hc : Mark.ofChar? c = none → Operator.ofChar? c = none →
    Unexpected c) (cs : List Char) :
    Reads (c :: (symbol c cs).more) (symbol c cs).outcome (symbol c cs).rest.head? := by
  unfold symbol
  cases hm : Mark.ofChar? c with
  | some m =>
    obtain rfl := Mark.ofChar?_eq_some_iff.mp hm
    exact .lexeme (.mark m) trivial
  | none =>
    cases ho : Operator.ofChar? c with
    | some o =>
      obtain rfl := Operator.ofChar?_eq_some_iff.mp ho
      exact reads_operator o cs
    | none => exact .faulty (.unexpected (hc hm ho))

/-- **Every span follows the rules**, whatever text it is cut from. -/
theorem reads_of (c : Char) (cs : List Char) :
    Reads (c :: (of c cs).more) (of c cs).outcome (of c cs).rest.head? := by
  unfold of
  split_ifs with hblank hslash hquote hdigit hword
  · exact .silent (.blank hblank)
  · exact hslash ▸ reads_slash cs
  · exact hquote ▸ reads_string cs
  · exact reads_number hdigit cs
  · exact reads_word hword cs
  · -- every test has failed, so what is in neither table of symbols is unexpected
    refine reads_symbol (fun hm ho => ⟨?_, hslash, hquote, ?_, ?_, fun m h => ?_, fun o h => ?_⟩) cs
    · exact Bool.eq_false_of_not_eq_true hblank
    · exact Bool.eq_false_of_not_eq_true hdigit
    · exact Bool.eq_false_of_not_eq_true hword
    · rw [Mark.ofChar?_eq_some_iff.mpr h] at hm
      exact Option.some_ne_none m hm
    · rw [Operator.ofChar?_eq_some_iff.mpr h] at ho
      exact Option.some_ne_none o ho

/-! ## §4 The rules decide where a span is cut

Each class of first characters excludes the others, so that the rule which applies to a text is the
case that the reader takes. -/

private theorem isBlank_eq_false {c : Char} (h : isDigit c = true ∨ isWordStart c = true) :
    isBlank c = false := by
  by_contra hb
  rcases isBlank_iff.mp (Bool.eq_true_of_not_eq_false hb) with rfl | rfl | rfl | rfl <;>
    exact absurd h (by decide)

theorem of_digit {d : Char} (hd : isDigit d = true) (cs : List Char) : of d cs = number d cs := by
  have hslash : d ≠ '/' := by
    rintro rfl
    exact absurd hd (by decide)
  have hquote : d ≠ '"' := by
    rintro rfl
    exact absurd hd (by decide)
  simp [of, isBlank_eq_false (Or.inl hd), hslash, hquote, hd]

theorem of_wordStart {c : Char} (hc : isWordStart c = true) (cs : List Char) :
    of c cs = word c cs := by
  have hslash : c ≠ '/' := by
    rintro rfl
    exact absurd hc (by decide)
  have hquote : c ≠ '"' := by
    rintro rfl
    exact absurd hc (by decide)
  have hdigit : isDigit c = false := by
    by_contra hd
    rw [isWordStart_eq_false_of_isDigit (by simpa using hd)] at hc
    exact absurd hc (by decide)
  simp [of, isBlank_eq_false (Or.inr hc), hslash, hquote, hdigit, hc]

theorem of_mark (m : Mark) (cs : List Char) :
    of m.char cs = single (.token (.mark m) none) cs := by
  cases m <;> rfl

theorem of_operator (o : Operator) (cs : List Char) : of o.char cs = operator o cs := by
  cases o <;> rfl

theorem of_unexpected {c : Char} (hc : Unexpected c) (cs : List Char) :
    of c cs = single (.fault (.unexpectedCharacter c)) cs := by
  have hm : Mark.ofChar? c = none :=
    Option.eq_none_iff_forall_ne_some.mpr fun m h => hc.mark m (Mark.ofChar?_eq_some_iff.mp h)
  have ho : Operator.ofChar? c = none :=
    Option.eq_none_iff_forall_ne_some.mpr fun o h => hc.operator o (Operator.ofChar?_eq_some_iff.mp h)
  simp [of, hc.blank, hc.slash, hc.quote, hc.digit, hc.word, symbol, hm, ho]

theorem of_eq_of_silent {c : Char} {more rest : List Char}
    (h : Silent (c :: more) rest.head?) : of c (more ++ rest) = ⟨more, rest, .skipped⟩ := by
  cases h with
  | blank hc => simp [of, hc, single]
  | slash hnext =>
    show slash rest = _
    rw [slash, if_neg hnext, single]
  | @comment body _ hbody hnext =>
    have hcut : ∀ a ∈ '/' :: body, (a != '\n') = true := by
      intro a ha
      rcases List.mem_cons.mp ha with rfl | ha
      · decide
      · simpa using fun h : a = '\n' => hbody (h ▸ ha)
    have hstop : ∀ a ∈ rest.head?, (a != '\n') = false := fun a ha => by simpa using hnext a ha
    show slash ('/' :: body ++ rest) = _
    obtain ⟨htake, hdrop⟩ := takeWhile_append_eq hcut hstop
    rw [slash, if_pos (by rfl), htake, hdrop]

theorem of_eq_of_faulty {c : Char} {more rest : List Char} {f : Fault}
    (h : Faulty (c :: more) f rest.head?) : of c (more ++ rest) = ⟨more, rest, .fault f⟩ := by
  generalize hnext : rest.head? = next at h
  cases h with
  | unexpected hc => exact of_unexpected hc rest
  | emptyString => rfl
  | openString hbody =>
    obtain rfl := List.head?_eq_none_iff.mp hnext
    obtain ⟨htake, hdrop⟩ := takeWhile_append_eq (p := (· != '"')) (u := more) (v := [])
      (fun a ha => by simpa using fun h : a = '"' => hbody (h ▸ ha)) (by simp)
    show string (more ++ []) = _
    simp only [string, htake, hdrop]
  | loneDigit hd =>
    have hsplit := NumberLexeme.split_append_eq_of_endsAt (hnext ▸ hd)
    obtain ⟨ds, rfl⟩ := List.head?_eq_some_iff.mp hnext
    rw [of_digit (NumberLexeme.cons_mem_grammar.mp hd.mem).1, number, hsplit]
    rfl

theorem of_eq_of_lexeme {c : Char} {more rest : List Char} {l : Lexeme} (hl : l.text = c :: more)
    (h : l.EndsAt rest.head?) : of c (more ++ rest) = ⟨more, rest, .token l.kind l.literal⟩ := by
  -- the shape of a lexeme tells the class of its first character, and with it the case of `of`; that
  -- the lexeme ends before `rest` means that this case takes `more` and stops
  cases l with
  | mark m =>
    obtain ⟨rfl, rfl⟩ := List.cons.inj hl
    exact of_mark m rest
  | operator o withEqual =>
    cases withEqual with
    | true =>
      obtain ⟨rfl, rfl⟩ := List.cons.inj hl
      exact of_operator o _
    | false =>
      obtain ⟨rfl, rfl⟩ := List.cons.inj hl
      rw [List.nil_append, of_operator]
      cases rest with
      | nil => rfl
      | cons d rest =>
        have hd : d ≠ '=' := fun heq => h (by rw [heq]; rfl)
        rw [operator.eq_2 o (d :: rest) (by simpa using hd)]
        rfl
  | word first tail hfirst htail =>
    obtain ⟨rfl, rfl⟩ := List.cons.inj hl
    obtain ⟨htake, hdrop⟩ := takeWhile_append_eq htail h
    rw [of_wordStart hfirst]
    simp only [word, htake, hdrop]
    rfl
  | string body hne hquote =>
    obtain ⟨rfl, rfl⟩ := List.cons.inj hl
    obtain ⟨htake, hdrop⟩ := takeWhile_append_eq (p := (· != '"')) (u := body) (v := '"' :: rest)
      (fun a ha => by simpa using fun h : a = '"' => hquote (h ▸ ha)) (by simp)
    have hempty : body.isEmpty = false := by simpa using hne
    show string (body ++ ['"'] ++ rest) = _
    rw [List.append_assoc, List.singleton_append]
    simp only [string, htake, hdrop, hempty]
    rfl
  | number digits hmem =>
    obtain rfl : digits = c :: more := hl
    have hsplit := NumberLexeme.split_append_eq_of_endsAt h.1
    rw [of_digit (NumberLexeme.cons_mem_grammar.mp hmem).1, number, hsplit]
    cases more with
    | nil =>
      -- a lone digit is a lexeme at the end of the text only
      obtain rfl := List.head?_eq_none_iff.mp (h.2 rfl)
      rfl
    | cons e more => rfl

/-- **The rules decide**: what follows them at the front of a text is the span cut from it. -/
theorem of_eq_of_reads {c : Char} {more rest : List Char} {o : Outcome}
    (h : Reads (c :: more) o rest.head?) : of c (more ++ rest) = ⟨more, rest, o⟩ := by
  generalize htext : c :: more = text at h
  cases h with
  | silent h => exact of_eq_of_silent (htext ▸ h)
  | faulty h => exact of_eq_of_faulty (htext ▸ h)
  | lexeme l h => exact of_eq_of_lexeme htext.symm h

end Step

end LoxLexer
