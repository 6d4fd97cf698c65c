import LoxLexer.Proofs.Span.Rules

/-!
# Filling all holes at once

Arguments are put into a template one after the other, and each time the whole text is gone through again.
Holes can come about on the way, from braces that were there before and from texts that were put in. None
do if the arguments open no braces and the template is flat, which is to say that no brace is opened
between another one and the brace that closes it. The message is then the same as if the template were
gone through once.

* `IsFlat`, `FilledAtOnce`: flat texts, and filling all holes at once.
* `FilledAtOnce.append_argument`: one more argument fills its holes and nothing else.
* `fill_eq_iff_filledAtOnce`: the messages of flat templates.
-/

namespace LoxLexer.Template

/-! ## §1 Flat texts and their holes -/

/-- **Flat texts**: after a brace is opened no other one is opened before the next closing brace. Behind the
last closing brace it does not matter. -/
def IsFlat (text : List Char) : Prop :=
  ∀ rest, '{' :: rest <:+ text → '}' ∈ rest → '{' ∉ rest.takeWhile (· != '}')

/-- **Filling all holes at once.** A text is gone through from left to right. A hole that has an argument is
replaced by the argument, which is not looked at again, and every other character stays as it is. -/
inductive FilledAtOnce (args : List (List Char)) : List Char → List Char → Prop where
  | done : FilledAtOnce args [] []
  | argument {i : Nat} {arg rest filled : List Char} (harg : args[i]? = some arg)
      (h : FilledAtOnce args rest filled) : FilledAtOnce args (hole i ++ rest) (arg ++ filled)
  | character {c : Char} {rest filled : List Char}
      (hc : ∀ i < args.length, ¬ hole i <+: c :: rest) (h : FilledAtOnce args rest filled) :
      FilledAtOnce args (c :: rest) (c :: filled)

instance : DecidablePred IsFlat := fun text =>
  decidable_of_iff (∀ s ∈ text.tails,
    s.head? = some '{' → '}' ∈ s.tail → '{' ∉ s.tail.takeWhile (· != '}')) <| by
    simp only [List.mem_tails]
    constructor
    · intro h rest hsuffix
      exact h _ hsuffix rfl
    · intro h s hsuffix hhead
      obtain ⟨rest, rfl⟩ := List.head?_eq_some_iff.mp hhead
      exact h rest hsuffix

variable {args : List (List Char)} {arg text rest filled : List Char}

theorem IsFlat.of_append (h : IsFlat (text ++ rest)) : IsFlat rest := by
  intro more hsuffix
  exact h more (hsuffix.trans (List.suffix_append text rest))

theorem IsFlat.of_cons {c : Char} (h : IsFlat (c :: text)) : IsFlat text := by
  rw [← List.singleton_append] at h
  exact h.of_append

/-- A number has no braces. -/
theorem brace_not_mem_number {c : Char} (hc : isDigit c = false) (i : Nat) : c ∉ (toString i).toList := by
  intro h
  rw [NumberStyle.isDigit_of_mem_digitsOf h] at hc
  exact Bool.noConfusion hc

/-- After its first brace a hole opens no other. -/
theorem opening_not_mem_hole (i : Nat) : '{' ∉ (toString i).toList ++ ['}'] := by
  have hnumber : '{' ∉ (toString i).toList := brace_not_mem_number rfl i
  simpa using hnumber

theorem length_lt_hole_append (i : Nat) (rest : List Char) : rest.length < (hole i ++ rest).length := by
  rw [hole, List.cons_append, List.length_cons, List.length_append]
  omega

/-- A text begins with one hole at most. -/
theorem eq_of_hole_append_eq {i j : Nat} {u v : List Char} (h : hole i ++ u = hole j ++ v) :
    i = j ∧ u = v := by
  simp only [hole, List.cons_append, List.append_assoc, List.nil_append, List.cons.injEq,
    true_and] at h
  obtain ⟨hnumber, hrest⟩ :=
    eq_of_append_cons_eq (brace_not_mem_number rfl i) (brace_not_mem_number rfl j) h
  exact ⟨NumberStyle.digitsOf_injective hnumber, hrest⟩

/-- Where the pattern does not begin a text, the first character stays. -/
theorem replaceAll_cons {pattern r : List Char} {c : Char} (h : ¬ pattern <+: c :: text) :
    replaceAll pattern r (c :: text) = c :: replaceAll pattern r text := by
  have hpre : pattern.isPrefixOf (c :: text) = false := by
    rw [← Bool.not_eq_true, List.isPrefixOf_iff_prefix]
    exact h
  rw [replaceAll, replaceFrom, hpre]
  rfl

theorem replaceAll_hole_append (i : Nat) (arg rest : List Char) :
    replaceAll (hole i) arg (hole i ++ rest) = arg ++ replaceAll (hole i) arg rest :=
  replaceAll_pattern_append rest

/-- No hole is filled in a text that opens no brace. -/
theorem replaceAll_hole_append_of_unopened {unopened : List Char} (h : '{' ∉ unopened) (i : Nat)
    (arg rest : List Char) :
    replaceAll (hole i) arg (unopened ++ rest) = unopened ++ replaceAll (hole i) arg rest :=
  replaceAll_append_of_no_start h rest

/-! ## §2 What stays as it is -/

namespace FilledAtOnce

/-- Without arguments there is nothing to put in. -/
theorem of_nil (text : List Char) : FilledAtOnce [] text text := by
  induction text with
  | nil => exact .done
  | cons c text ih =>
    apply FilledAtOnce.character _ ih
    intro i hi
    exact absurd hi (Nat.not_lt_zero i)

/-- A text that opens no brace stays as it is, whatever follows it. -/
theorem exists_of_append {unopened : List Char} (hopening : '{' ∉ unopened)
    (h : FilledAtOnce args (unopened ++ rest) filled) :
    ∃ more, filled = unopened ++ more ∧ FilledAtOnce args rest more := by
  induction unopened generalizing filled with
  | nil => exact ⟨filled, rfl, h⟩
  | cons c unopened ih =>
    rw [List.mem_cons, not_or] at hopening
    generalize htext : c :: unopened ++ rest = text at h
    cases h with
    | done => exact absurd htext (List.cons_ne_nil c _)
    | argument harg h => exact absurd (List.cons.inj htext).1.symm hopening.1
    | character hc h =>
      obtain ⟨rfl, rfl⟩ := List.cons.inj htext
      obtain ⟨more, rfl, hmore⟩ := ih hopening.2 h
      exact ⟨more, rfl, hmore⟩

/-- A hole without an argument stays as it is. -/
theorem exists_of_hole_append {n : Nat} (hn : args.length ≤ n)
    (h : FilledAtOnce args (hole n ++ rest) filled) :
    ∃ more, filled = hole n ++ more ∧ FilledAtOnce args rest more := by
  generalize htext : hole n ++ rest = text at h
  cases h with
  | done => exact absurd htext (List.cons_ne_nil _ _)
  | argument harg h =>
    obtain ⟨rfl, -⟩ := eq_of_hole_append_eq htext
    exact absurd (List.getElem?_eq_some_iff.mp harg).1 (Nat.not_lt_of_ge hn)
  | character hc h =>
    -- the brace stays, and nothing is put in between it and its closing brace
    obtain ⟨rfl, rfl⟩ := List.cons.inj htext
    obtain ⟨more, rfl, hmore⟩ := exists_of_append (opening_not_mem_hole n) h
    exact ⟨more, rfl, hmore⟩

/-- A text that closes no brace stays as it is. -/
theorem eq_of_closing_not_mem (h : FilledAtOnce args text filled) (hclosing : '}' ∉ text) :
    filled = text := by
  induction h with
  | done => rfl
  | argument harg h ih => simp [hole] at hclosing
  | character hc h ih => rw [ih fun hmem => hclosing (List.mem_cons_of_mem _ hmem)]

/-- **No holes come about** in flat texts: a hole that is there afterwards was there before. -/
theorem hole_prefix_of_flat {c : Char} {n : Nat} (hflat : IsFlat (c :: rest))
    (h : FilledAtOnce args rest filled) (hhole : hole n <+: c :: filled) :
    hole n <+: c :: rest := by
  obtain ⟨u, hu⟩ := hhole
  rw [hole, List.cons_append, List.append_assoc, List.singleton_append] at hu
  obtain ⟨rfl, rfl⟩ := List.cons.inj hu
  by_cases hclosing : '}' ∈ rest
  · -- up to the next closing brace no other brace is opened, so that nothing is put in there
    have hopening := hflat rest (List.suffix_refl _) hclosing
    have hrest : rest = rest.takeWhile (· != '}') ++ rest.dropWhile (· != '}') :=
      List.takeWhile_append_dropWhile.symm
    have hbody : '}' ∉ rest.takeWhile (· != '}') := not_mem_takeWhile_ne '}' rest
    cases hdrop : rest.dropWhile (· != '}') with
    | nil =>
      rw [hdrop, List.append_nil] at hrest
      exact absurd (hrest ▸ hclosing) hbody
    | cons d more =>
      obtain rfl : d = '}' := eq_of_mem_head?_dropWhile_ne (l := rest) (by rw [hdrop]; rfl)
      rw [hdrop] at hrest
      rw [hrest] at h
      obtain ⟨left, hleft, hmore⟩ := exists_of_append hopening h
      have hclose : FilledAtOnce args (['}'] ++ more) left := hmore
      obtain ⟨tail, rfl, -⟩ := exists_of_append (by decide) hclose
      obtain ⟨hnumber, -⟩ := eq_of_append_cons_eq (brace_not_mem_number rfl n) hbody hleft
      rw [hrest, ← hnumber]
      exact ⟨more, by simp [hole]⟩
  · rw [← h.eq_of_closing_not_mem hclosing]
    exact ⟨u, by simp [hole]⟩

/-! ## §3 One argument after the other -/

/-- **One more argument** fills its own holes. The arguments before it have left these as they were, and
have brought in no others. -/
theorem append_argument (h : FilledAtOnce args text filled) (hflat : IsFlat text)
    (hargs : ∀ a ∈ args, '{' ∉ a) :
    FilledAtOnce (args ++ [arg]) text
      (replaceAll (hole args.length) arg filled) := by
  -- on the text that is left, which grows shorter by a hole or by a character
  induction hlength : text.length using Nat.strong_induction_on generalizing text filled with
  | _ length ih =>
    subst hlength
    by_cases hhole : hole args.length <+: text
    · -- the hole of the new argument, which is still there to be filled
      obtain ⟨rest, rfl⟩ := hhole
      obtain ⟨left, rfl, hleft⟩ := exists_of_hole_append (Nat.le_refl _) h
      rw [replaceAll_hole_append]
      apply FilledAtOnce.argument List.getElem?_concat_length
      exact ih _ (length_lt_hole_append _ _) hleft hflat.of_append rfl
    · cases h with
      | done => exact .done
      | @argument i a rest filled harg h =>
        have hopening : '{' ∉ a := hargs a (List.mem_of_getElem? harg)
        rw [replaceAll_hole_append_of_unopened hopening]
        apply FilledAtOnce.argument
        · rw [List.getElem?_append_left (List.getElem?_eq_some_iff.mp harg).1, harg]
        · exact ih _ (length_lt_hole_append _ _) h hflat.of_append rfl
      | @character c rest filled hc h =>
        have hrest : IsFlat rest := hflat.of_cons
        rw [replaceAll_cons fun hfilled => hhole (hole_prefix_of_flat hflat h hfilled)]
        apply FilledAtOnce.character
        · intro i hi
          rw [List.length_append, List.length_singleton, Nat.lt_succ_iff_lt_or_eq] at hi
          rcases hi with hi | rfl
          · exact hc i hi
          · exact hhole
        · exact ih _ (Nat.lt_succ_self _) h hrest rfl

/-- The arguments that are left, one after the other. -/
theorem append_arguments {more : List (List Char)} (h : FilledAtOnce args text filled) (hflat : IsFlat text)
    (hargs : ∀ a ∈ args ++ more, '{' ∉ a) :
    FilledAtOnce (args ++ more) text (fillFrom args.length more filled) := by
  induction more generalizing args filled with
  | nil =>
    rw [List.append_nil]
    exact h
  | cons arg more ih =>
    have hnext : FilledAtOnce (args ++ [arg]) text (replaceAll (hole args.length) arg filled) :=
      h.append_argument hflat fun a ha => hargs a (List.mem_append_left _ ha)
    rw [fillFrom, List.append_cons]
    rw [List.append_cons] at hargs
    have hall := ih hnext hargs
    rwa [List.length_append, List.length_singleton] at hall

/-- There is one way to fill all holes at once. -/
theorem unique {filled' : List Char} (h : FilledAtOnce args text filled)
    (h' : FilledAtOnce args text filled') : filled = filled' := by
  induction h generalizing filled' with
  | done =>
    generalize htext : [] = text at h'
    cases h' with
    | done => rfl
    | argument => exact absurd htext.symm (List.cons_ne_nil _ _)
    | character => exact absurd htext.symm (List.cons_ne_nil _ _)
  | @argument i a rest filled harg h ih =>
    have hi : i < args.length := (List.getElem?_eq_some_iff.mp harg).1
    generalize htext : hole i ++ rest = text at h'
    cases h' with
    | done => exact absurd htext (List.cons_ne_nil _ _)
    | @argument j b _ _ hb hrest =>
      obtain ⟨rfl, rfl⟩ := eq_of_hole_append_eq htext
      rw [ih hrest, Option.some.inj (harg.symm.trans hb)]
    | character hc _ => exact absurd ⟨rest, htext⟩ (hc i hi)
  | @character c rest filled hc h ih =>
    generalize htext : c :: rest = text at h'
    cases h' with
    | done => exact absurd htext (List.cons_ne_nil _ _)
    | @argument j b _ _ hb hrest =>
      have hj : j < args.length := (List.getElem?_eq_some_iff.mp hb).1
      exact absurd ⟨_, htext.symm⟩ (hc j hj)
    | character _ hrest =>
      obtain ⟨rfl, rfl⟩ := List.cons.inj htext
      rw [ih hrest]

end FilledAtOnce

/-! ## §4 Messages -/

/-- **Flat templates are filled at once.** The template is flat, there are any number of arguments, and none
of them opens a brace; braces that they close do no harm. Then the message that filling comes to, one
argument after the other, is the one text that filling all holes at once, from left to right, makes of the
template. -/
theorem fill_eq_iff_filledAtOnce {template : String} {args : List String}
    (hflat : IsFlat template.toList) (hargs : ∀ arg ∈ args, '{' ∉ arg.toList) (message : String) :
    fill template args = message ↔
      FilledAtOnce (args.map String.toList) template.toList message.toList := by
  have hopening : ∀ a ∈ [] ++ args.map String.toList, '{' ∉ a := by
    intro a ha
    obtain ⟨arg, harg, rfl⟩ := List.mem_map.mp ha
    exact hargs arg harg
  have hfill : FilledAtOnce (args.map String.toList) template.toList (fill template args).toList := by
    rw [fill, String.toList_ofList]
    exact (FilledAtOnce.of_nil template.toList).append_arguments hflat hopening
  constructor
  · rintro rfl
    exact hfill
  · intro h
    exact String.toList_inj.mp (hfill.unique h)

/-- Eleven arguments, of which two have holes. Of the other numbers one is too large and one begins with a
zero, and the last two braces are never closed. -/
theorem fill_eq_iff_filledAtOnce_eleven :
    let template := "\x7b10\x7d: \x7b1\x7d0\x7d \x7b11\x7d \x7b01\x7d \x7b\x7b1"
    let args := ["a", "b", "c", "d", "e", "f", "g", "h", "i", "j", "1"]
    IsFlat template.toList ∧ (∀ arg ∈ args, '{' ∉ arg.toList) ∧
      FilledAtOnce (args.map String.toList) template.toList
        "1: b0\x7d \x7b11\x7d \x7b01\x7d \x7b\x7b1".toList := by
  intro template args
  have hflat : IsFlat template.toList := by decide
  have hargs : ∀ arg ∈ args, '{' ∉ arg.toList := by decide
  have hfill : fill template args = "1: b0\x7d \x7b11\x7d \x7b01\x7d \x7b\x7b1" := by decide
  exact ⟨hflat, hargs, (fill_eq_iff_filledAtOnce hflat hargs _).mp hfill⟩

/-- Where braces are opened within braces, a hole comes about that the first argument has been put into. -/
example : ¬ IsFlat "\x7b\x7b0\x7d\x7d".toList ∧
    fill "\x7b\x7b0\x7d\x7d" ["1", "a"] = "a" := by decide

end LoxLexer.Template
