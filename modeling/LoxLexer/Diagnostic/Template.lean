/-!
# Message templates

A template is a text with numbered holes, `{0}`, `{1}` and so on, for arguments. Filling goes
through the arguments in order and puts each into every hole of its number in the text so far, so
that a hole brought in by an earlier argument is filled by a later one. A hole without an argument
stays as it is.

* `replaceAll_append_of_no_start`, `replaceAll_pattern_append`: a text is gone through up to the first
  place at which the pattern can begin, and the pattern is replaced there.
* `fill_hole`: a template that ends with its only hole ends with the argument.
-/

namespace LoxLexer.Template

/-- The text with each occurrence of a pattern, taken from the left without overlap, replaced. The
number says how many characters of the last occurrence are still to be passed over. -/
def replaceFrom (pattern replacement : List Char) : Nat → List Char → List Char
  | _, [] => []
  | n + 1, _ :: cs => replaceFrom pattern replacement n cs
  | 0, c :: cs =>
    if pattern.isPrefixOf (c :: cs) then
      replacement ++ replaceFrom pattern replacement (pattern.length - 1) cs
    else c :: replaceFrom pattern replacement 0 cs

/-- The text with each occurrence of a pattern of at least one character replaced. -/
def replaceAll (pattern replacement text : List Char) : List Char :=
  replaceFrom pattern replacement 0 text

/-- The hole for an argument: its number between braces. -/
def hole (i : Nat) : List Char :=
  '{' :: ((toString i).toList ++ ['}'])

/-- The text with the holes from `i` on filled, one argument after the other. -/
def fillFrom (i : Nat) : List (List Char) → List Char → List Char
  | [], text => text
  | arg :: args, text => fillFrom (i + 1) args (replaceAll (hole i) arg text)

/-- A template with its holes filled. -/
def fill (template : String) (args : List String) : String :=
  String.ofList (fillFrom 0 (args.map String.toList) template.toList)

/-! ## Small facts -/

section

variable {p : Char} {ps r : List Char}

/-- Nothing is replaced in the part of a text in which the pattern cannot begin. -/
theorem replaceAll_append_of_no_start {text : List Char} (h : p ∉ text) (rest : List Char) :
    replaceAll (p :: ps) r (text ++ rest) = text ++ replaceAll (p :: ps) r rest := by
  unfold replaceAll
  induction text with
  | nil => rfl
  | cons c cs ih =>
    simp only [List.mem_cons, not_or] at h
    have hc : (p :: ps).isPrefixOf (c :: (cs ++ rest)) = false := by
      simp [List.isPrefixOf, h.1]
    rw [List.cons_append, replaceFrom, hc, ih h.2]
    rfl

/-- Where the pattern cannot begin, nothing is replaced. -/
theorem replaceAll_of_no_start {text : List Char} (h : p ∉ text) :
    replaceAll (p :: ps) r text = text := by
  have hnil : replaceAll (p :: ps) r [] = [] := rfl
  have happend : replaceAll (p :: ps) r (text ++ []) = text ++ replaceAll (p :: ps) r [] :=
    replaceAll_append_of_no_start h []
  rwa [hnil, List.append_nil] at happend

/-- What is passed over takes no part in replacing. -/
theorem replaceFrom_eq_drop (pattern r : List Char) (n : Nat) (cs : List Char) :
    replaceFrom pattern r n cs = replaceAll pattern r (cs.drop n) := by
  induction n generalizing cs with
  | zero => rfl
  | succ n ih =>
    cases cs with
    | nil => rfl
    | cons c cs => exact ih cs

/-- The pattern at the front of a text is replaced. -/
theorem replaceAll_pattern_append (rest : List Char) :
    replaceAll (p :: ps) r (p :: ps ++ rest) = r ++ replaceAll (p :: ps) r rest := by
  have hpre : (p :: ps).isPrefixOf (p :: (ps ++ rest)) = true :=
    List.isPrefixOf_iff_prefix.mpr (List.prefix_append (p :: ps) rest)
  rw [replaceAll, List.cons_append, replaceFrom, if_pos hpre, replaceFrom_eq_drop]
  simp

end

/-- Without arguments a template is its own message. -/
theorem fill_nil (template : String) : fill template [] = template := by
  simp [fill, fillFrom]

/-- A template that ends with its only hole ends with the argument. -/
theorem fill_hole {text : String} (h : '{' ∉ text.toList) (arg : String) :
    fill (text ++ String.ofList (hole 0)) [arg] = text ++ arg := by
  rw [← String.toList_inj, fill, String.toList_ofList, String.toList_append, String.toList_ofList,
    String.toList_append]
  show replaceAll (hole 0) arg.toList (text.toList ++ hole 0) = text.toList ++ arg.toList
  have hhole : replaceAll (hole 0) arg.toList (hole 0 ++ []) = arg.toList ++ [] :=
    replaceAll_pattern_append []
  rw [List.append_nil, List.append_nil] at hhole
  rw [hole, replaceAll_append_of_no_start h, ← hole, hhole]

end LoxLexer.Template
