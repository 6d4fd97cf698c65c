import LoxLexer.Proofs.Span.Rules

/-!
# Chains of spans

A text is cut into spans one after the other, and each looks at the first character of the next. A
list of spans in which every span follows the rules before the ones after it is called a chain. The
chains are exactly the lists that texts are cut into, which makes them the tool for statements about
two texts: to find the spans of a text it is enough to name a chain that spells it.

* `chain_spans`: the spans of a text form a chain.
* `spans_textOf`: a chain is what its own text is cut into.
* `Chain.replace_tail`: spans do not depend on what comes after the next character.
-/

namespace LoxLexer

/-! ## §1 One span -/

theorem Silent.text_ne_nil {text : List Char} {next : Option Char} (h : Silent text next) :
    text ≠ [] := by
  cases h <;> exact List.cons_ne_nil _ _

theorem Faulty.text_ne_nil {text : List Char} {f : Fault} {next : Option Char}
    (h : Faulty text f next) : text ≠ [] := by
  cases h <;> exact List.cons_ne_nil _ _

namespace Reads

variable {text : List Char} {o o' : Outcome} {next : Option Char}

theorem text_ne_nil (h : Reads text o next) : text ≠ [] := by
  cases h with
  | silent h => exact h.text_ne_nil
  | faulty h => exact h.text_ne_nil
  | lexeme l h => exact l.text_ne_nil

/-- The span that a text begins with, by the rules. -/
theorem spans_append {rest : List Char} (h : Reads text o rest.head?) :
    spans (text ++ rest) = ⟨text, o⟩ :: spans rest := by
  obtain ⟨c, more, rfl⟩ := List.exists_cons_of_ne_nil h.text_ne_nil
  rw [List.cons_append, spans, Step.of_eq_of_reads h]

/-- A text has one outcome before a given character. -/
theorem outcome_unique (h : Reads text o next) (h' : Reads text o' next) : o = o' := by
  -- the reader finds one outcome, say in the text that ends after the next character
  rw [← Option.head?_toList (o := next)] at h h'
  have hspans : (⟨text, o⟩ :: spans next.toList : List Span) = ⟨text, o'⟩ :: spans next.toList :=
    h.spans_append.symm.trans h'.spans_append
  exact congrArg Span.outcome (List.cons.inj hspans).1

theorem outcome_eq_skipped_iff (h : Reads text o next) : o = .skipped ↔ Silent text next := by
  constructor
  · rintro rfl
    cases h with
    | silent h => exact h
  · intro hs
    exact h.outcome_unique (.silent hs)

end Reads

/-! ## §2 Chains -/

/-- The text that spans spell. -/
def textOf (ss : List Span) : List Char :=
  (ss.map Span.text).flatten

/-- Spans each of which follows the rules before the text of the others. -/
inductive Chain : List Span → Prop where
  | nil : Chain []
  | cons {s : Span} {ss : List Span} (h : Reads s.text s.outcome (textOf ss).head?)
      (hs : Chain ss) : Chain (s :: ss)

@[simp] theorem textOf_nil : textOf [] = [] := rfl

@[simp] theorem textOf_cons (s : Span) (ss : List Span) : textOf (s :: ss) = s.text ++ textOf ss := rfl

@[simp] theorem textOf_append (ss ss' : List Span) :
    textOf (ss ++ ss') = textOf ss ++ textOf ss' := by
  rw [textOf, List.map_append, List.flatten_append, ← textOf, ← textOf]

theorem textOf_spans (cs : List Char) : textOf (spans cs) = cs :=
  flatten_spans cs

/-- **The spans of a text form a chain.** -/
theorem chain_spans (cs : List Char) : Chain (spans cs) := by
  fun_induction spans cs with
  | case1 => exact .nil
  | case2 c cs ih =>
    refine .cons ?_ ih
    rw [textOf_spans]
    exact Step.reads_of c cs

/-- **A chain is what its own text is cut into.** -/
theorem spans_textOf {ss : List Span} (h : Chain ss) : spans (textOf ss) = ss := by
  induction h with
  | nil => rw [textOf_nil, spans]
  | @cons s ss h _ ih => rw [textOf_cons, h.spans_append, ih]

theorem spans_eq_iff {cs : List Char} {ss : List Span} :
    spans cs = ss ↔ Chain ss ∧ textOf ss = cs := by
  constructor
  · rintro rfl
    exact ⟨chain_spans cs, textOf_spans cs⟩
  · rintro ⟨h, rfl⟩
    exact spans_textOf h

namespace Chain

theorem of_append {ss ss' : List Span} (h : Chain (ss ++ ss')) : Chain ss' := by
  induction ss with
  | nil => exact h
  | cons s ss ih =>
    cases h with
    | cons _ hs => exact ih hs

/-- Where a chain is cut in two, each span before the cut looks no further than the first character
after it. -/
theorem replace_tail {ss ss' tail : List Span} (h : Chain (ss ++ ss'))
    (hhead : (textOf tail).head? = (textOf ss').head?) (htail : Chain tail) :
    Chain (ss ++ tail) := by
  induction ss with
  | nil => exact htail
  | cons s ss ih =>
    cases h with
    | cons hs hss =>
      -- the next character is one of `ss`, or else the first one after the cut
      have hnext : (textOf (ss ++ tail)).head? = (textOf (ss ++ ss')).head? := by
        rw [textOf_append, textOf_append, List.head?_append, List.head?_append, hhead]
      exact .cons (hnext ▸ hs) (ih hss)

/-- Every span of a chain follows the rules before the text of the spans after it. -/
theorem reads {before after : List Span} {s : Span} (h : Chain (before ++ s :: after)) :
    Reads s.text s.outcome (textOf after).head? := by
  cases h.of_append with
  | cons hs _ => exact hs

end Chain

end LoxLexer
