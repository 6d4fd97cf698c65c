import LoxLexer.Proofs.Json.Records
import Mathlib.Data.List.DropRight

/-!
# What is refused

A value that is read as something could as well be passed over, and the text after it is the same. So
where a record is read at all, each member of the text was read to its end, and it is known what came up
on the way.

* `Shape.passesOver_read`: a record that is read could be passed over.
* `Shape.regular_of_accepts`: no field comes twice in a record that is read.
* `Shape.forall₂_of_accepts`: a list that is read has an element for each field.
* `Shape.not_accepts_of_improper`: what goes against either is refused.
-/

namespace LoxLexer.Json

variable {α ρ : Type}

/-! ## §1 Reading and passing over -/

/-- What is read as a value could be passed over, up to the same place. -/
def PassesOver (read : List Char → Read α) : Prop :=
  ∀ {cs a rest}, read cs = .ok (a, rest) → skipValue cs = .ok rest

/-- **A value is passed over in the same way whatever brackets are open around it.** -/
theorem skipFrom_append {a : Awaited} {opened : List Bracket} {cs rest : List Char}
    (h : skipFrom a opened cs = .ok rest) (ha : a = .firstItem → opened ≠ []) (outer : List Bracket) :
    skipFrom a (opened ++ outer) cs = skipFrom .separator outer rest := by
  fun_induction skipFrom a opened cs generalizing rest with
  | case1 => simp at h
  | case2 opened cs r hs ih =>
    -- a bracket is opened, within those of the value
    rw [skipFrom_value_eq, hs]
    exact ih h fun _ => List.cons_ne_nil _ _
  | case3 opened cs r hs _ ih =>
    rw [skipFrom_value_eq, hs]
    exact ih h fun _ => List.cons_ne_nil _ _
  | case4 => simp at h
  | case5 opened cs c r hs hlist hrecord r₁ h₁ ih =>
    rw [skipFrom_value_eq, hs]
    simp only [hlist, hrecord, if_false, h₁, Except.bind]
    exact ih h (by simp)
  | case6 a cs hvalue =>
    -- no bracket of the value itself is open any more
    rw [Except.ok.injEq] at h
    cases a with
    | value => exact absurd rfl hvalue
    | firstItem => exact absurd rfl (ha rfl)
    | separator => rw [h, List.nil_append]
  | case7 => simp at h
  | case8 cs b opened r hs ih =>
    rw [List.cons_append, skipFrom_firstItem_eq, hs]
    simp only [if_true]
    exact ih h (by simp)
  | case9 => simp at h
  | case10 cs b opened c r hs hclosing r₁ h₁ ih =>
    rw [List.cons_append, skipFrom_firstItem_eq, hs]
    simp only [hclosing, if_false, h₁, Except.bind]
    exact ih h (by simp)
  | case11 => simp at h
  | case12 cs b opened r hs ih =>
    rw [List.cons_append, skipFrom_separator_eq, hs]
    simp only [if_true]
    exact ih h (by simp)
  | case13 => simp at h
  | case14 cs b opened r r₁ h₁ hs hclosing ih =>
    rw [List.cons_append, skipFrom_separator_eq, hs]
    simp only [hclosing, if_false, if_true, h₁, Except.bind]
    exact ih h (by simp)
  | case15 => simp at h

theorem skipFrom_value_of_skipValue {cs rest : List Char} (h : skipValue cs = .ok rest)
    (opened : List Bracket) : skipFrom .value opened cs = skipFrom .separator opened rest :=
  skipFrom_append h (by simp) opened

theorem skipBlanks_skipBlanks (cs : List Char) : skipBlanks (skipBlanks cs) = skipBlanks cs :=
  List.dropWhile_idempotent isBlank cs

theorem skipValue_skipBlanks (cs : List Char) : skipValue (skipBlanks cs) = skipValue cs := by
  rw [skipValue, skipValue, skipFrom_value_eq, skipFrom_value_eq, skipBlanks_skipBlanks]

theorem skipValue_of_skipScalar {c : Char} {cs r rest : List Char} (hs : skipBlanks cs = c :: r)
    (hlist : c ≠ '[') (hrecord : c ≠ '{') (h : skipScalar c r = .ok rest) :
    skipValue cs = .ok rest := by
  rw [skipValue, skipFrom_value_eq, hs]
  simp only [hlist, hrecord, if_false, h, Except.bind, skipFrom_separator_nil]

theorem passesOver_readText : PassesOver readText := by
  intro cs s rest h
  unfold readText at h
  split at h
  · next r hs =>
    cases hr : readString r with
    | error f => simp [hr, Except.map] at h
    | ok p =>
      simp only [hr, Except.map, Except.ok.injEq, Prod.mk.injEq] at h
      apply skipValue_of_skipScalar hs (by decide) (by decide)
      rw [← h.2]
      exact skipString_of_readString hr
  · simp at h

theorem passesOver_readNamed (find : String → Except String α) : PassesOver (readNamed find) := by
  intro cs a rest h
  unfold readNamed at h
  split at h
  · simp at h
  · next s r hr =>
    split at h
    · simp only [Except.ok.injEq, Prod.mk.injEq] at h
      rw [← h.2]
      exact passesOver_readText hr
    · simp at h

theorem passesOver_readBoolean : PassesOver readBoolean := by
  intro cs b rest h
  unfold readBoolean at h
  split at h
  · next r hs =>
    cases hr : readLiteral ['r', 'u', 'e'] r with
    | error f => simp [hr, Except.map] at h
    | ok r' =>
      simp only [hr, Except.map, Except.ok.injEq, Prod.mk.injEq] at h
      apply skipValue_of_skipScalar hs (by decide) (by decide)
      rw [← h.2]
      exact hr
  · next r hs =>
    cases hr : readLiteral ['a', 'l', 's', 'e'] r with
    | error f => simp [hr, Except.map] at h
    | ok r' =>
      simp only [hr, Except.map, Except.ok.injEq, Prod.mk.injEq] at h
      apply skipValue_of_skipScalar hs (by decide) (by decide)
      rw [← h.2]
      exact hr
  · simp at h

theorem passesOver_readOptional {read : List Char → Read α} (hread : PassesOver read) :
    PassesOver (readOptional read) := by
  intro cs x rest h
  unfold readOptional at h
  split at h
  · next r hs =>
    cases hr : readLiteral ['u', 'l', 'l'] r with
    | error f => simp [hr] at h
    | ok r' =>
      simp only [hr, Except.ok.injEq, Prod.mk.injEq] at h
      apply skipValue_of_skipScalar hs (by decide) (by decide)
      rw [← h.2]
      exact hr
  · cases hr : read (skipBlanks cs) with
    | error f => simp [hr] at h
    | ok p =>
      simp only [hr, Except.ok.injEq, Prod.mk.injEq] at h
      rw [← h.2, ← skipValue_skipBlanks]
      exact hread hr

theorem passesOver_optional {name : String} {read : List Char → Read α} {hr : Shortens read}
    {put : Option α → ρ → ρ} (hread : PassesOver read) :
    PassesOver (Field.optional name read hr put).read := by
  intro cs a rest h
  cases ho : readOptional read cs with
  | error f => simp [Field.optional, ho, Except.map] at h
  | ok p =>
    simp only [Field.optional, ho, Except.map, Except.ok.injEq, Prod.mk.injEq] at h
    rw [← h.2]
    exact passesOver_readOptional hread ho

/-- **A text is accepted** by a reading function in some place where it may stand. -/
def Accepts (read : List Char → Read α) (t : List Char) : Prop :=
  ∃ before rest p, Space before ∧ EndsNumber rest ∧ read (before ++ (t ++ rest)) = .ok p

/-- What is accepted where `null` may be, and is not `null`, is accepted where it may not. -/
theorem accepts_of_optional {name : String} {read : List Char → Read α} {hr : Shortens read}
    {put : Option α → ρ → ρ} {c : Char} {more : List Char}
    (h : Accepts (Field.optional name read hr put).read (c :: more)) (hblank : isBlank c = false)
    (hnull : c ≠ 'n') : Accepts read (c :: more) := by
  obtain ⟨before, rest, p, hbefore, hrest, hread⟩ := h
  cases ha : read (c :: more ++ rest) with
  | ok q => exact ⟨[], rest, q, Space.nil, hrest, ha⟩
  | error f =>
    have hrefused : readOptional read (before ++ (c :: more ++ rest)) = .error f := by
      rw [readOptional, skipBlanks_append hbefore, List.cons_append, skipBlanks_cons hblank]
      split
      · next u hu => exact absurd (List.cons.inj hu).1 hnull
      · rw [← List.cons_append, ha]
    simp only [Field.optional, hrefused] at hread
    cases hread

/-! ## §2 Records are passed over too -/

/-- What is awaited where the next item of a bracket is to come, the first one or a later one. -/
def Awaited.item (first : Bool) : Awaited :=
  if first then .firstItem else .separator

theorem skipFrom_item_closing (b : Bracket) {cs rest : List Char} (hs : skipBlanks cs = b.closing :: rest)
    (first : Bool) (outer : List Bracket) :
    skipFrom (.item first) (b :: outer) cs = skipFrom .separator outer rest := by
  cases first with
  | true =>
    show skipFrom .firstItem _ _ = _
    rw [skipFrom_firstItem_eq, hs]
    exact if_pos rfl
  | false =>
    show skipFrom .separator _ _ = _
    rw [skipFrom_separator_eq, hs]
    exact if_pos rfl

namespace Shape

variable {shape : Shape ρ}

/-- The end of a bracket is its closing character, with blanks before it. -/
theorem skipBlanks_of_readEnd {b : Bracket} {cs rest : List Char} (h : readEnd b cs = (rest, none)) :
    skipBlanks cs = b.closing :: rest := by
  unfold readEnd at h
  split at h
  · simp at h
  · next c r hs =>
    split at h
    · next hc =>
      rw [Prod.mk.injEq] at h
      rw [hs, hc, h.1]
    · split at h
      · cases b <;> simp at h
      · simp at h

theorem of_finish {b : Bracket} {content : Read ρ} {r : ρ} {rest : List Char}
    (h : finish b content = .ok (r, rest)) :
    ∃ left, content = .ok (r, left) ∧ skipBlanks left = b.closing :: rest := by
  unfold finish at h
  split at h
  · next a left =>
    split at h
    · next rest' hend =>
      simp only [Except.ok.injEq, Prod.mk.injEq] at h
      rw [← h.1, ← h.2]
      exact ⟨left, rfl, skipBlanks_of_readEnd hend⟩
    · simp at h
  · simp at h
  · simp at h

/-- A member whose name and value are read can be passed over. -/
theorem skipFrom_member {first : Bool} {c : Char} {cs r r₁ r₂ r₃ r₄ : List Char}
    (hs : skipBlanks cs = c :: r) (hc : c ≠ '}') (hstart : readNameStart first c r = .ok r₁)
    (hname : skipString r₁ = .ok r₂) (hcolon : readColon r₂ = .ok r₃) (hvalue : skipValue r₃ = .ok r₄)
    (outer : List Bracket) :
    skipFrom (.item first) (.record :: outer) cs = skipFrom .separator (.record :: outer) r₄ := by
  have hclosing : c ≠ Bracket.record.closing := hc
  have hrest := skipFrom_value_of_skipValue hvalue (.record :: outer)
  cases first with
  | true =>
    show skipFrom .firstItem _ _ = _
    simp only [readNameStart, if_true] at hstart
    split at hstart
    · next hquote =>
      subst hquote
      obtain rfl : r = r₁ := by simpa using hstart
      rw [skipFrom_firstItem_eq, hs]
      simp [hclosing, Bracket.skipToValue, skipName, skipBlanks_cons, isBlank, hname, hcolon, Except.bind,
        hrest]
    · simp at hstart
  | false =>
    show skipFrom .separator _ _ = _
    simp only [readNameStart, Bool.false_eq_true, if_false] at hstart
    split at hstart
    · next hcomma =>
      subst hcomma
      split at hstart
      · simp at hstart
      · next d r' hs' =>
        split at hstart
        · simp at hstart
        · split at hstart
          · next hquote =>
            subst hquote
            obtain rfl : r' = r₁ := by simpa using hstart
            rw [skipFrom_separator_eq, hs]
            simp [hclosing, Bracket.skipToValue, skipName, hs', hname, hcolon, Except.bind, hrest]
          · simp at hstart
    · simp at hstart

theorem skipFrom_of_readMembers (hpass : ∀ f ∈ shape.fields, PassesOver f.read) {first : Bool}
    {seen : List String} {acc r : ρ} {cs rest : List Char}
    (h : shape.readMembers first seen acc cs = .ok (r, rest)) (outer : List Bracket) :
    ∃ left, rest = '}' :: left ∧
      skipFrom (.item first) (.record :: outer) cs = skipFrom .separator outer left := by
  -- it goes well at the closing brace, with a field and with a member that is passed over
  fun_induction readMembers shape first seen acc cs generalizing r rest with
  | case2 first seen acc cs left hs =>
    simp only [Except.ok.injEq, Prod.mk.injEq] at h
    exact ⟨left, h.2.symm, skipFrom_item_closing .record hs first outer⟩
  | case8 first seen acc cs c r₀ hs hc r₁ hn name r₂ ht f hf _ r₃ hcolon put r₄ hv ih =>
    obtain ⟨left, hrest, hskip⟩ := ih h
    have hvalue := hpass f (List.mem_of_find?_eq_some hf) hv
    refine ⟨left, hrest, ?_⟩
    rw [skipFrom_member hs hc hn (skipString_of_readString ht) hcolon hvalue]
    exact hskip
  | case11 first seen acc cs c r₀ hs hc r₁ hn name r₂ ht _ r₃ hcolon r₄ hv ih =>
    obtain ⟨left, hrest, hskip⟩ := ih h
    refine ⟨left, hrest, ?_⟩
    rw [skipFrom_member hs hc hn (skipString_of_readString ht) hcolon hv]
    exact hskip
  | _ => simp at h

/-- An element that is read can be passed over. -/
theorem skipFrom_element {first : Bool} {c : Char} {cs r r₁ r₂ : List Char}
    (hs : skipBlanks cs = c :: r) (hc : c ≠ ']') (hstart : readElementStart first c r = .ok r₁)
    (hvalue : skipValue r₁ = .ok r₂) (outer : List Bracket) :
    skipFrom (.item first) (.list :: outer) cs = skipFrom .separator (.list :: outer) r₂ := by
  have hclosing : c ≠ Bracket.list.closing := hc
  have hrest := skipFrom_value_of_skipValue hvalue (.list :: outer)
  cases first with
  | true =>
    show skipFrom .firstItem _ _ = _
    obtain rfl : c :: r = r₁ := by simpa [readElementStart] using hstart
    rw [skipFrom_firstItem_eq, hs]
    simp only [if_neg hclosing]
    exact hrest
  | false =>
    show skipFrom .separator _ _ = _
    simp only [readElementStart, Bool.false_eq_true, if_false] at hstart
    split at hstart
    · next hcomma =>
      subst hcomma
      split at hstart
      · simp at hstart
      · next d r' hs' =>
        split at hstart
        · simp at hstart
        · obtain rfl : d :: r' = r₁ := by simpa using hstart
          rw [skipFrom_separator_eq, hs]
          simp only [if_neg hclosing, if_true]
          show skipFrom .value _ r = _
          rw [← hrest, skipFrom_value_eq, skipFrom_value_eq, ← hs', skipBlanks_skipBlanks]
    · simp at hstart

theorem skipFrom_of_readElements {fields : List (Field ρ)} (hpass : ∀ f ∈ fields, PassesOver f.read)
    {count : Nat} {acc r : ρ} {cs left rest : List Char}
    (h : shape.readElements count acc fields cs = .ok (r, left)) (hend : skipBlanks left = ']' :: rest)
    (outer : List Bracket) :
    skipFrom (.item (count = 0)) (.list :: outer) cs = skipFrom .separator outer rest := by
  induction fields generalizing count acc cs with
  | nil =>
    simp only [readElements, Except.ok.injEq, Prod.mk.injEq] at h
    rw [h.2]
    exact skipFrom_item_closing .list hend _ outer
  | cons f fields ih =>
    rw [readElements] at h
    split at h
    · simp at h
    · next c r₀ hs =>
      split at h
      · simp at h
      · next hc =>
        split at h
        · simp at h
        · next r₁ hn =>
          split at h
          · simp at h
          · next put r₂ hv =>
            have hvalue := hpass f List.mem_cons_self hv
            have hmore := ih (fun g hg => hpass g (List.mem_cons_of_mem f hg)) h
            rw [skipFrom_element hs hc hn hvalue]
            exact hmore

/-- **A record that is read could be passed over**, if its fields could. -/
theorem passesOver_read (hpass : ∀ f ∈ shape.fields, PassesOver f.read) : PassesOver shape.read := by
  intro cs r rest h
  unfold read at h
  split at h
  · simp at h
  · next c r₀ hs =>
    rw [skipValue, skipFrom_value_eq, hs]
    split at h
    · next hrecord =>
      subst hrecord
      -- members end at the brace, so that no blanks are left before it
      obtain ⟨left, hmembers, hend⟩ := of_finish h
      obtain ⟨left', hleft, hskip⟩ := skipFrom_of_readMembers hpass hmembers []
      rw [hleft, skipBlanks_cons (by decide)] at hend
      obtain rfl : left' = rest := (List.cons.inj hend).2
      rw [skipFrom_separator_nil] at hskip
      exact hskip
    · split at h
      · next hlist =>
        subst hlist
        obtain ⟨left, helements, hend⟩ := of_finish h
        have hskip := skipFrom_of_readElements hpass helements hend []
        rw [skipFrom_separator_nil] at hskip
        exact hskip
      · simp at h

/-! ## §3 Members that are read -/

/-- **Members that can be read together**: each one that gives a field is new and has a text that the
field accepts. What has been `seen` only grows. -/
inductive Regular (shape : Shape ρ) : List String → List (List Char × List Char) → Prop where
  | nil {seen : List String} : Regular shape seen []
  | cons {seen seen' : List String} {m : List Char × List Char} {ms : List (List Char × List Char)}
      (hnew : ∀ name f, shape.field? name = some f → Named name m.1 → name ∉ seen)
      (haccepts : ∀ name f, shape.field? name = some f → Named name m.1 → Accepts f.read m.2)
      (hseen : ∀ name f, shape.field? name = some f → Named name m.1 → name ∈ seen')
      (hgrows : seen ⊆ seen') (h : Regular shape seen' ms) : Regular shape seen (m :: ms)

/-- The place up to which a value is read. -/
theorem rest_of_read {read : List Char → Read α} (hpass : PassesOver read) {before v rest : List Char}
    (hbefore : Space before) (hv : IsValue v) (hrest : EndsNumber rest) {a : α} {left : List Char}
    (h : read (before ++ (v ++ rest)) = .ok (a, left)) : left = rest := by
  have hskip := hpass h
  rw [skipValue_append hbefore hv hrest, Except.ok.injEq] at hskip
  exact hskip.symm

/-- **What a member that is read can be**: one that gives a field which is new, or one that is passed
over. -/
theorem of_readMembers_name {first : Bool} {seen : List String} {acc : ρ}
    {before name colon rest : List Char} (hbefore : Space before) (hname : Quotable name)
    (hcolon : Space colon) {p : ρ × List Char}
    (h : shape.readMembers first seen acc
      (beginning first ++ (before ++ '"' :: (name ++ '"' :: (colon ++ ':' :: rest)))) = .ok p) :
    ∃ s, (∀ name', Named name' name → name' = s) ∧
      ((∃ f put left, shape.field? s = some f ∧ s ∉ seen ∧ f.read rest = .ok (put, left) ∧
          shape.readMembers false (s :: seen) (put acc) left = .ok p) ∨
        (∃ left, shape.field? s = none ∧ skipValue rest = .ok left ∧
          shape.readMembers false seen acc left = .ok p)) := by
  rw [readMembers_start shape first seen acc hbefore] at h
  cases hs : readString (name ++ '"' :: (colon ++ ':' :: rest)) with
  | error e => simp [hs, Except.bind] at h
  | ok q =>
    obtain ⟨s, left⟩ := q
    -- the name is read as far as it is passed over
    have hskip := skipString_of_readString hs
    rw [skipString_append hname, Except.ok.injEq] at hskip
    subst hskip
    refine ⟨String.ofList s, ?_, ?_⟩
    · intro name' hname'
      have hread := readString_append hname' (colon ++ ':' :: rest)
      rw [hs] at hread
      simp only [Except.ok.injEq, Prod.mk.injEq, and_true] at hread
      rw [hread, String.ofList_toList]
    · simp only [hs, Except.bind, readColon_append hcolon] at h
      cases hfield : shape.field? (String.ofList s) with
      | none =>
        cases hv : skipValue rest with
        | error e => simp [hfield, hv] at h
        | ok left =>
          simp only [hfield, hv] at h
          exact .inr ⟨left, rfl, rfl, h⟩
      | some f =>
        have hf : f.name = String.ofList s := name_of_field? hfield
        simp only [hfield, hf] at h
        split at h
        · simp at h
        · next hnew =>
          cases hv : f.read rest with
          | error e => simp [hv] at h
          | ok q =>
            simp only [hv] at h
            exact .inl ⟨f, q.1, q.2, rfl, by simpa using hnew, hv, h⟩

/-- **A member that is read is regular**, and the members after it are read next. -/
theorem regular_of_member (hpass : ∀ f ∈ shape.fields, PassesOver f.read) {m : List Char × List Char}
    {t : List Char} (h : Member AsWritten m t) (hvalue : IsValue m.2) {first : Bool}
    {seen : List String} {acc : ρ} {rest : List Char} (hrest : EndsNumber rest) {p : ρ × List Char}
    (hread : shape.readMembers first seen acc (beginning first ++ (t ++ rest)) = .ok p) :
    ∃ seen' acc', shape.readMembers false seen' acc' rest = .ok p ∧
      ∀ ms, shape.Regular seen' ms → shape.Regular seen (m :: ms) := by
  cases h with
  | @mk _ before name colon between value after hbefore hname hcolon hbetween hafter =>
    obtain ⟨rfl, hquotable⟩ := hname
    have hend : EndsNumber (after ++ rest) := hrest.space_append hafter
    have hblanks := fun seen acc => readMembers_space shape false seen acc hafter rest
    simp only [List.append_assoc, List.cons_append] at hread
    obtain ⟨s, hs, ⟨f, put, left, hfield, hnew, hv, hmore⟩ | ⟨left, hfield, hv, hmore⟩⟩ :=
      of_readMembers_name hbefore hquotable hcolon hread
    · -- the field is new, and it reads the value to its end
      have hpassed : PassesOver f.read := hpass f (List.mem_of_find?_eq_some hfield)
      obtain rfl := rest_of_read hpassed hbetween hvalue hend hv
      rw [hblanks] at hmore
      refine ⟨_, _, hmore, ?_⟩
      intro ms hms
      refine .cons ?_ ?_ ?_ (List.subset_cons_self s seen) hms
      · intro name' g _ hname'
        rw [hs name' hname']
        exact hnew
      · intro name' g hg hname'
        rw [hs name' hname', hfield] at hg
        obtain rfl : f = g := Option.some.inj hg
        exact ⟨between, after ++ rest, _, hbetween, hend, hv⟩
      · intro name' g _ hname'
        rw [hs name' hname']
        exact List.mem_cons_self
    · rw [skipValue_append hbetween hvalue hend, Except.ok.injEq] at hv
      rw [← hv, hblanks] at hmore
      refine ⟨seen, acc, hmore, ?_⟩
      intro ms hms
      -- the name is that of no field
      apply Regular.cons _ _ _ (List.Subset.refl seen) hms
      all_goals
        intro name' g hg hname'
        rw [hs name' hname', hfield] at hg
        cases hg

/-- **Members that are read are regular.** -/
theorem regular_of_readMembers (hpass : ∀ f ∈ shape.fields, PassesOver f.read)
    {ms : List (List Char × List Char)} {t : List Char} (h : CommaSeparated (Member AsWritten) ms t)
    (hvalues : ∀ m ∈ ms, IsValue m.2) {first : Bool} {seen : List String} {acc : ρ} {rest : List Char}
    {p : ρ × List Char}
    (hread : shape.readMembers first seen acc (beginning first ++ (t ++ '}' :: rest)) = .ok p) :
    shape.Regular seen ms := by
  induction h generalizing first seen acc with
  | @one m t h =>
    obtain ⟨seen', acc', -, hregular⟩ :=
      regular_of_member hpass h (hvalues m List.mem_cons_self) (endsNumber_closing .record rest) hread
    exact hregular [] .nil
  | @more m ms t u h _ ih =>
    rw [List.append_assoc, List.cons_append] at hread
    obtain ⟨seen', acc', hmore, hregular⟩ :=
      regular_of_member hpass h (hvalues m List.mem_cons_self) (endsNumber_comma (u ++ '}' :: rest)) hread
    exact hregular ms (ih (fun m' hm' => hvalues m' (List.mem_cons_of_mem m hm')) hmore)

/-- A field accepts the text of each member that gives it. -/
theorem Regular.accepts {seen : List String} {ms : List (List Char × List Char)}
    (h : shape.Regular seen ms) {m : List Char × List Char} (hm : m ∈ ms) {name : String} {f : Field ρ}
    (hf : shape.field? name = some f) (hname : Named name m.1) : Accepts f.read m.2 := by
  induction h with
  | nil => cases hm
  | cons hnew haccepts hseen hgrows h ih =>
    rcases List.mem_cons.mp hm with rfl | hm
    · exact haccepts name f hf hname
    · exact ih hm

/-- No member gives a field that was given before. -/
theorem Regular.not_mem_seen {seen : List String} {ms : List (List Char × List Char)}
    (h : shape.Regular seen ms) {m : List Char × List Char} (hm : m ∈ ms) {name : String} {f : Field ρ}
    (hf : shape.field? name = some f) (hname : Named name m.1) : name ∉ seen := by
  induction h with
  | nil => cases hm
  | cons hnew haccepts hseen hgrows h ih =>
    rcases List.mem_cons.mp hm with rfl | hm
    · exact hnew name f hf hname
    · intro hmem
      exact ih hm (hgrows hmem)

/-- **No two members give one field.** -/
theorem Regular.once {seen : List String} {before between after : List (List Char × List Char)}
    {m m' : List Char × List Char} (h : shape.Regular seen (before ++ m :: (between ++ m' :: after)))
    {name : String} {f : Field ρ} (hf : shape.field? name = some f) (hname : Named name m.1)
    (hname' : Named name m'.1) : False := by
  induction before generalizing seen with
  | nil =>
    cases h with
    | cons hnew haccepts hseen hgrows h =>
      -- the first of the two is seen when the second comes
      have hmem : m' ∈ between ++ m' :: after := by simp
      exact h.not_mem_seen hmem hf hname' (hseen name f hf hname)
  | cons b before ih =>
    cases h with
    | cons hnew haccepts hseen hgrows h => exact ih h

/-! ## §4 Elements that are read -/

/-- A list that ends while a field is left is refused. -/
theorem readElements_closing (shape : Shape ρ) (count : Nat) (acc : ρ) (f : Field ρ)
    (fields : List (Field ρ)) {blanks : List Char} (h : Space blanks) (rest : List Char) :
    shape.readElements count acc (f :: fields) (blanks ++ ']' :: rest) =
      .error (.unplaced (.wrongLength count shape.asList) (']' :: rest)) := by
  rw [readElements, skipBlanks_append h, skipBlanks_cons (by decide)]
  rfl

/-- An element is read by a field, and the elements after it by the other fields. -/
theorem accepts_of_element {fields : List (Field ρ)} (hpass : ∀ f ∈ fields, PassesOver f.read)
    {v t : List Char} (h : Element v t) (hv : IsValue v) {count : Nat} {acc r : ρ}
    {blanks rest left rest' : List Char} (hblanks : Space blanks) (hrest : EndsNumber rest)
    (hread : shape.readElements count acc fields
      (blanks ++ (beginning (count = 0) ++ (t ++ rest))) = .ok (r, left))
    (hend : skipBlanks left = ']' :: rest') :
    ∃ f fields' acc' blanks', fields = f :: fields' ∧ Accepts f.read v ∧ Space blanks' ∧
      shape.readElements (count + 1) acc' fields' (blanks' ++ rest) = .ok (r, left) := by
  cases h with
  | @mk before _ after hbefore hafter =>
    obtain ⟨c, more, hcons, hc⟩ := hv.skipped.begins
    obtain ⟨d, cs, hs, hd, hstart⟩ :=
      readElementStart_append (count = 0) hblanks hbefore hc (more ++ (after ++ rest))
    have htext : before ++ (v ++ after) ++ rest = before ++ c :: (more ++ (after ++ rest)) := by
      rw [List.append_assoc, List.append_assoc, hcons, List.cons_append]
    rw [htext] at hread
    cases fields with
    | nil =>
      -- with no field left the list would have to end here
      simp only [readElements, Except.ok.injEq, Prod.mk.injEq] at hread
      rw [← hread.2, hs] at hend
      exact absurd (List.cons.inj hend).1 hd
    | cons f fields =>
      rw [readElements, hs] at hread
      simp only [if_neg hd, hstart] at hread
      cases hf : f.read (c :: (more ++ (after ++ rest))) with
      | error e => simp [hf] at hread
      | ok q =>
        simp only [hf] at hread
        have hafter_end : EndsNumber (after ++ rest) := hrest.space_append hafter
        have hread_v : f.read ([] ++ (v ++ (after ++ rest))) = .ok (q.1, q.2) := by
          rw [List.nil_append, hcons]
          exact hf
        have hleft := rest_of_read (hpass f List.mem_cons_self) Space.nil hv hafter_end hread_v
        rw [hleft] at hread
        exact ⟨f, fields, q.1 acc, after, rfl, ⟨[], _, _, Space.nil, hafter_end, hread_v⟩, hafter, hread⟩

/-- **Elements that are read are one for each field**, which accepts the text of it. -/
theorem accepts_of_readElements {fields : List (Field ρ)}
    (hpass : ∀ f ∈ fields, PassesOver f.read) {vs : List (List Char)} {t : List Char}
    (h : CommaSeparated Element vs t) (hvalues : ∀ v ∈ vs, IsValue v) {count : Nat} {acc r : ρ}
    {blanks rest left rest' : List Char} (hblanks : Space blanks)
    (hread : shape.readElements count acc fields
      (blanks ++ (beginning (count = 0) ++ (t ++ ']' :: rest))) = .ok (r, left))
    (hend : skipBlanks left = ']' :: rest') :
    List.Forall₂ (fun f v => Accepts f.read v) fields vs := by
  induction h generalizing fields count acc blanks with
  | @one v t h =>
    obtain ⟨f, fields, acc', blanks', rfl, hv, hblanks', hmore⟩ :=
      accepts_of_element hpass h (hvalues v List.mem_cons_self) hblanks
        (endsNumber_closing .list rest) hread hend
    cases fields with
    | nil => exact .cons hv .nil
    | cons g fields =>
      -- another field finds the end of the list
      have hrefused := readElements_closing shape (count + 1) acc' g fields hblanks' rest
      exact absurd (hmore.symm.trans hrefused) (by simp)
  | @more v vs t u h _ ih =>
    rw [List.append_assoc, List.cons_append] at hread
    obtain ⟨f, fields, acc', blanks', rfl, hv, hblanks', hmore⟩ :=
      accepts_of_element hpass h (hvalues v List.mem_cons_self) hblanks
        (endsNumber_comma (u ++ ']' :: rest)) hread hend
    refine .cons hv ?_
    exact ih (fun g hg => hpass g (List.mem_cons_of_mem f hg))
      (fun w hw => hvalues w (List.mem_cons_of_mem v hw)) hblanks' hmore

/-! ## §5 Records that are accepted -/

/-- **An accepted record has regular members.** -/
theorem regular_of_accepts (hpass : ∀ f ∈ shape.fields, PassesOver f.read)
    {ms : List (List Char × List Char)} {t : List Char} (h : RecordOf AsWritten ms t)
    (hvalues : ∀ m ∈ ms, IsValue m.2) (haccepts : Accepts shape.read t) : shape.Regular [] ms := by
  obtain ⟨before, rest, ⟨r, left⟩, hbefore, -, hread⟩ := haccepts
  cases h with
  | empty => exact .nil
  | @items _ t h =>
    rw [read, skipBlanks_append hbefore, List.cons_append, List.append_assoc] at hread
    have hopening : skipBlanks ('{' :: (t ++ ('}' :: rest))) = '{' :: (t ++ ('}' :: rest)) :=
      skipBlanks_cons (by decide) _
    simp only [Bracket.opening, Bracket.closing, List.singleton_append, hopening, if_true] at hread
    obtain ⟨left', hmembers, -⟩ := of_finish hread
    have hfirst : shape.readMembers true [] shape.blank (beginning true ++ (t ++ '}' :: rest)) =
        .ok (r, left') := hmembers
    exact regular_of_readMembers hpass h hvalues hfirst

/-- **An accepted list has an element for each field**, which accepts the text of it. -/
theorem forall₂_of_accepts (hpass : ∀ f ∈ shape.fields, PassesOver f.read) {vs : List (List Char)}
    {t : List Char} (h : ListOf vs t) (hvalues : ∀ v ∈ vs, IsValue v)
    (haccepts : Accepts shape.read t) :
    List.Forall₂ (fun f v => Accepts f.read v) shape.fields vs := by
  obtain ⟨before, rest, ⟨r, left⟩, hbefore, -, hread⟩ := haccepts
  have hcontent : ∀ t', shape.read (before ++ ('[' :: (t' ++ [']']) ++ rest)) = .ok (r, left) →
      ∃ left', shape.readElements 0 shape.blank shape.fields (t' ++ ']' :: rest) = .ok (r, left') ∧
        skipBlanks left' = ']' :: left := by
    intro t' hread
    rw [read, skipBlanks_append hbefore, List.cons_append, List.append_assoc,
      skipBlanks_cons (by decide)] at hread
    exact of_finish hread
  cases h with
  | @empty blanks hblanks =>
    obtain ⟨left', helements, -⟩ := hcontent blanks hread
    cases hfields : shape.fields with
    | nil => exact .nil
    | cons f fields =>
      rw [hfields, readElements_closing shape 0 _ f fields hblanks] at helements
      cases helements
  | @items _ t h =>
    obtain ⟨left', helements, hend⟩ := hcontent t hread
    exact accepts_of_readElements hpass h hvalues Space.nil helements hend

end Shape

/-! ## §6 Improper records -/

/-- **Texts that give no record with fields of these names**: one of the fields is given twice, or the
fields are listed in another number. All else that the text holds may be any value. -/
inductive Improper (names : List String) : List Char → Prop where
  | twice {before between after : List (List Char × List Char)} {m m' : List Char × List Char}
      {t : List Char} {name : String}
      (h : RecordOf AsWritten (before ++ m :: (between ++ m' :: after)) t)
      (hvalues : ∀ x ∈ before ++ m :: (between ++ m' :: after), IsValue x.2) (hknown : name ∈ names)
      (hname : Named name m.1) (hname' : Named name m'.1) : Improper names t
  | length {vs : List (List Char)} {t : List Char} (h : ListOf vs t) (hvalues : ∀ v ∈ vs, IsValue v)
      (hlength : vs.length ≠ names.length) : Improper names t

theorem Improper.isValue {names : List String} {t : List Char} (h : Improper names t) : IsValue t := by
  cases h with
  | twice h hvalues => exact .record h hvalues
  | length h hvalues => exact .list h hvalues

/-- An improper record opens a bracket. -/
theorem Improper.opening {names : List String} {t : List Char} (h : Improper names t) :
    ∃ c more, t = c :: more ∧ isBlank c = false ∧ c ≠ 'n' := by
  have hopening : ∀ b : Bracket, isBlank b.opening = false ∧ b.opening ≠ 'n' := by
    rintro (_ | _) <;> decide
  cases h with
  | twice h =>
    obtain ⟨more, ht⟩ := h.opening
    exact ⟨_, more, ht, hopening .record⟩
  | length h =>
    obtain ⟨more, ht⟩ := h.opening
    exact ⟨_, more, ht, hopening .list⟩

namespace Shape

variable {shape : Shape ρ}

/-- **Improper records are refused.** -/
theorem not_accepts_of_improper (hpass : ∀ f ∈ shape.fields, PassesOver f.read) {t : List Char}
    (h : Improper (shape.fields.map Field.name) t) : ¬ Accepts shape.read t := by
  intro haccepts
  cases h with
  | twice h hvalues hknown hname hname' =>
    obtain ⟨f, hf⟩ := exists_field?_iff.mpr hknown
    exact (regular_of_accepts hpass h hvalues haccepts).once hf hname hname'
  | length h hvalues hlength =>
    -- elements and fields come in pairs
    apply hlength
    rw [List.length_map]
    exact (forall₂_of_accepts hpass h hvalues haccepts).length_eq.symm

end Shape

end LoxLexer.Json
