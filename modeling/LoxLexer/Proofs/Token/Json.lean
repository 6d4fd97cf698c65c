import LoxLexer.Command.Run
import LoxLexer.Proofs.Json.Written
import LoxLexer.Proofs.Span.Rules

/-!
# Tokens as JSON lose nothing but numbers that are not finite

A list of tokens can be told from its text as JSON, in either layout. Reading goes from the left: names and
strings are escaped and end at the first quote that is not, numbers have neither quotes nor commas in them,
and the first character of a literal tells whether it is a string, a number or nothing. A number that is
not finite is written like a literal that is not there, and is all that cannot be told.

* `Shown`: what the text tells of a literal.
* `eq_of_quoted_append_eq`, `Shown.eq_of_json_append_eq`, `Token.agreesInJson_of_json_append_eq`: a string, a
  literal and a token are cut off in one way.
* `Token.listJson_eq_iff`: the texts of two lists are the same if and only if the tokens agree.
-/

namespace LoxLexer

open Json (Layout quoted)

/-! ## §1 Texts of numbers -/

/-- The characters that numbers in JSON are made of. -/
def isNumberPart (c : Char) : Bool :=
  isDigit c || c == '-' || c == '+' || c == '.' || c == 'e'

namespace NumberStyle

theorem isNumberPart_digitsOf (n : Nat) : ∀ c ∈ digitsOf n, isNumberPart c = true := by
  intro c hc
  simp [isNumberPart, isDigit_of_mem_digitsOf hc]

theorem isNumberPart_inPlaces (d : Decimal) : ∀ c ∈ inPlaces d, isNumberPart c = true := by
  have hdigits := isNumberPart_digitsOf d.digits
  have hzero : isNumberPart '0' = true := rfl
  have hpoint : isNumberPart '.' = true := rfl
  have hzeros : ∀ n, ∀ c ∈ List.replicate n '0', isNumberPart c = true := by
    intro n c hc
    rw [List.eq_of_mem_replicate hc]
    exact hzero
  have htake : ∀ n, ∀ c ∈ (digitsOf d.digits).take n, isNumberPart c = true := by
    intro n c hc
    exact hdigits c (List.mem_of_mem_take hc)
  have hdrop : ∀ n, ∀ c ∈ (digitsOf d.digits).drop n, isNumberPart c = true := by
    intro n c hc
    exact hdigits c (List.mem_of_mem_drop hc)
  -- the point comes after all digits, between them, or before all of them
  simp only [inPlaces]
  split
  · simp only [List.forall_mem_append, List.forall_mem_cons]
    exact ⟨⟨hdigits, hzeros _⟩, hpoint, hzero, by simp⟩
  · split
    · simp only [List.forall_mem_append, List.forall_mem_cons]
      exact ⟨htake _, hpoint, hdrop _⟩
    · simp only [List.forall_mem_append, List.forall_mem_cons]
      exact ⟨hzero, hpoint, hzeros _, hdigits⟩

theorem isNumberPart_scientific (d : Decimal) : ∀ c ∈ scientific d, isNumberPart c = true := by
  have hdigits := isNumberPart_digitsOf d.digits
  have hpoint : isNumberPart '.' = true := rfl
  have hletter : isNumberPart 'e' = true := rfl
  unfold scientific
  simp only [List.forall_mem_append, List.forall_mem_cons]
  refine ⟨⟨⟨?_, ?_⟩, hletter, ?_, by simp⟩, isNumberPart_digitsOf _⟩
  · intro c hc
    exact hdigits c (List.mem_of_mem_take hc)
  · split
    · simp
    · simp only [List.forall_mem_cons]
      refine ⟨hpoint, ?_⟩
      intro c hc
      exact hdigits c (List.mem_of_mem_drop hc)
  · split <;> rfl

theorem inPlaces_ne_nil (d : Decimal) : inPlaces d ≠ [] := by
  simp only [inPlaces]
  split
  · simp
  · split <;> simp

theorem scientific_ne_nil (d : Decimal) : scientific d ≠ [] := by
  simp [scientific]

/-- **The text of a finite number** is not empty and has the characters of numbers only. -/
theorem isNumberPart_write {x : Binary64} (hx : x.isFinite = true) :
    (json.write x).toList ≠ [] ∧ ∀ c ∈ (json.write x).toList, isNumberPart c = true := by
  have hnumber : x.isNaN = false := by
    simp only [Binary64.isFinite, bne_iff_ne, ne_eq] at hx
    simp [Binary64.isNaN, hx]
  have hsign : ∀ c ∈ (if x.isNegative then ['-'] else []), isNumberPart c = true := by
    split
    · simp [isNumberPart]
    · simp
  have hmagnitude : json.writeMagnitude x ≠ [] ∧
      ∀ c ∈ json.writeMagnitude x, isNumberPart c = true := by
    unfold writeMagnitude
    split
    · exact ⟨inPlaces_ne_nil _, isNumberPart_inPlaces _⟩
    · dsimp only
      split
      · exact ⟨inPlaces_ne_nil _, isNumberPart_inPlaces _⟩
      · exact ⟨scientific_ne_nil _, isNumberPart_scientific _⟩
  -- for a finite number there is a sign at most, and then digits
  simp only [write, hnumber, hx, Bool.false_eq_true, Bool.not_true, if_false, String.toList_ofList]
  refine ⟨List.append_ne_nil_of_right_ne_nil _ hmagnitude.1, ?_⟩
  rw [List.forall_mem_append]
  exact ⟨hsign, hmagnitude.2⟩

end NumberStyle

/-! ## §2 Literals -/

/-- **What JSON tells of a literal**: a string is told from a number and from nothing, and a number by its
text if it is finite. -/
inductive Shown where
  | null
  | text (s : String)
  | number (written : String)
deriving DecidableEq

/-- What JSON tells of an optional literal. -/
def shown : Option Literal → Shown
  | none => .null
  | some (.text s) => .text s
  | some (.number x) => if x.isFinite then .number (NumberStyle.json.write x) else .null

/-- The text of what is told. -/
def Shown.json : Shown → List Char
  | null => ['n', 'u', 'l', 'l']
  | text s => (quoted s).toList
  | number written => written.toList

/-- Whether a text is that of a number. -/
def Shown.IsWritten : Shown → Prop
  | number written => written.toList ≠ [] ∧ ∀ c ∈ written.toList, isNumberPart c = true
  | _ => True

theorem isWritten_shown (l : Option Literal) : (shown l).IsWritten := by
  unfold shown
  split
  · trivial
  · trivial
  · next x =>
    split
    · next hx => exact NumberStyle.isNumberPart_write hx
    · trivial

theorem Token.toList_literalJson (t : Token) : t.literalJson.toList = (shown t.literal).json := by
  have hnull : "null".toList = ['n', 'u', 'l', 'l'] := rfl
  unfold Token.literalJson shown
  rcases t.literal with _ | s | x
  · exact hnull
  · rfl
  · by_cases hx : x.isFinite = true
    · simp [hx, Literal.json, Shown.json]
    · simp only [hx, Literal.json, Shown.json, NumberStyle.write, NumberStyle.json]
      simp

/-! ## §3 Cutting from the left -/

/-- **A quoted string is cut off in one way**, whatever follows. -/
theorem eq_of_quoted_append_eq {s t : String} {u v : List Char}
    (h : (quoted s).toList ++ u = (quoted t).toList ++ v) : s = t ∧ u = v := by
  simp only [quoted, String.toList_ofList, List.cons_append, List.append_assoc, List.nil_append,
    List.cons.injEq, true_and] at h
  -- there is one text, and it is read as each of the strings
  have hs := Json.readString_append (Json.spells_flatMap_escape s.toList) u
  have ht := Json.readString_append (Json.spells_flatMap_escape t.toList) v
  rw [h, ht, Except.ok.injEq, Prod.mk.injEq] at hs
  exact ⟨(String.toList_inj.mp hs.1).symm, hs.2.symm⟩

/-- A natural number is cut off in one way where no digit follows. -/
theorem eq_of_digitsOf_append_eq {m n : Nat} {u v : List Char}
    (hu : ∀ c ∈ u.head?, isDigit c = false) (hv : ∀ c ∈ v.head?, isDigit c = false)
    (h : NumberStyle.digitsOf m ++ u = NumberStyle.digitsOf n ++ v) : m = n ∧ u = v := by
  have hdigits : ∀ n, ∀ c ∈ NumberStyle.digitsOf n, isDigit c = true := fun _ _ =>
    NumberStyle.isDigit_of_mem_digitsOf
  obtain ⟨hmn, huv⟩ := eq_of_append_eq (hdigits m) (hdigits n) hu hv h
  exact ⟨NumberStyle.digitsOf_injective hmn, huv⟩

namespace Shown

theorem json_text (s : String) : (text s).json = '"' :: (s.toList.flatMap Json.escape ++ ['"']) :=
  String.toList_ofList

/-- A number begins with a character of numbers. -/
theorem json_append_ne {written : String} (h : (number written).IsWritten) {c : Char}
    (hc : isNumberPart c = false) (u v : List Char) : (number written).json ++ u ≠ c :: v := by
  intro heq
  obtain ⟨hne, hparts⟩ := h
  obtain ⟨d, ds, hd⟩ := List.exists_cons_of_ne_nil hne
  rw [json, hd, List.cons_append, List.cons.injEq] at heq
  have hpart := hparts d (hd ▸ List.mem_cons_self)
  rw [heq.1, hc] at hpart
  exact Bool.false_ne_true hpart

/-- **A literal is cut off in one way** where a comma follows. -/
theorem eq_of_json_append_eq {a b : Shown} (ha : a.IsWritten) (hb : b.IsWritten) {u v : List Char}
    (h : a.json ++ ',' :: u = b.json ++ ',' :: v) : a = b ∧ u = v := by
  have hcomma : ∀ {written : String}, (number written).IsWritten → ',' ∉ written.toList := by
    intro written hwritten hmem
    exact absurd (hwritten.2 ',' hmem) (by decide)
  -- the first character tells what literal it is
  cases a with
  | null =>
    cases b with
    | null => simpa [json] using h
    | text t =>
      rw [json_text] at h
      simp [json] at h
    | number t => exact absurd h.symm (json_append_ne hb rfl _ _)
  | text s =>
    cases b with
    | null =>
      rw [json_text] at h
      simp [json] at h
    | text t =>
      obtain ⟨rfl, hrest⟩ := eq_of_quoted_append_eq h
      exact ⟨rfl, (List.cons.inj hrest).2⟩
    | number t =>
      rw [json_text] at h
      exact absurd h.symm (json_append_ne hb rfl _ _)
  | number s =>
    cases b with
    | null => exact absurd h (json_append_ne ha rfl _ _)
    | text t =>
      rw [json_text] at h
      exact absurd h (json_append_ne ha rfl _ _)
    | number t =>
      obtain ⟨hst, hrest⟩ := eq_of_append_cons_eq (hcomma ha) (hcomma hb) h
      exact ⟨congrArg number (String.toList_inj.mp hst), hrest⟩

end Shown

/-! ## §4 Layouts -/

namespace Json.Layout

/-- What stands before the value of a member. -/
def start (layout : Layout) (depth : Nat) (name : String) : List Char :=
  layout.lead depth ++ (layout.member name "").toList

/-- The bracket after an item, and a line feed before it, are no digits. -/
theorem isDigit_lead (layout : Layout) (depth : Nat) (u : List Char) :
    ∀ c ∈ (layout.lead depth ++ '}' :: u).head?, isDigit c = false := by
  have hclosing : isDigit '}' = false := rfl
  have hnewLine : isDigit '\n' = false := rfl
  cases layout <;> simp [lead, newLine, hclosing, hnewLine]

end Json.Layout

/-! ## §5 Tokens -/

namespace Token

/-- A token as JSON: what is told of it, between parts that are the same for all tokens. -/
theorem toList_json (layout : Layout) (depth : Nat) (t : Token) :
    (t.json layout depth).toList =
      '{' :: (layout.start (depth + 1) "kind" ++ ((quoted t.kind.name).toList ++
        ',' :: (layout.start (depth + 1) "lexeme" ++ ((quoted t.lexeme).toList ++
          ',' :: (layout.start (depth + 1) "literal" ++ ((shown t.literal).json ++
            ',' :: (layout.start (depth + 1) "line" ++ (NumberStyle.digitsOf t.line ++
              (layout.lead depth ++ ['}']))))))))) := by
  rw [json, Layout.record, List.map_cons, Layout.toList_bracketed]
  simp only [List.map_cons, List.map_nil, List.flatMap_cons, List.flatMap_nil,
    Layout.toList_member _ _ (quoted _), Layout.toList_member _ _ t.literalJson,
    Layout.toList_member _ _ (toString t.line), toList_literalJson]
  simp [Layout.start, NumberStyle.digitsOf]

/-- **What JSON tells of a token**: all but which number that is not finite it has for a literal, if it
has one at all. -/
structure AgreesInJson (t u : Token) : Prop where
  kind : t.kind = u.kind
  lexeme : t.lexeme = u.lexeme
  line : t.line = u.line
  literal : shown t.literal = shown u.literal

theorem AgreesInJson.json_eq {t u : Token} (h : t.AgreesInJson u) (layout : Layout) (depth : Nat) :
    t.json layout depth = u.json layout depth := by
  rw [← String.toList_inj, toList_json, toList_json, h.kind, h.lexeme, h.line, h.literal]

/-- **A token is cut off in one way**, whatever follows. -/
theorem agreesInJson_of_json_append_eq {layout : Layout} {depth : Nat} {t u : Token}
    {v w : List Char} (h : (t.json layout depth).toList ++ v = (u.json layout depth).toList ++ w) :
    t.AgreesInJson u ∧ v = w := by
  rw [toList_json, toList_json] at h
  simp only [List.append_assoc, List.cons_append, List.nil_append] at h
  -- kind, lexeme, literal and line, one after the other
  obtain ⟨hkind, h⟩ := eq_of_quoted_append_eq (List.append_cancel_left (List.cons.inj h).2)
  obtain ⟨hlexeme, h⟩ := eq_of_quoted_append_eq (List.append_cancel_left (List.cons.inj h).2)
  obtain ⟨hliteral, h⟩ := Shown.eq_of_json_append_eq (isWritten_shown _) (isWritten_shown _)
    (List.append_cancel_left (List.cons.inj h).2)
  obtain ⟨hline, h⟩ := eq_of_digitsOf_append_eq (layout.isDigit_lead depth v)
    (layout.isDigit_lead depth w) (List.append_cancel_left h)
  exact ⟨⟨Kind.name_injective hkind, hlexeme, hline, hliteral⟩,
    (List.cons.inj (List.append_cancel_left h)).2⟩

/-! ## §6 Lists of tokens -/

/-- The tokens after the first one, each with its comma, and the end of the list. -/
def moreJson (layout : Layout) (ts : List Token) : List Char :=
  (ts.flatMap fun t => ',' :: (layout.lead 1 ++ (t.json layout 1).toList)) ++ (layout.lead 0 ++ [']'])

theorem moreJson_cons (layout : Layout) (t : Token) (ts : List Token) :
    moreJson layout (t :: ts) =
      ',' :: (layout.lead 1 ++ ((t.json layout 1).toList ++ moreJson layout ts)) := by
  simp [moreJson]

theorem toList_listJson_nil (layout : Layout) : (listJson layout []).toList = ['[', ']'] := by
  cases layout <;> rfl

theorem toList_listJson_cons (layout : Layout) (t : Token) (ts : List Token) :
    (listJson layout (t :: ts)).toList =
      '[' :: (layout.lead 1 ++ ((t.json layout 1).toList ++ moreJson layout ts)) := by
  rw [listJson, Layout.list, List.map_cons, Layout.toList_bracketed, List.flatMap_map]
  rfl

/-- The end of a list does not begin with a comma. -/
theorem moreJson_cons_ne_nil (layout : Layout) (t : Token) (ts : List Token) :
    moreJson layout (t :: ts) ≠ moreJson layout [] := by
  rw [moreJson_cons]
  cases layout <;> simp [moreJson, Layout.lead, Layout.newLine]

theorem forall₂_of_moreJson_eq {layout : Layout} {ts us : List Token}
    (h : moreJson layout ts = moreJson layout us) : List.Forall₂ AgreesInJson ts us := by
  induction ts generalizing us with
  | nil =>
    cases us with
    | nil => exact .nil
    | cons u us => exact absurd h.symm (moreJson_cons_ne_nil layout u us)
  | cons t ts ih =>
    cases us with
    | nil => exact absurd h (moreJson_cons_ne_nil layout t ts)
    | cons u us =>
      rw [moreJson_cons, moreJson_cons, List.cons.injEq] at h
      obtain ⟨hagrees, hrest⟩ := agreesInJson_of_json_append_eq (List.append_cancel_left h.2)
      exact .cons hagrees (ih hrest)

/-- The lists of agreeing tokens have the same text. -/
theorem listJson_eq_of_forall₂ (layout : Layout) {ts us : List Token}
    (h : List.Forall₂ AgreesInJson ts us) : listJson layout ts = listJson layout us := by
  have hmap : ts.map (json layout 1) = us.map (json layout 1) := by
    induction h with
    | nil => rfl
    | cons hagrees _ ih => rw [List.map_cons, List.map_cons, hagrees.json_eq, ih]
  rw [listJson, listJson, hmap]

/-- After the first bracket a list with tokens in it goes on otherwise than the empty one. -/
theorem listJson_cons_ne_nil (layout : Layout) (t : Token) (ts : List Token) :
    listJson layout (t :: ts) ≠ listJson layout [] := by
  rw [Ne, ← String.toList_inj, toList_listJson_nil, toList_listJson_cons, toList_json]
  -- the second character is the closing bracket in one of them only
  cases layout <;> simp [Layout.lead, Layout.newLine]

theorem forall₂_of_listJson_eq {layout : Layout} {ts us : List Token}
    (h : listJson layout ts = listJson layout us) : List.Forall₂ AgreesInJson ts us := by
  cases ts with
  | nil =>
    cases us with
    | nil => exact .nil
    | cons u us => exact absurd h.symm (listJson_cons_ne_nil layout u us)
  | cons t ts =>
    cases us with
    | nil => exact absurd h (listJson_cons_ne_nil layout t ts)
    | cons u us =>
      rw [← String.toList_inj, toList_listJson_cons, toList_listJson_cons, List.cons.injEq] at h
      obtain ⟨hagrees, hrest⟩ := agreesInJson_of_json_append_eq (List.append_cancel_left h.2)
      exact .cons hagrees (forall₂_of_moreJson_eq hrest)

/-- **Tokens as JSON lose nothing but numbers that are not finite.** In either layout two lists have the
same text, and the same listing on the command line, if and only if they have the same number of tokens
and these agree pairwise in kind, lexeme and line, and in their literals as far as JSON tells them: a
string as a string, a finite number by its text, and other numbers like a literal that is not there. -/
theorem listJson_eq_iff (layout : Layout) (ts us : List Token) :
    (listJson layout ts = listJson layout us ↔ List.Forall₂ AgreesInJson ts us) ∧
      (Command.listing .json ts = Command.listing .json us ↔ List.Forall₂ AgreesInJson ts us) := by
  have hiff : ∀ layout : Layout,
      listJson layout ts = listJson layout us ↔ List.Forall₂ AgreesInJson ts us := by
    intro layout
    exact ⟨forall₂_of_listJson_eq, listJson_eq_of_forall₂ layout⟩
  refine ⟨hiff layout, ?_⟩
  -- the listing is the pretty layout with a line feed after it
  rw [← hiff .pretty]
  simp only [Command.listing, ← String.toList_inj, String.toList_append, List.append_cancel_right_eq]

end Token

end LoxLexer
