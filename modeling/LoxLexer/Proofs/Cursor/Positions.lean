import Mathlib.Data.String.Basic
import LoxLexer.Cursor

/-!
# Where a cursor stands

The two positions of a cursor cut its source in three: what comes before the current token, what has been
read of it, and the rest. From these parts follows what the cursor sees and reads, and that no slice which
ends at one of them is a slip.

* `Cursor.At`: the three parts.
* `Cursor.At.peek_eq`, `Cursor.At.advance_eq`, `Cursor.At.matchChar_of_eq`, `Cursor.At.matchChar_of_ne`: the
  next character.
* `Cursor.At.lexeme_eq`, `Cursor.At.slice_body`: the slices.
-/

namespace LoxLexer.Cursor

open String.Pos (Raw)

/-- **Where a cursor stands** in its source. -/
structure At (source : String) (before text rest : List Char) (r : Cursor) : Prop where
  source_eq : source.toList = before ++ (text ++ rest)
  start_eq : r.start = ⟨String.utf8Len before⟩
  current_eq : r.current = ⟨String.utf8Len (before ++ text)⟩

variable {source : String} {before text rest u v w : List Char} {r s : Cursor} {c : Char}

theorem ok_bind {α β : Type} (a : α) (f : α → Except Slip β) : (Except.ok a >>= f) = f a := rfl

/-! ## §1 Slices -/

theorem isValid_utf8Len (h : source.toList = u ++ v) : Raw.IsValid source ⟨String.utf8Len u⟩ := by
  rw [String.Pos.Raw.isValid_iff_exists_append]
  refine ⟨String.ofList u, String.ofList v, ?_, (String.rawEndPos_ofList u).symm⟩
  rw [← String.ofList_append, ← h, String.ofList_toList]

/-- A slice between two cuts is what lies between them. -/
theorem slice_eq (h : source.toList = u ++ (v ++ w)) :
    slice source ⟨String.utf8Len u⟩ ⟨String.utf8Len (u ++ v)⟩ = .ok (String.ofList v) := by
  have hcut : source.toList = (u ++ v) ++ w := by rw [h, List.append_assoc]
  have hsource : source = String.ofList ((u ++ v) ++ w) := by rw [← hcut, String.ofList_toList]
  have hle : (⟨String.utf8Len u⟩ : Raw) ≤ ⟨String.utf8Len (u ++ v)⟩ := by
    rw [String.utf8Len_append]
    exact Nat.le_add_right _ _
  rw [slice, if_pos ⟨hle, String.Pos.Raw.isValid_eq_true_iff.mpr (isValid_utf8Len h),
    String.Pos.Raw.isValid_eq_true_iff.mpr (isValid_utf8Len hcut)⟩]
  rw [hsource, String.utf8Len_append, String.extract_of_valid]

theorem rawEndPos_eq (h : source.toList = u) : source.rawEndPos = ⟨String.utf8Len u⟩ := by
  rw [← h, ← String.rawEndPos_ofList, String.ofList_toList]

/-! ## §2 The three parts -/

namespace At

theorem source_eq' (h : At source before text rest r) : source.toList = (before ++ text) ++ rest := by
  rw [h.source_eq, List.append_assoc]

/-- Where a cursor stands is told by its positions. -/
theorem of_eq (h : At source before text rest r) (hstart : s.start = r.start)
    (hcurrent : s.current = r.current) : At source before text rest s :=
  ⟨h.source_eq, hstart.trans h.start_eq, hcurrent.trans h.current_eq⟩

theorem start_le_current (h : At source before text rest r) : r.start ≤ r.current := by
  rw [h.start_eq, h.current_eq, String.utf8Len_append]
  exact Nat.le_add_right _ _

theorem isValid_start (h : At source before text rest r) : Raw.IsValid source r.start := by
  rw [h.start_eq]
  exact isValid_utf8Len h.source_eq

theorem isValid_current (h : At source before text rest r) : Raw.IsValid source r.current := by
  rw [h.current_eq]
  exact isValid_utf8Len h.source_eq'

theorem atEnd_eq (h : At source before text rest r) : r.atEnd source = rest.isEmpty := by
  rw [Bool.eq_iff_iff, atEnd, decide_eq_true_iff, rawEndPos_eq h.source_eq', h.current_eq,
    List.isEmpty_iff, ← String.utf8Len_eq_zero, String.utf8Len_append, String.Pos.Raw.le_iff]
  simp

/-- At the end the current position is that of the end. -/
theorem current_eq_of_atEnd (h : At source before text rest r) (hend : r.atEnd source = true) :
    r.current = source.rawEndPos := by
  rw [h.atEnd_eq, List.isEmpty_iff] at hend
  rw [h.current_eq, rawEndPos_eq h.source_eq', hend, List.append_nil]

/-- The current token begins where the last one ended. -/
theorem restart (h : At source before text rest r) :
    At source (before ++ text) [] rest { r with start := r.current } where
  source_eq := h.source_eq'
  start_eq := h.current_eq
  current_eq := by rw [List.append_nil]; exact h.current_eq

/-! ## §3 The next character -/

theorem peek_eq (h : At source before text rest r) : peek source r = .ok (rest.head?.getD '\x00') := by
  have hsource : source = String.ofList ((before ++ text) ++ rest) := by
    rw [← h.source_eq', String.ofList_toList]
  rw [peek, if_pos (String.Pos.Raw.isValid_eq_true_iff.mpr h.isValid_current), h.current_eq]
  conv => lhs; rw [hsource]
  rw [String.get?_of_valid]

theorem peek_cons (h : At source before text (c :: rest) r) : peek source r = .ok c :=
  h.peek_eq

/-- A character is read, and is then part of the current token. -/
theorem advance_eq (h : At source before text (c :: rest) r) :
    advance source r = .ok (c, { r with current := r.current + c }) ∧
      At source before (text ++ [c]) rest { r with current := r.current + c } := by
  refine ⟨?_, ?_, h.start_eq, ?_⟩
  · have hend : r.atEnd source = false := h.atEnd_eq
    rw [advance, h.peek_eq]
    simp only [hend, Bool.false_eq_true, if_false]
    rfl
  · rw [h.source_eq, List.append_assoc, List.singleton_append]
  · show r.current + c = _
    rw [h.current_eq]
    simp [String.Pos.Raw.ext_iff, Nat.add_assoc]

theorem matchChar_of_eq (h : At source before text (c :: rest) r) :
    matchChar source c r = .ok (true, { r with current := r.current + c }) := by
  have hend : r.atEnd source = false := h.atEnd_eq
  rw [matchChar, h.peek_eq, h.advance_eq.1]
  simp [hend, bind, Except.bind, pure, Except.pure]

theorem matchChar_of_ne (h : At source before text rest r) (hne : rest.head? ≠ some c) :
    matchChar source c r = .ok (false, r) := by
  rw [matchChar, h.peek_eq, h.atEnd_eq]
  cases rest with
  | nil => rfl
  | cons d rest =>
    have hd : d ≠ c := fun hdc => hne (congrArg some hdc)
    simp [hd, bind, Except.bind, pure, Except.pure]

/-! ## §4 The current token -/

theorem lexeme_eq (h : At source before text rest r) : lexeme source r = .ok (String.ofList text) := by
  rw [lexeme, h.start_eq, h.current_eq]
  exact slice_eq h.source_eq

/-- Between the quotes of a string is its value. -/
theorem slice_body {body : List Char} (h : At source before ('"' :: (body ++ ['"'])) rest r) :
    slice source ⟨r.start.byteIdx + 1⟩ ⟨r.current.byteIdx - 1⟩ = .ok (String.ofList body) := by
  have hsource : source.toList = (before ++ ['"']) ++ (body ++ ('"' :: rest)) := by
    simp [h.source_eq]
  have hquote : '"'.utf8Size = 1 := by decide
  have hstart : r.start.byteIdx + 1 = String.utf8Len (before ++ ['"']) := by
    simp [h.start_eq, hquote]
  have hcurrent : r.current.byteIdx - 1 = String.utf8Len ((before ++ ['"']) ++ body) := by
    simp only [h.current_eq, String.utf8Len_append, String.utf8Len_cons, String.utf8Len_nil, hquote]
    omega
  rw [hstart, hcurrent]
  exact slice_eq hsource

theorem addToken_eq (h : At source before text rest r) (kind : Kind) (literal : Option Literal) :
    addToken source kind literal r = .ok { r with
      tokens := r.tokens ++ [⟨kind, String.ofList text, literal, r.line⟩], task := .next } := by
  rw [addToken, h.lexeme_eq]
  rfl

end At

end LoxLexer.Cursor
