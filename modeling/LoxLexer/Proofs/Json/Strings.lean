import LoxLexer.Json.Layout
import LoxLexer.Json.Skip

/-!
# Spellings of strings

A string can be written in many ways. Between its quotes a character stands for itself, or there is an
escape in its place: a letter after a backslash, the four digits of its code unit, or the two code units
of a surrogate pair. What is passed over may also have half a pair in it, which stands for no character.

* `readString_append`: every spelling of a string is read as the string.
* `skipString_append`: and passed over, as is what spells no string.
* `spells_flatMap_escape`: strings are written in one of their spellings.
* `skipString_of_readString`: what can be read can be passed over, up to the same place.
-/

namespace LoxLexer.Json

/-! ## §1 The rules -/

/-- A hexadecimal digit, in letters of either case, and its value. -/
def IsHexDigit (c : Char) (n : Nat) : Prop :=
  n < 16 ∧ (c = hexDigit n ∨ c = (hexDigit n).toUpper)

/-- Four hexadecimal digits and the code unit that they stand for. -/
inductive CodeUnit : List Char → Nat → Prop where
  | mk {a b c d : Char} {w x y z : Nat} (ha : IsHexDigit a w) (hb : IsHexDigit b x)
      (hc : IsHexDigit c y) (hd : IsHexDigit d z) :
      CodeUnit [a, b, c, d] (4096 * w + 256 * x + 16 * y + z)

/-- The letters after a backslash, each with the character that it stands for. -/
inductive Letter : Char → Char → Prop where
  | quote : Letter '"' '"'
  | backslash : Letter '\\' '\\'
  | slash : Letter '/' '/'
  | backspace : Letter 'b' '\x08'
  | formFeed : Letter 'f' '\x0c'
  | lineFeed : Letter 'n' '\n'
  | carriageReturn : Letter 'r' '\r'
  | tab : Letter 't' '\t'

/-- Characters that may stand for themselves. -/
structure Plain (c : Char) : Prop where
  quote : c ≠ '"'
  backslash : c ≠ '\\'
  control : 32 ≤ c.toNat

instance (c : Char) : Decidable (Plain c) :=
  decidable_of_iff (c ≠ '"' ∧ c ≠ '\\' ∧ 32 ≤ c.toNat)
    ⟨fun h => ⟨h.1, h.2.1, h.2.2⟩, fun h => ⟨h.quote, h.backslash, h.control⟩⟩

/-- **The spellings of a string**, as they stand between two quotes. -/
inductive Spells : List Char → List Char → Prop where
  | nil : Spells [] []
  | plain {c : Char} {t s : List Char} (hc : Plain c) (h : Spells t s) : Spells (c :: t) (c :: s)
  | letter {l c : Char} {t s : List Char} (hl : Letter l c) (h : Spells t s) :
      Spells ('\\' :: l :: t) (c :: s)
  | unit {c : Char} {u t s : List Char} (hu : CodeUnit u c.toNat) (h : Spells t s) :
      Spells ('\\' :: 'u' :: (u ++ t)) (c :: s)
  | pair {c : Char} {n m : Nat} {u v t s : List Char} (hn : n < 1024) (hm : m < 1024)
      (hc : c.toNat = 0x10000 + 1024 * n + m) (hu : CodeUnit u (0xD800 + n))
      (hv : CodeUnit v (0xDC00 + m)) (h : Spells t s) :
      Spells ('\\' :: 'u' :: (u ++ '\\' :: 'u' :: (v ++ t))) (c :: s)

/-- What may stand between two quotes, whether or not it spells a string. -/
inductive Quotable : List Char → Prop where
  | nil : Quotable []
  | plain {c : Char} {t : List Char} (hc : Plain c) (h : Quotable t) : Quotable (c :: t)
  | letter {l c : Char} {t : List Char} (hl : Letter l c) (h : Quotable t) : Quotable ('\\' :: l :: t)
  | unit {n : Nat} {u t : List Char} (hu : CodeUnit u n) (h : Quotable t) :
      Quotable ('\\' :: 'u' :: (u ++ t))

theorem Spells.quotable {t s : List Char} (h : Spells t s) : Quotable t := by
  induction h with
  | nil => exact .nil
  | plain hc _ ih => exact .plain hc ih
  | letter hl _ ih => exact .letter hl ih
  | unit hu _ ih => exact .unit hu ih
  | pair _ _ _ hu hv _ ih => exact .unit hu (.unit hv ih)

/-- A string without quotes, backslashes and control characters is one of its spellings. -/
theorem spells_self {s : List Char} (h : s.all fun c => Plain c) : Spells s s := by
  induction s with
  | nil => exact .nil
  | cons c s ih =>
    rw [List.all_cons, Bool.and_eq_true, decide_eq_true_iff] at h
    exact .plain h.1 (ih h.2)

/-! ## §2 Code units -/

theorem hexValue?_of_isHexDigit {c : Char} {n : Nat} (h : IsHexDigit c n) : hexValue? c = some n := by
  have hdigits : ∀ n < 16,
      hexValue? (hexDigit n) = some n ∧ hexValue? (hexDigit n).toUpper = some n := by decide
  -- in lower case, and in upper case
  obtain ⟨hn, rfl | rfl⟩ := h
  · exact (hdigits n hn).1
  · exact (hdigits n hn).2

theorem readHex_append {u : List Char} {n : Nat} (h : CodeUnit u n) (rest : List Char) :
    readHex (u ++ rest) = .ok (n, rest) := by
  obtain ⟨ha, hb, hc, hd⟩ := h
  rename_i a b c d w x y z
  have hvalue : ((w * 16 + x) * 16 + y) * 16 + z = 4096 * w + 256 * x + 16 * y + z := by omega
  simp only [List.cons_append, List.nil_append, readHex, hexValue?_of_isHexDigit ha,
    hexValue?_of_isHexDigit hb, hexValue?_of_isHexDigit hc, hexValue?_of_isHexDigit hd, hvalue]

/-- The code unit of a character is no half of a surrogate pair. -/
theorem isHalf_toNat (c : Char) :
    isSecondHalf c.toNat = false ∧ isFirstHalf c.toNat = false := by
  have hvalid : c.toNat < 0xD800 ∨ 0xDFFF < c.toNat ∧ c.toNat < 0x110000 := c.valid
  simp only [isSecondHalf, isFirstHalf, Bool.and_eq_false_iff, decide_eq_false_iff_not]
  omega

theorem readUnicode_unit {c : Char} {u : List Char} (hu : CodeUnit u c.toNat) (rest : List Char) :
    readUnicode (u ++ rest) = .ok (c, rest) := by
  obtain ⟨hsecond, hfirst⟩ := isHalf_toNat c
  simp only [readUnicode, readHex_append hu, hsecond, hfirst, Char.ofNat_toNat]
  rfl

theorem readUnicode_pair {c : Char} {n m : Nat} {u v : List Char} (hn : n < 1024) (hm : m < 1024)
    (hc : c.toNat = 0x10000 + 1024 * n + m) (hu : CodeUnit u (0xD800 + n))
    (hv : CodeUnit v (0xDC00 + m)) (rest : List Char) :
    readUnicode (u ++ '\\' :: 'u' :: (v ++ rest)) = .ok (c, rest) := by
  have hsecond : isSecondHalf (0xD800 + n) = false := by
    simp only [isSecondHalf, Bool.and_eq_false_iff, decide_eq_false_iff_not]
    omega
  have hfirst : isFirstHalf (0xD800 + n) = true := by
    simp only [isFirstHalf, Bool.and_eq_true, decide_eq_true_eq]
    omega
  have hsecond' : isSecondHalf (0xDC00 + m) = true := by
    simp only [isSecondHalf, Bool.and_eq_true, decide_eq_true_eq]
    omega
  -- the halves are joined to the character that they were cut from
  have hjoin : joinHalves (0xD800 + n) (0xDC00 + m) = c := by
    have hcode : 0x10000 + (0xD800 + n - 0xD800) * 0x400 + (0xDC00 + m - 0xDC00) = c.toNat := by omega
    rw [joinHalves, hcode, Char.ofNat_toNat]
  simp only [readUnicode, readHex_append hu, hsecond, hfirst, readSecondHalf, readHex_append hv,
    hsecond', hjoin]
  rfl

/-! ## §3 Reading -/

theorem escaped?_of_letter {l c : Char} (h : Letter l c) : escaped? l = some c := by
  cases h <;> rfl

theorem escaped?_u : escaped? 'u' = none := by decide

theorem readEscape_letter {l c : Char} (h : Letter l c) (cs : List Char) :
    readEscape (l :: cs) = .ok (c, cs) := by
  rw [readEscape, escaped?_of_letter h]

theorem readEscape_u (cs : List Char) : readEscape ('u' :: cs) = readUnicode cs := by
  rw [readEscape, escaped?_u]
  rfl

theorem readString_quote (rest : List Char) : readString ('"' :: rest) = .ok ([], rest) := by
  simp [readString]

theorem readString_plain {c : Char} (hc : Plain c) {cs s rest : List Char}
    (h : readString cs = .ok (s, rest)) : readString (c :: cs) = .ok (c :: s, rest) := by
  rw [readString, if_neg hc.quote, if_neg hc.backslash, if_neg (Nat.not_lt.mpr hc.control), h]

theorem readString_escape {c : Char} {cs s rest rest' : List Char}
    (he : readEscape cs = .ok (c, rest')) (h : readString rest' = .ok (s, rest)) :
    readString ('\\' :: cs) = .ok (c :: s, rest) := by
  rw [readString, if_neg (by decide), if_pos rfl]
  split
  · next f hf => simp [he] at hf
  · next d r hd =>
    rw [he, Except.ok.injEq, Prod.mk.injEq] at hd
    rw [← hd.1, ← hd.2, h]

/-- **Every spelling of a string is read as the string**, up to the closing quote. -/
theorem readString_append {t s : List Char} (h : Spells t s) (rest : List Char) :
    readString (t ++ '"' :: rest) = .ok (s, rest) := by
  induction h with
  | nil => exact readString_quote rest
  | plain hc _ ih => exact readString_plain hc ih
  | letter hl _ ih => exact readString_escape (readEscape_letter hl _) ih
  | unit hu _ ih =>
    rw [List.cons_append, List.cons_append, List.append_assoc]
    exact readString_escape ((readEscape_u _).trans (readUnicode_unit hu _)) ih
  | pair hn hm hc hu hv _ ih =>
    simp only [List.cons_append, List.append_assoc]
    exact readString_escape ((readEscape_u _).trans (readUnicode_pair hn hm hc hu hv _)) ih

/-! ## §4 Passing over -/

theorem skipString_quote (rest : List Char) : skipString ('"' :: rest) = .ok rest := by
  simp [skipString]

theorem skipString_plain {c : Char} (hc : Plain c) (cs : List Char) :
    skipString (c :: cs) = skipString cs := by
  rw [skipString, if_neg hc.quote, if_neg hc.backslash, if_neg (Nat.not_lt.mpr hc.control)]

theorem skipString_escape {cs rest : List Char} (he : skipEscape cs = .ok rest) :
    skipString ('\\' :: cs) = skipString rest := by
  rw [skipString, if_neg (by decide), if_pos rfl]
  split
  · next f hf => simp [he] at hf
  · next r hr =>
    rw [he, Except.ok.injEq] at hr
    rw [hr]

theorem skipEscape_letter {l c : Char} (h : Letter l c) (cs : List Char) :
    skipEscape (l :: cs) = .ok cs := by
  rw [skipEscape, escaped?_of_letter h]
  rfl

theorem skipEscape_unit {n : Nat} {u : List Char} (hu : CodeUnit u n) (rest : List Char) :
    skipEscape ('u' :: (u ++ rest)) = .ok rest := by
  rw [skipEscape, escaped?_u, readHex_append hu]
  rfl

/-- **What may stand between quotes is passed over**, up to the closing quote. -/
theorem skipString_append {t : List Char} (h : Quotable t) (rest : List Char) :
    skipString (t ++ '"' :: rest) = .ok rest := by
  induction h with
  | nil => exact skipString_quote rest
  | plain hc _ ih => exact (skipString_plain hc _).trans ih
  | letter hl _ ih => exact (skipString_escape (skipEscape_letter hl _)).trans ih
  | unit hu _ ih =>
    rw [List.cons_append, List.cons_append, List.append_assoc]
    exact (skipString_escape (skipEscape_unit hu _)).trans ih

/-- What can be read as an escape of a character can be passed over, one code unit at a time. -/
theorem skipString_of_readEscape {cs rest : List Char} {c : Char}
    (h : readEscape cs = .ok (c, rest)) : skipString ('\\' :: cs) = skipString rest := by
  cases cs with
  | nil => simp [readEscape] at h
  | cons d cs =>
    rw [readEscape] at h
    split at h
    · next c' hd =>
      simp only [Except.ok.injEq, Prod.mk.injEq] at h
      apply skipString_escape
      rw [skipEscape, hd, h.2]
      rfl
    · next hd =>
      split at h
      · next hu =>
        subst hu
        have hskip : ∀ {n : Nat} {cs r : List Char}, readHex cs = .ok (n, r) →
            skipString ('\\' :: 'u' :: cs) = skipString r := by
          intro n cs r hr
          apply skipString_escape
          rw [skipEscape, escaped?_u, hr]
          rfl
        unfold readUnicode at h
        split at h
        · simp at h
        · next n r₁ h₁ =>
          rw [hskip h₁]
          split at h
          · simp at h
          · split at h
            · -- the second half of the pair is an escape by itself
              split at h
              · simp at h
              · next r₂ h₂ =>
                have hhalf : r₁ = '\\' :: 'u' :: r₂ := by
                  fun_cases readSecondHalf r₁ <;> simp_all [readSecondHalf]
                split at h
                · simp at h
                · next m r₃ h₃ =>
                  split at h
                  · simp only [Except.ok.injEq, Prod.mk.injEq] at h
                    rw [hhalf, hskip h₃, h.2]
                  · simp at h
            · simp only [Except.ok.injEq, Prod.mk.injEq] at h
              rw [h.2]
      · simp at h

/-- **What can be read as a string can be passed over**, and as far. -/
theorem skipString_of_readString {cs s rest : List Char} (h : readString cs = .ok (s, rest)) :
    skipString cs = .ok rest := by
  fun_induction readString cs generalizing s rest with
  | case1 => simp at h
  | case2 cs =>
    simp only [Except.ok.injEq, Prod.mk.injEq] at h
    rw [skipString_quote, h.2]
  | case3 => simp at h
  | case4 => simp at h
  | case5 cs d r h₁ ds r' h₂ _ ih =>
    -- an escape of one character may be two escapes that are passed over
    simp only [Except.ok.injEq, Prod.mk.injEq] at h
    rw [skipString_of_readEscape h₁, ih h₂, h.2]
  | case6 => simp at h
  | case7 => simp at h
  | case8 c cs hquote hbackslash hcontrol ds r h₁ ih =>
    simp only [Except.ok.injEq, Prod.mk.injEq] at h
    rw [skipString_plain ⟨hquote, hbackslash, Nat.not_lt.mp hcontrol⟩, ih h₁, h.2]

/-! ## §5 Writing -/

/-- A character below the space is written with two digits after two zeros. -/
theorem codeUnit_control {n : Nat} (h : n < 32) :
    CodeUnit ['0', '0', hexDigit (n / 16), hexDigit (n % 16)] n := by
  have hzero : IsHexDigit '0' 0 := ⟨by decide, .inl rfl⟩
  have hhigh : IsHexDigit (hexDigit (n / 16)) (n / 16) := ⟨by omega, .inl rfl⟩
  have hlow : IsHexDigit (hexDigit (n % 16)) (n % 16) := ⟨by omega, .inl rfl⟩
  have hunit := CodeUnit.mk hzero hzero hhigh hlow
  have hn : 4096 * 0 + 256 * 0 + 16 * (n / 16) + n % 16 = n := by omega
  rwa [hn] at hunit

theorem spells_escape_append (c : Char) {t s : List Char} (h : Spells t s) :
    Spells (escape c ++ t) (c :: s) := by
  fun_cases escape c with
  | case1 hc =>
    subst hc
    exact .letter .quote h
  | case2 _ hc =>
    subst hc
    exact .letter .backslash h
  | case3 _ _ hc =>
    subst hc
    exact .letter .backspace h
  | case4 _ _ _ hc =>
    subst hc
    exact .letter .formFeed h
  | case5 _ _ _ _ hc =>
    subst hc
    exact .letter .lineFeed h
  | case6 _ _ _ _ _ hc =>
    subst hc
    exact .letter .carriageReturn h
  | case7 _ _ _ _ _ _ hc =>
    subst hc
    exact .letter .tab h
  | case8 _ _ _ _ _ _ _ hcontrol => exact .unit (codeUnit_control hcontrol) h
  | case9 hquote hbackslash _ _ _ _ _ hcontrol =>
    exact .plain ⟨hquote, hbackslash, Nat.not_lt.mp hcontrol⟩ h

/-- **Strings are written in one of their spellings.** -/
theorem spells_flatMap_escape (s : List Char) : Spells (s.flatMap escape) s := by
  induction s with
  | nil => exact .nil
  | cons c s ih =>
    rw [List.flatMap_cons]
    exact spells_escape_append c ih

end LoxLexer.Json
