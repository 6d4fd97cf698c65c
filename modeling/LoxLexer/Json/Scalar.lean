import LoxLexer.Json.Failure
import LoxLexer.Number.Numeral

/-!
# Reading JSON scalars

Literals, strings and numbers, read from the front of a text. What a reading function gives back as
the rest is always a part of what it was given, and a proper part where it takes a character for
certain; the lemmas on lengths say so, and the recursion over members and elements rests on them.
-/

namespace LoxLexer.Json

/-! ## §1 Blanks and literals -/

/-- The text after the blanks at its front. -/
def skipBlanks (cs : List Char) : List Char :=
  cs.dropWhile isBlank

/-- The rest of a literal, whose first letter has been read. -/
def readLiteral : (letters : List Char) → List Char → Except Failure (List Char)
  | [], cs => .ok cs
  | _ :: _, [] => .error (.here .endOfValue [])
  | l :: ls, c :: cs =>
    if c = l then readLiteral ls cs else .error (.next .expectedLiteral (c :: cs))

theorem length_skipBlanks_le (cs : List Char) : (skipBlanks cs).length ≤ cs.length :=
  (List.dropWhile_suffix _).length_le

theorem length_lt_of_skipBlanks {cs rest : List Char} {c : Char}
    (h : skipBlanks cs = c :: rest) : rest.length < cs.length := by
  have l := length_skipBlanks_le cs
  rwa [h, List.length_cons] at l

theorem length_le_of_readLiteral {ls cs rest : List Char} (h : readLiteral ls cs = .ok rest) :
    rest.length ≤ cs.length := by
  induction ls generalizing cs with
  | nil =>
    rw [readLiteral, Except.ok.injEq] at h
    exact Nat.le_of_eq (congrArg List.length h.symm)
  | cons l ls ih =>
    cases cs with
    | nil => simp [readLiteral] at h
    | cons c cs =>
      rw [readLiteral] at h
      split at h
      · exact Nat.le_succ_of_le (ih h)
      · simp at h

/-! ## §2 Strings -/

/-- The value of a hexadecimal digit. -/
def hexValue? (c : Char) : Option Nat :=
  if isDigit c then some (digitValue c)
  else if 'a' ≤ c && c ≤ 'f' then some (c.toNat - 'a'.toNat + 10)
  else if 'A' ≤ c && c ≤ 'F' then some (c.toNat - 'A'.toNat + 10)
  else none

/-- Four hexadecimal digits. Four bytes are taken even if they are no digits. -/
def readHex (cs : List Char) : Read Nat :=
  match cs with
  | a :: b :: c :: d :: rest =>
    match hexValue? a, hexValue? b, hexValue? c, hexValue? d with
    | some w, some x, some y, some z => .ok (((w * 16 + x) * 16 + y) * 16 + z, rest)
    | _, _, _, _ => .error (.placed .invalidEscape (byteSize cs - 4))
  | _ =>
    if byteSize cs < 4 then .error (.placed .endOfString 0)
    else .error (.placed .invalidEscape (byteSize cs - 4))

/-- The backslash and letter that begin the second half of a surrogate pair. -/
def readSecondHalf : List Char → Except Failure (List Char)
  | [] => .error (.here .endOfString [])
  | ['\\'] => .error (.here .endOfString [])
  | '\\' :: 'u' :: rest => .ok rest
  | '\\' :: c :: cs => .error (.next .cutSurrogate (c :: cs))
  | c :: cs => .error (.next .cutSurrogate (c :: cs))

/-- Whether a code unit is the first half of a surrogate pair. -/
def isFirstHalf (n : Nat) : Bool :=
  0xD800 ≤ n && n ≤ 0xDBFF

/-- Whether a code unit is the second half of a surrogate pair. -/
def isSecondHalf (n : Nat) : Bool :=
  0xDC00 ≤ n && n ≤ 0xDFFF

/-- The character of a surrogate pair. -/
def joinHalves (n m : Nat) : Char :=
  Char.ofNat (0x10000 + (n - 0xD800) * 0x400 + (m - 0xDC00))

/-- The character of an escape by code units, whose letter has been read. -/
def readUnicode (cs : List Char) : Read Char :=
  match readHex cs with
  | .error f => .error f
  | .ok (n, rest) =>
    if isSecondHalf n then .error (.here .loneSurrogate rest)
    else if isFirstHalf n then
      match readSecondHalf rest with
      | .error f => .error f
      | .ok rest =>
        match readHex rest with
        | .error f => .error f
        | .ok (m, rest) =>
          if isSecondHalf m then .ok (joinHalves n m, rest)
          else .error (.here .loneSurrogate rest)
    else .ok (Char.ofNat n, rest)

/-- The character that a letter after a backslash stands for. -/
def escaped? (c : Char) : Option Char :=
  if c = '"' || c = '\\' || c = '/' then some c
  else if c = 'b' then some '\x08'
  else if c = 'f' then some '\x0c'
  else if c = 'n' then some '\n'
  else if c = 'r' then some '\r'
  else if c = 't' then some '\t'
  else none

/-- The character of an escape, whose backslash has been read. -/
def readEscape : List Char → Read Char
  | [] => .error (.here .endOfString [])
  | c :: cs =>
    match escaped? c with
    | some d => .ok (d, cs)
    | none => if c = 'u' then readUnicode cs else .error (.next .invalidEscape (c :: cs))

theorem length_of_readHex {cs rest : List Char} {n : Nat} (h : readHex cs = .ok (n, rest)) :
    rest.length < cs.length := by
  unfold readHex at h
  split at h
  · split at h
    · simp only [Except.ok.injEq, Prod.mk.injEq] at h
      rw [← h.2]
      simp only [List.length_cons]
      omega
    · simp at h
  · split at h <;> simp at h

theorem length_of_readSecondHalf {cs rest : List Char} (h : readSecondHalf cs = .ok rest) :
    rest.length ≤ cs.length := by
  fun_cases readSecondHalf cs <;> simp [readSecondHalf] at h
  rw [← h]
  simp only [List.length_cons]
  omega

theorem length_of_readUnicode {cs rest : List Char} {c : Char}
    (h : readUnicode cs = .ok (c, rest)) : rest.length < cs.length := by
  unfold readUnicode at h
  split at h
  · simp at h
  · next n r₁ h₁ =>
    have l₁ := length_of_readHex h₁
    split at h
    · simp at h
    · split at h
      · split at h
        · simp at h
        · next r₂ h₂ =>
          have l₂ := length_of_readSecondHalf h₂
          split at h
          · simp at h
          · next m r₃ h₃ =>
            have l₃ := length_of_readHex h₃
            split at h
            · simp only [Except.ok.injEq, Prod.mk.injEq] at h
              rw [← h.2]
              omega
            · simp at h
      · simp only [Except.ok.injEq, Prod.mk.injEq] at h
        rw [← h.2]
        exact l₁

theorem length_of_readEscape {cs rest : List Char} {c : Char}
    (h : readEscape cs = .ok (c, rest)) : rest.length < cs.length := by
  cases cs with
  | nil => simp [readEscape] at h
  | cons d cs =>
    rw [readEscape] at h
    split at h
    · simp only [Except.ok.injEq, Prod.mk.injEq] at h
      rw [← h.2]
      exact Nat.lt_succ_self _
    · split at h
      · exact Nat.lt_succ_of_lt (length_of_readUnicode h)
      · simp at h

/-- The characters of a string up to its closing quote; the opening one has been read. -/
def readString : List Char → Read (List Char)
  | [] => .error (.here .endOfString [])
  | c :: cs =>
    if c = '"' then .ok ([], cs)
    else if c = '\\' then
      match _h : readEscape cs with
      | .error f => .error f
      | .ok (d, rest) =>
        match readString rest with
        | .error f => .error f
        | .ok (ds, rest) => .ok (d :: ds, rest)
    else if c.toNat < 32 then .error (.next .controlCharacter (c :: cs))
    else
      match readString cs with
      | .error f => .error f
      | .ok (ds, rest) => .ok (c :: ds, rest)
termination_by cs => cs.length
decreasing_by
  · have := length_of_readEscape _h
    simp only [List.length_cons]
    omega
  · exact Nat.lt_succ_self _

theorem length_of_readString {cs rest s : List Char} (h : readString cs = .ok (s, rest)) :
    rest.length < cs.length := by
  fun_induction readString cs generalizing s rest with
  | case1 => simp at h
  | case2 cs =>
    simp only [Except.ok.injEq, Prod.mk.injEq] at h
    rw [← h.2]
    exact Nat.lt_succ_self _
  | case3 => simp at h
  | case4 => simp at h
  | case5 cs d r h₁ ds r' h₂ _ ih =>
    simp only [Except.ok.injEq, Prod.mk.injEq] at h
    have l₁ := length_of_readEscape h₁
    have l₂ := ih h₂
    rw [← h.2, List.length_cons]
    omega
  | case6 => simp at h
  | case7 => simp at h
  | case8 c cs _ _ _ ds r h₁ ih =>
    simp only [Except.ok.injEq, Prod.mk.injEq] at h
    rw [← h.2]
    exact Nat.lt_succ_of_lt (ih h₁)

/-! ## §3 Numbers -/

/-- The digits of a number before its point: a lone zero, or digits that begin with no zero. The
cause is that of a text which ends too early. -/
def readWhole (atEnd : Cause) : List Char → Read (List Char)
  | [] => .error (.here atEnd [])
  | c :: cs =>
    if c = '0' then
      if cs.head?.any isDigit then .error (.next .invalidNumber cs) else .ok (['0'], cs)
    else if isDigit c then .ok (c :: cs.takeWhile isDigit, cs.dropWhile isDigit)
    else .error (.next .invalidNumber (c :: cs))

/-- The digits after a point, at least one, where there is a point. -/
def readFraction (atEnd : Cause) : List Char → Read (Option (List Char))
  | '.' :: cs =>
    if cs.isEmpty then .error (.here atEnd [])
    else if cs.head?.any isDigit then .ok (some (cs.takeWhile isDigit), cs.dropWhile isDigit)
    else .error (.next .invalidNumber cs)
  | cs => .ok (none, cs)

/-- The digits of an exponent, at least one. -/
def readExponentDigits (atEnd : Cause) : List Char → Read (List Char)
  | [] => .error (.here atEnd [])
  | c :: cs =>
    if isDigit c then .ok (c :: cs.takeWhile isDigit, cs.dropWhile isDigit)
    else .error (.next .invalidNumber (c :: cs))

/-- An exponent, where there is the letter of one. -/
def readExponent (atEnd : Cause) : List Char → Read (Option Exponent)
  | [] => .ok (none, [])
  | c :: cs =>
    if c = 'e' || c = 'E' then
      match readExponentDigits atEnd (Exponent.readSign cs).2 with
      | .error f => .error f
      | .ok (ds, rest) => .ok (some ⟨c, (Exponent.readSign cs).1, ds⟩, rest)
    else .ok (none, c :: cs)

/-- A number without its minus sign. -/
def readNumeral (atEnd : Cause) (cs : List Char) : Read Numeral :=
  match readWhole atEnd cs with
  | .error f => .error f
  | .ok (whole, rest) =>
    match readFraction atEnd rest with
    | .error f => .error f
    | .ok (fraction, rest) =>
      match readExponent atEnd rest with
      | .error f => .error f
      | .ok (exponent, rest) => .ok (⟨whole, fraction, exponent⟩, rest)

theorem length_dropWhile_le (p : Char → Bool) (cs : List Char) :
    (cs.dropWhile p).length ≤ cs.length :=
  (List.dropWhile_suffix _).length_le

theorem length_of_readWhole {e : Cause} {cs rest ds : List Char}
    (h : readWhole e cs = .ok (ds, rest)) : rest.length < cs.length := by
  cases cs with
  | nil => simp [readWhole] at h
  | cons c cs =>
    have l := length_dropWhile_le isDigit cs
    rw [readWhole] at h
    split at h
    · split at h
      · simp at h
      · simp only [Except.ok.injEq, Prod.mk.injEq] at h
        rw [← h.2]
        exact Nat.lt_succ_self _
    · split at h
      · simp only [Except.ok.injEq, Prod.mk.injEq] at h
        rw [← h.2]
        exact Nat.lt_succ_of_le l
      · simp at h

theorem length_of_readFraction {e : Cause} {cs rest : List Char} {f : Option (List Char)}
    (h : readFraction e cs = .ok (f, rest)) : rest.length ≤ cs.length := by
  unfold readFraction at h
  split at h
  · next cs =>
    have l := length_dropWhile_le isDigit cs
    split at h
    · simp at h
    · split at h
      · simp only [Except.ok.injEq, Prod.mk.injEq] at h
        rw [← h.2]
        exact Nat.le_succ_of_le l
      · simp at h
  · simp only [Except.ok.injEq, Prod.mk.injEq] at h
    exact Nat.le_of_eq (congrArg List.length h.2.symm)

theorem length_of_readExponentDigits {e : Cause} {cs rest ds : List Char}
    (h : readExponentDigits e cs = .ok (ds, rest)) : rest.length ≤ cs.length := by
  cases cs with
  | nil => simp [readExponentDigits] at h
  | cons c cs =>
    have l := length_dropWhile_le isDigit cs
    rw [readExponentDigits] at h
    split at h
    · simp only [Except.ok.injEq, Prod.mk.injEq] at h
      rw [← h.2]
      exact Nat.le_succ_of_le l
    · simp at h

theorem length_readSign_le (cs : List Char) : (Exponent.readSign cs).2.length ≤ cs.length := by
  have h := congrArg List.length (Exponent.readSign_append cs)
  rw [List.length_append] at h
  omega

theorem length_of_readExponent {e : Cause} {cs rest : List Char} {x : Option Exponent}
    (h : readExponent e cs = .ok (x, rest)) : rest.length ≤ cs.length := by
  cases cs with
  | nil =>
    simp only [readExponent, Except.ok.injEq, Prod.mk.injEq] at h
    exact Nat.le_of_eq (congrArg List.length h.2.symm)
  | cons c cs =>
    rw [readExponent] at h
    split at h
    · split at h
      · simp at h
      · next ds r h₁ =>
        have l₁ := length_of_readExponentDigits h₁
        have l₂ := length_readSign_le cs
        simp only [Except.ok.injEq, Prod.mk.injEq] at h
        rw [← h.2, List.length_cons]
        omega
    · simp only [Except.ok.injEq, Prod.mk.injEq] at h
      exact Nat.le_of_eq (congrArg List.length h.2.symm)

theorem length_of_readNumeral {e : Cause} {cs rest : List Char} {n : Numeral}
    (h : readNumeral e cs = .ok (n, rest)) : rest.length < cs.length := by
  unfold readNumeral at h
  split at h
  · simp at h
  · next w r₁ h₁ =>
    have l₁ := length_of_readWhole h₁
    split at h
    · simp at h
    · next f r₂ h₂ =>
      have l₂ := length_of_readFraction h₂
      split at h
      · simp at h
      · next x r₃ h₃ =>
        have l₃ := length_of_readExponent h₃
        simp only [Except.ok.injEq, Prod.mk.injEq] at h
        rw [← h.2]
        omega

end LoxLexer.Json
