import LoxLexer.Json.Scalar

/-!
# Passing over JSON values

A member whose name is not known has its value passed over. The value must be well formed, but it
may nest to any depth, and its strings and numbers are not looked into: half a surrogate pair and a
number out of range are let pass.

The brackets that are open are kept in a list, and the recursion is on the length of what is left: a
call either takes a character or goes from the place after a bracket to that of a value.
-/

namespace LoxLexer.Json

/-! ## §1 Scalars -/

/-- Pass over an escape, whose backslash has been read. -/
def skipEscape : List Char → Except Failure (List Char)
  | [] => .error (.here .endOfString [])
  | c :: cs =>
    if (escaped? c).isSome then .ok cs
    else if c = 'u' then (readHex cs).map Prod.snd
    else .error (.next .invalidEscape (c :: cs))

theorem length_of_skipEscape {cs rest : List Char} (h : skipEscape cs = .ok rest) :
    rest.length < cs.length := by
  cases cs with
  | nil => simp [skipEscape] at h
  | cons c cs =>
    rw [skipEscape] at h
    split at h
    · rw [Except.ok.injEq] at h
      rw [← h]
      exact Nat.lt_succ_self _
    · split at h
      · cases hx : readHex cs with
        | error f => simp [hx, Except.map] at h
        | ok p =>
          obtain ⟨n, r⟩ := p
          have l := length_of_readHex hx
          simp only [hx, Except.map, Except.ok.injEq] at h
          rw [← h]
          exact Nat.lt_succ_of_lt l
      · simp at h

/-- Pass over a string, whose opening quote has been read. -/
def skipString : List Char → Except Failure (List Char)
  | [] => .error (.here .endOfString [])
  | c :: cs =>
    if c = '"' then .ok cs
    else if c = '\\' then
      match _h : skipEscape cs with
      | .error f => .error f
      | .ok rest => skipString rest
    else if c.toNat < 32 then .error (.here .controlCharacter (c :: cs))
    else skipString cs
termination_by cs => cs.length
decreasing_by
  · have := length_of_skipEscape _h
    simp only [List.length_cons]
    omega
  · exact Nat.lt_succ_self _

theorem length_of_skipString {cs rest : List Char} (h : skipString cs = .ok rest) :
    rest.length < cs.length := by
  fun_induction skipString cs generalizing rest with
  | case1 => simp at h
  | case2 cs =>
    rw [Except.ok.injEq] at h
    rw [← h]
    exact Nat.lt_succ_self _
  | case3 => simp at h
  | case4 cs r h₁ _ ih =>
    have l₁ := length_of_skipEscape h₁
    have l₂ := ih h
    rw [List.length_cons]
    omega
  | case5 => simp at h
  | case6 c cs _ _ _ ih => exact Nat.lt_succ_of_lt (ih h)

/-- Pass over a number, whose minus sign, if it has one, has been read. -/
def skipNumber (cs : List Char) : Except Failure (List Char) :=
  (readNumeral .invalidNumber cs).map Prod.snd

theorem length_of_skipNumber {cs rest : List Char} (h : skipNumber cs = .ok rest) :
    rest.length < cs.length := by
  unfold skipNumber at h
  cases hx : readNumeral .invalidNumber cs with
  | error f => simp [hx, Except.map] at h
  | ok p =>
    obtain ⟨n, r⟩ := p
    have l := length_of_readNumeral hx
    simp only [hx, Except.map, Except.ok.injEq] at h
    rw [← h]
    exact l

/-- Pass over a scalar that begins with the character `c`. -/
def skipScalar (c : Char) (cs : List Char) : Except Failure (List Char) :=
  if c = 'n' then readLiteral ['u', 'l', 'l'] cs
  else if c = 't' then readLiteral ['r', 'u', 'e'] cs
  else if c = 'f' then readLiteral ['a', 'l', 's', 'e'] cs
  else if c = '"' then skipString cs
  else if c = '-' then skipNumber cs
  else if isDigit c then skipNumber (c :: cs)
  else .error (.next .expectedValue (c :: cs))

theorem length_of_skipScalar {c : Char} {cs rest : List Char} (h : skipScalar c cs = .ok rest) :
    rest.length ≤ cs.length := by
  unfold skipScalar at h
  split at h
  · exact length_le_of_readLiteral h
  · split at h
    · exact length_le_of_readLiteral h
    · split at h
      · exact length_le_of_readLiteral h
      · split at h
        · exact Nat.le_of_lt (length_of_skipString h)
        · split at h
          · exact Nat.le_of_lt (length_of_skipNumber h)
          · split at h
            · exact Nat.le_of_lt_succ (length_of_skipNumber h)
            · simp at h

/-! ## §2 Names of members -/

/-- Read the colon after the name of a member. -/
def readColon (cs : List Char) : Except Failure (List Char) :=
  match skipBlanks cs with
  | [] => .error (.here .endOfRecord [])
  | c :: rest => if c = ':' then .ok rest else .error (.next .expectedColon (c :: rest))

theorem length_of_readColon {cs rest : List Char} (h : readColon cs = .ok rest) :
    rest.length < cs.length := by
  unfold readColon at h
  split at h
  · simp at h
  · next c r hs =>
    have l := length_lt_of_skipBlanks hs
    split at h
    · rw [Except.ok.injEq] at h
      rw [← h]
      omega
    · simp at h

/-- Pass over the name of a member and its colon. -/
def skipName (cs : List Char) : Except Failure (List Char) :=
  match skipBlanks cs with
  | [] => .error (.here .endOfRecord [])
  | c :: rest =>
    if c = '"' then
      match skipString rest with
      | .error f => .error f
      | .ok rest => readColon rest
    else .error (.next .nameNotString (c :: rest))

theorem length_of_skipName {cs rest : List Char} (h : skipName cs = .ok rest) :
    rest.length < cs.length := by
  unfold skipName at h
  split at h
  · simp at h
  · next c r hs =>
    have l := length_lt_of_skipBlanks hs
    split at h
    · split at h
      · simp at h
      · next r₁ h₁ =>
        have l₁ := length_of_skipString h₁
        have l₂ := length_of_readColon h
        omega
    · simp at h

/-! ## §3 Values -/

/-- A bracket that is open. -/
inductive Bracket where
  | list
  | record
deriving DecidableEq

namespace Bracket

/-- The character that closes a bracket. -/
def closing : Bracket → Char
  | list => ']'
  | record => '}'

/-- The cause when the text ends within a bracket. -/
def endOfText : Bracket → Cause
  | list => .endOfList
  | record => .endOfRecord

/-- The cause when neither a comma nor the closing character follows a value. -/
def expectedAfterValue : Bracket → Cause
  | list => .expectedInList
  | record => .expectedInRecord

/-- Pass over what comes before a value within a bracket: in a record, a name and its colon. -/
def skipToValue : Bracket → List Char → Except Failure (List Char)
  | list, cs => .ok cs
  | record, cs => skipName cs

theorem length_of_skipToValue {b : Bracket} {cs rest : List Char}
    (h : b.skipToValue cs = .ok rest) : rest.length ≤ cs.length := by
  cases b with
  | list =>
    rw [skipToValue, Except.ok.injEq] at h
    exact Nat.le_of_eq (congrArg List.length h.symm)
  | record => exact Nat.le_of_lt (length_of_skipName h)

end Bracket

/-- What may come next in a value that is passed over. -/
inductive Awaited where
  /-- A value. -/
  | value
  /-- The first item of the innermost bracket, or its end. -/
  | firstItem
  /-- A comma or the end of the innermost bracket. -/
  | separator
deriving DecidableEq

/-- The order of the awaited things in which no character need be taken between them. -/
def Awaited.rank : Awaited → Nat
  | value => 0
  | firstItem => 1
  | separator => 1

/-- Pass over the rest of a value: `opened` are the brackets that are open, the innermost first. -/
def skipFrom (awaited : Awaited) (opened : List Bracket) (cs : List Char) :
    Except Failure (List Char) :=
  match awaited, opened with
  | .value, _ =>
    match _hs : skipBlanks cs with
    | [] => .error (.here .endOfValue [])
    | c :: rest =>
      if c = '[' then skipFrom .firstItem (.list :: opened) rest
      else if c = '{' then skipFrom .firstItem (.record :: opened) rest
      else
        match _h : skipScalar c rest with
        | .error f => .error f
        | .ok rest => skipFrom .separator opened rest
  | _, [] => .ok cs
  | .firstItem, b :: outer =>
    match _hs : skipBlanks cs with
    | [] => .error (.here b.endOfText [])
    | c :: rest =>
      if c = b.closing then skipFrom .separator outer rest
      else
        match _h : b.skipToValue (c :: rest) with
        | .error f => .error f
        | .ok rest => skipFrom .value opened rest
  | .separator, b :: outer =>
    match _hs : skipBlanks cs with
    | [] => .error (.here b.endOfText [])
    | c :: rest =>
      if c = b.closing then skipFrom .separator outer rest
      else if c = ',' then
        match _h : b.skipToValue rest with
        | .error f => .error f
        | .ok rest => skipFrom .value opened rest
      else .error (.next b.expectedAfterValue (c :: rest))
termination_by (cs.length, awaited.rank)
decreasing_by
  all_goals have l := length_lt_of_skipBlanks _hs
  · exact Prod.Lex.left _ _ l
  · exact Prod.Lex.left _ _ l
  · have l₁ := length_of_skipScalar _h
    exact Prod.Lex.left _ _ (Nat.lt_of_le_of_lt l₁ l)
  · exact Prod.Lex.left _ _ l
  · have l₁ := Bracket.length_of_skipToValue _h
    rw [List.length_cons] at l₁
    rcases Nat.lt_or_eq_of_le (Nat.le_trans l₁ l) with hlt | heq
    · exact Prod.Lex.left _ _ hlt
    · -- no character is taken before the first element of a list
      rw [heq]
      exact Prod.Lex.right _ (by decide)
  · exact Prod.Lex.left _ _ l
  · have l₁ := Bracket.length_of_skipToValue _h
    exact Prod.Lex.left _ _ (Nat.lt_of_le_of_lt l₁ l)

/-- Pass over a value. -/
def skipValue (cs : List Char) : Except Failure (List Char) :=
  skipFrom .value [] cs

theorem length_of_skipFrom {a : Awaited} {opened : List Bracket} {cs rest : List Char}
    (h : skipFrom a opened cs = .ok rest) : rest.length ≤ cs.length := by
  fun_induction skipFrom a opened cs generalizing rest with
  | case1 => simp at h
  | case2 opened cs r hs ih =>
    exact Nat.le_trans (ih h) (Nat.le_of_lt (length_lt_of_skipBlanks hs))
  | case3 opened cs r hs _ ih =>
    exact Nat.le_trans (ih h) (Nat.le_of_lt (length_lt_of_skipBlanks hs))
  | case4 => simp at h
  | case5 opened cs c r hs _ _ r₁ h₁ ih =>
    have l := length_lt_of_skipBlanks hs
    have l₁ := length_of_skipScalar h₁
    exact Nat.le_trans (ih h) (Nat.le_trans l₁ (Nat.le_of_lt l))
  | case6 =>
    rw [Except.ok.injEq] at h
    exact Nat.le_of_eq (congrArg List.length h.symm)
  | case7 => simp at h
  | case8 cs b outer r hs ih =>
    exact Nat.le_trans (ih h) (Nat.le_of_lt (length_lt_of_skipBlanks hs))
  | case9 => simp at h
  | case10 cs b outer c r hs _ r₁ h₁ ih =>
    have l := length_lt_of_skipBlanks hs
    have l₁ := Bracket.length_of_skipToValue h₁
    exact Nat.le_trans (ih h) (Nat.le_trans l₁ l)
  | case11 => simp at h
  | case12 cs b outer r hs ih =>
    exact Nat.le_trans (ih h) (Nat.le_of_lt (length_lt_of_skipBlanks hs))
  | case13 => simp at h
  | case14 cs b outer r r₁ h₁ hs _ ih =>
    have l := length_lt_of_skipBlanks hs
    have l₁ := Bracket.length_of_skipToValue h₁
    exact Nat.le_trans (ih h) (Nat.le_trans l₁ (Nat.le_of_lt l))
  | case15 => simp at h

/-- A value that is passed over takes nothing but characters from the front of the text. -/
theorem length_of_skipValue {cs rest : List Char} (h : skipValue cs = .ok rest) :
    rest.length ≤ cs.length :=
  length_of_skipFrom h

end LoxLexer.Json
