import LoxLexer.Json.Skip
import LoxLexer.Json.Number

/-!
# Reading records of a known shape

A shape names the fields of a record and says how each is read. A text can give the record in two
ways: as an object, whose members may come in any order, some of them missing and others unknown; or
as a list of all the fields in their order.

* A member that is not known is passed over; a known one that comes twice is refused.
* Once the bracket is open it is always read to its end. A failure within it that has a place of its
  own goes before what is wrong with the end; one that has none is placed where the end was read to.
-/

namespace LoxLexer.Json

/-! ## §1 Values of a wrong type -/

/-- The failure that a value of another type gives rise to, once it has been read. -/
def mismatch (expected : String) (cs : List Char) : Failure :=
  match cs with
  | [] => .here .endOfValue []
  | c :: rest =>
    let literal (letters : List Char) (found : Found) : Failure :=
      match readLiteral letters rest with
      | .error f => f
      | .ok rest => .here (.wrongType found expected) rest
    let number (negative : Bool) (cs : List Char) : Failure :=
      match readNumber negative cs with
      | .error f => f
      | .ok (n, rest) => .here (.wrongType n.found expected) rest
    if c = 'n' then literal ['u', 'l', 'l'] .null
    else if c = 't' then literal ['r', 'u', 'e'] (.boolean true)
    else if c = 'f' then literal ['a', 'l', 's', 'e'] (.boolean false)
    else if c = '-' then number true rest
    else if isDigit c then number false cs
    else if c = '"' then
      match readString rest with
      | .error f => f
      | .ok (s, rest) => .here (.wrongType (.string (String.ofList s)) expected) rest
    else if c = '[' then .here (.wrongType .list expected) cs
    else if c = '{' then .here (.wrongType .record expected) cs
    else .next .expectedValue cs

/-! ## §2 Values of fields -/

/-- A value that may be `null`. -/
def readOptional {α : Type} (read : List Char → Read α) (cs : List Char) : Read (Option α) :=
  match skipBlanks cs with
  | 'n' :: rest =>
    match readLiteral ['u', 'l', 'l'] rest with
    | .error f => .error f
    | .ok rest => .ok (none, rest)
  | rest =>
    match read rest with
    | .error f => .error f
    | .ok (a, rest) => .ok (some a, rest)

/-- A boolean. -/
def readBoolean (cs : List Char) : Read Bool :=
  match skipBlanks cs with
  | 't' :: rest => (readLiteral ['r', 'u', 'e'] rest).map fun rest => (true, rest)
  | 'f' :: rest => (readLiteral ['a', 'l', 's', 'e'] rest).map fun rest => (false, rest)
  | rest => .error (mismatch "a boolean" rest)

/-- A text. -/
def readText (cs : List Char) : Read String :=
  match skipBlanks cs with
  | '"' :: rest => (readString rest).map fun p => (String.ofList p.1, p.2)
  | rest => .error (mismatch "a string" rest)

/-- A text that stands for one of a set of values; other texts are refused for a reason. -/
def readNamed {α : Type} (find : String → Except String α) (cs : List Char) : Read α :=
  match readText cs with
  | .error f => .error f
  | .ok (s, rest) =>
    match find s with
    | .ok a => .ok (a, rest)
    | .error reason => .error (.unplaced (.refused reason) rest)

/-- Whether a reading function never gives back more than it was given. -/
def Shortens {α : Type} (read : List Char → Read α) : Prop :=
  ∀ {cs a rest}, read cs = .ok (a, rest) → rest.length ≤ cs.length

theorem shortens_readOptional {α : Type} {read : List Char → Read α} (hr : Shortens read) :
    Shortens (readOptional read) := by
  intro cs a rest h
  have l := length_skipBlanks_le cs
  unfold readOptional at h
  split at h
  · next r hs =>
    have l₁ := length_lt_of_skipBlanks hs
    split at h
    · simp at h
    · next r₂ h₂ =>
      have l₂ := length_le_of_readLiteral h₂
      simp only [Except.ok.injEq, Prod.mk.injEq] at h
      rw [← h.2]
      omega
  · split at h
    · simp at h
    · next b r h₁ =>
      have l₁ := hr h₁
      simp only [Except.ok.injEq, Prod.mk.injEq] at h
      rw [← h.2]
      exact Nat.le_trans l₁ l

theorem shortens_readBoolean : Shortens readBoolean := by
  intro cs b rest h
  unfold readBoolean at h
  split at h
  · next r hs =>
    have l := length_lt_of_skipBlanks hs
    cases hl : readLiteral ['r', 'u', 'e'] r with
    | error f => simp [hl, Except.map] at h
    | ok r₁ =>
      have l₁ := length_le_of_readLiteral hl
      simp only [hl, Except.map, Except.ok.injEq, Prod.mk.injEq] at h
      rw [← h.2]
      omega
  · next r hs =>
    have l := length_lt_of_skipBlanks hs
    cases hl : readLiteral ['a', 'l', 's', 'e'] r with
    | error f => simp [hl, Except.map] at h
    | ok r₁ =>
      have l₁ := length_le_of_readLiteral hl
      simp only [hl, Except.map, Except.ok.injEq, Prod.mk.injEq] at h
      rw [← h.2]
      omega
  · simp at h

theorem shortens_readText : Shortens readText := by
  intro cs s rest h
  unfold readText at h
  split at h
  · next r hs =>
    have l := length_lt_of_skipBlanks hs
    cases hl : readString r with
    | error f => simp [hl, Except.map] at h
    | ok p =>
      obtain ⟨t, r₁⟩ := p
      have l₁ := length_of_readString hl
      simp only [hl, Except.map, Except.ok.injEq, Prod.mk.injEq] at h
      rw [← h.2]
      omega
  · simp at h

theorem shortens_readNamed {α : Type} (find : String → Except String α) :
    Shortens (readNamed find) := by
  intro cs a rest h
  unfold readNamed at h
  split at h
  · simp at h
  · next s r h₁ =>
    have l₁ := shortens_readText h₁
    split at h
    · simp only [Except.ok.injEq, Prod.mk.injEq] at h
      rwa [← h.2]
    · simp at h

/-! ## §3 Shapes -/

/-- A field of a record: reading its value gives what is to be done to the record. -/
structure Field (ρ : Type) where
  name : String
  read : List Char → Read (ρ → ρ)
  shortens : Shortens read

/-- A field that holds a value which may be `null`. -/
def Field.optional {ρ α : Type} (name : String) (read : List Char → Read α) (hr : Shortens read)
    (put : Option α → ρ → ρ) : Field ρ where
  name := name
  read cs := (readOptional read cs).map fun p => (put p.1, p.2)
  shortens := by
    intro cs f rest h
    cases ho : readOptional read cs with
    | error e => simp [ho, Except.map] at h
    | ok p =>
      obtain ⟨a, r⟩ := p
      have l := shortens_readOptional hr ho
      simp only [ho, Except.map, Except.ok.injEq, Prod.mk.injEq] at h
      rwa [← h.2]

/-- A record with its fields in order. -/
structure Shape (ρ : Type) where
  /-- What a message calls the record. -/
  name : String
  fields : List (Field ρ)
  /-- The record with no field set. -/
  blank : ρ

namespace Shape

variable {ρ : Type}

/-- The field with a name, if there is one. -/
def field? (shape : Shape ρ) (name : String) : Option (Field ρ) :=
  shape.fields.find? (·.name == name)

/-- What a message calls a list of all the fields. -/
def asList (shape : Shape ρ) : String :=
  shape.name ++ " with " ++ toString shape.fields.length
    ++ (if shape.fields.length = 1 then " element" else " elements")

/-! ## §4 The two ways to give a record -/

/-- The text after the opening quote of the next name, for a text that does not begin with the
closing brace. All names but the first have a comma before them. -/
def readNameStart (first : Bool) (c : Char) (cs : List Char) : Except Failure (List Char) :=
  if first then
    if c = '"' then .ok cs else .error (.next .nameNotString (c :: cs))
  else if c = ',' then
    match skipBlanks cs with
    | [] => .error (.here .endOfValue [])
    | d :: rest =>
      if d = '}' then .error (.next .trailingComma (d :: rest))
      else if d = '"' then .ok rest
      else .error (.next .nameNotString (d :: rest))
  else .error (.next .expectedInRecord (c :: cs))

theorem length_of_readNameStart {first : Bool} {c : Char} {cs rest : List Char}
    (h : readNameStart first c cs = .ok rest) : rest.length ≤ cs.length := by
  unfold readNameStart at h
  split at h
  · split at h
    · rw [Except.ok.injEq] at h
      exact Nat.le_of_eq (congrArg List.length h.symm)
    · simp at h
  · split at h
    · split at h
      · simp at h
      · next d r hs =>
        have l := length_lt_of_skipBlanks hs
        split at h
        · simp at h
        · split at h
          · rw [Except.ok.injEq] at h
            rw [← h]
            exact Nat.le_of_lt l
          · simp at h
    · simp at h

/-- The members of an object up to its closing brace, which is not read. Names in `seen` have been
given before. -/
def readMembers (shape : Shape ρ) (first : Bool) (seen : List String) (acc : ρ) (cs : List Char) :
    Read ρ :=
  match _hs : skipBlanks cs with
  | [] => .error (.here .endOfRecord [])
  | c :: rest =>
    if c = '}' then .ok (acc, c :: rest)
    else
      match _hn : readNameStart first c rest with
      | .error f => .error f
      | .ok rest =>
        match _ht : readString rest with
        | .error f => .error f
        | .ok (name, rest) =>
          match shape.field? (String.ofList name) with
          | some field =>
            if seen.contains field.name then .error (.unplaced (.duplicateMember field.name) rest)
            else
              match _hc : readColon rest with
              | .error f => .error f
              | .ok rest =>
                match _hv : field.read rest with
                | .error f => .error f
                | .ok (put, rest) =>
                  readMembers shape false (field.name :: seen) (put acc) rest
          | none =>
            match _hc : readColon rest with
            | .error f => .error f
            | .ok rest =>
              match _hv : skipValue rest with
              | .error f => .error f
              | .ok rest => readMembers shape false seen acc rest
termination_by cs.length
decreasing_by
  all_goals
    have l₁ := length_lt_of_skipBlanks _hs
    have l₂ := length_of_readNameStart _hn
    have l₃ := length_of_readString _ht
    have l₄ := length_of_readColon _hc
  · have l₅ := field.shortens _hv
    omega
  · have l₅ := length_of_skipValue _hv
    omega

/-- The text of the next element of a list, for a text that does not begin with the closing bracket.
All elements but the first have a comma before them. -/
def readElementStart (first : Bool) (c : Char) (cs : List Char) : Except Failure (List Char) :=
  if first then .ok (c :: cs)
  else if c = ',' then
    match skipBlanks cs with
    | [] => .error (.here .endOfValue [])
    | d :: rest =>
      if d = ']' then .error (.next .trailingComma (d :: rest)) else .ok (d :: rest)
  else .error (.next .expectedInList (c :: cs))

/-- The elements of a list for the remaining fields, of which `count` have been read. -/
def readElements (shape : Shape ρ) (count : Nat) (acc : ρ) : List (Field ρ) → List Char → Read ρ
  | [], cs => .ok (acc, cs)
  | field :: fields, cs =>
    match skipBlanks cs with
    | [] => .error (.here .endOfList [])
    | c :: rest =>
      if c = ']' then .error (.unplaced (.wrongLength count shape.asList) (c :: rest))
      else
        match readElementStart (count = 0) c rest with
        | .error f => .error f
        | .ok rest =>
          match field.read rest with
          | .error f => .error f
          | .ok (put, rest) => readElements shape (count + 1) (put acc) fields rest

/-! ## §5 The end of a record -/

/-- Read the end of an object or a list: how far reading gets, and what is wrong if it is not the
end. -/
def readEnd (b : Bracket) (cs : List Char) : List Char × Option Failure :=
  match skipBlanks cs with
  | [] => ([], some (.here b.endOfText []))
  | c :: rest =>
    if c = b.closing then (rest, none)
    else if c = ',' then
      match b with
      | .record => (c :: rest, some (.next .trailingComma (c :: rest)))
      | .list =>
        let rest := skipBlanks rest
        (rest, some (.next
          (if rest.head? = some ']' then .trailingComma else .trailingCharacters) rest))
    else (c :: rest, some (.next .trailingCharacters (c :: rest)))

/-- Read the end of an object or a list after what is in it. -/
def finish (b : Bracket) (content : Read ρ) : Read ρ :=
  match content with
  | .ok (a, rest) =>
    match readEnd b rest with
    | (rest, none) => .ok (a, rest)
    | (_, some f) => .error f
  | .error (.unplaced cause rest) => .error (.here cause (readEnd b rest).1)
  | .error f => .error f

/-- A record of a shape. -/
def read (shape : Shape ρ) (cs : List Char) : Read ρ :=
  match skipBlanks cs with
  | [] => .error (.here .endOfValue [])
  | c :: rest =>
    if c = '{' then finish .record (shape.readMembers true [] shape.blank rest)
    else if c = '[' then finish .list (shape.readElements 0 shape.blank shape.fields rest)
    else .error (mismatch shape.name (c :: rest))

/-- A text that is one record of a shape, with blanks around it. -/
def readAll (shape : Shape ρ) (cs : List Char) : Except Failure ρ :=
  match shape.read cs with
  | .error f => .error f
  | .ok (a, rest) =>
    match skipBlanks rest with
    | [] => .ok a
    | c :: rest => .error (.next .trailingCharacters (c :: rest))

/-! ## §6 Records are shortened too -/

theorem length_of_readMembers {shape : Shape ρ} {first : Bool} {seen : List String} {acc a : ρ}
    {cs rest : List Char} (h : shape.readMembers first seen acc cs = .ok (a, rest)) :
    rest.length ≤ cs.length := by
  fun_induction readMembers shape first seen acc cs generalizing a rest with
  | case2 first seen acc cs r hs =>
    have l := length_lt_of_skipBlanks hs
    simp only [Except.ok.injEq, Prod.mk.injEq] at h
    rw [← h.2]
    exact l
  | case8 first seen acc cs c r hs _ r₁ hn name r₂ ht field _ _ r₃ hc put r₄ hv ih =>
    have l := length_lt_of_skipBlanks hs
    have l₁ := length_of_readNameStart hn
    have l₂ := length_of_readString ht
    have l₃ := length_of_readColon hc
    have l₄ := field.shortens hv
    have l₅ := ih h
    omega
  | case11 first seen acc cs c r hs _ r₁ hn name r₂ ht _ r₃ hc r₄ hv ih =>
    have l := length_lt_of_skipBlanks hs
    have l₁ := length_of_readNameStart hn
    have l₂ := length_of_readString ht
    have l₃ := length_of_readColon hc
    have l₄ := length_of_skipValue hv
    have l₅ := ih h
    omega
  | _ => simp at h

theorem length_of_readElementStart {first : Bool} {c : Char} {cs rest : List Char}
    (h : readElementStart first c cs = .ok rest) : rest.length ≤ cs.length + 1 := by
  unfold readElementStart at h
  split at h
  · rw [Except.ok.injEq] at h
    exact Nat.le_of_eq (congrArg List.length h.symm)
  · split at h
    · split at h
      · simp at h
      · next d r hs =>
        have l := length_lt_of_skipBlanks hs
        split at h
        · simp at h
        · rw [Except.ok.injEq] at h
          rw [← h, List.length_cons]
          omega
    · simp at h

theorem length_of_readElements {shape : Shape ρ} {count : Nat} {acc a : ρ}
    {fields : List (Field ρ)} {cs rest : List Char}
    (h : shape.readElements count acc fields cs = .ok (a, rest)) : rest.length ≤ cs.length := by
  induction fields generalizing count acc cs with
  | nil =>
    simp only [readElements, Except.ok.injEq, Prod.mk.injEq] at h
    exact Nat.le_of_eq (congrArg List.length h.2.symm)
  | cons field fields ih =>
    rw [readElements] at h
    split at h
    · simp at h
    · next c r hs =>
      have l := length_lt_of_skipBlanks hs
      split at h
      · simp at h
      · split at h
        · simp at h
        · next r₁ h₁ =>
          have l₁ := length_of_readElementStart h₁
          split at h
          · simp at h
          · next put r₂ h₂ =>
            have l₂ := field.shortens h₂
            have l₃ := ih h
            omega

theorem length_of_readEnd {b : Bracket} {cs rest : List Char} (h : readEnd b cs = (rest, none)) :
    rest.length ≤ cs.length := by
  unfold readEnd at h
  split at h
  · simp at h
  · next c r hs =>
    have l := length_lt_of_skipBlanks hs
    split at h
    · rw [Prod.mk.injEq] at h
      rw [← h.1]
      exact Nat.le_of_lt l
    · split at h
      · cases b <;> simp at h
      · simp at h

theorem length_of_finish {b : Bracket} {content : Read ρ} {a : ρ} {rest : List Char} {n : Nat}
    (hc : ∀ {a r}, content = .ok (a, r) → r.length ≤ n) (h : finish b content = .ok (a, rest)) :
    rest.length ≤ n := by
  unfold finish at h
  split at h
  · next v r =>
    split at h
    · next r₁ he =>
      have l := length_of_readEnd he
      simp only [Except.ok.injEq, Prod.mk.injEq] at h
      rw [← h.2]
      exact Nat.le_trans l (hc rfl)
    · simp at h
  · simp at h
  · simp at h

/-- Reading a record takes nothing but characters from the front of the text. -/
theorem shortens_read (shape : Shape ρ) : Shortens shape.read := by
  intro cs a rest h
  unfold read at h
  split at h
  · simp at h
  · next c r hs =>
    have l := length_lt_of_skipBlanks hs
    split at h
    · exact Nat.le_trans (length_of_finish length_of_readMembers h) (Nat.le_of_lt l)
    · split at h
      · exact Nat.le_trans (length_of_finish length_of_readElements h) (Nat.le_of_lt l)
      · simp at h

end Shape

end LoxLexer.Json
