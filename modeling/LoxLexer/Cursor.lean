import LoxLexer.Scan

/-!
# Reading by position

A cursor reads a source text in place. It keeps two positions, counted in bytes: where the current token
starts, and where the next character is that has not been read. It begins a token by reading one character,
goes on in one of four loops if the token may be longer, and makes the token from a slice of the source
between its two positions.

A position has to be between two characters or at an end of the text for a slice to be taken there, and
nothing can be read at the end of the text. What goes against this is a slip, which ends the reading at once.

* `Cursor.step`: one token begun, one round of a loop, or the end of a loop.
* `Cursor.progress_of_step`: every step comes nearer to the end, from any state and for any source.
* `Cursor.scan`: all steps.
-/

namespace LoxLexer

open String.Pos (Raw)

/-- How a position can be misused. -/
inductive Slip where
  /-- A slice that ends before it begins or after the text, or that cuts a character in two. -/
  | badSlice (first last : Raw)
  /-- Reading a character where there is none. -/
  | readAtEnd (p : Raw)

namespace NumberLexeme

/-- The state of reading a number. -/
inductive State where
  /-- The number may go on. -/
  | reading (p : Phase)
  /-- The number is complete. -/
  | ended
  /-- There is no number. -/
  | failed
deriving DecidableEq

namespace State

/-- Whether no more characters are read. -/
def isTerminal : State → Bool
  | reading _ => false
  | _ => true

/-- The state after a look at the next character, and whether that character is read. After the first
digit something has to follow; later on the number ends where it cannot go on. -/
def step : State → Char → State × Bool
  | reading p, c =>
    match p.next? c with
    | some q => (reading q, true)
    | none => (if p = .start then failed else ended, false)
  | s, _ => (s, false)

end State

end NumberLexeme

/-- What a cursor is in the middle of. -/
inductive Task where
  /-- Between two tokens. -/
  | next
  /-- The loop over a comment. -/
  | comment
  /-- The loop over a string. -/
  | string
  /-- The loop over a number. -/
  | number (s : NumberLexeme.State)
  /-- The loop over a word. -/
  | word
deriving DecidableEq

/-- The state of reading a source text by position. -/
structure Cursor where
  /-- The position of the first character of the current token. -/
  start : Raw
  /-- The position of the next character. -/
  current : Raw
  line : Nat
  tokens : List Token
  diagnostics : List Diagnostic
  task : Task

namespace Cursor

/-- The cursor before anything is read. -/
def initial : Cursor :=
  ⟨⟨0⟩, ⟨0⟩, 1, [], [], .next⟩

/-! ## §1 Positions -/

section
variable (source : String)

/-- Whether all characters are read. -/
def atEnd (r : Cursor) : Bool :=
  source.rawEndPos ≤ r.current

/-- A slice of the source. -/
def slice (first last : Raw) : Except Slip String :=
  if first ≤ last ∧ first.isValid source ∧ last.isValid source then .ok (first.extract source last)
  else .error (.badSlice first last)

/-- The first character of the slice from the current position on, and a NUL if the slice is empty. -/
def peek (r : Cursor) : Except Slip Char :=
  if r.current.isValid source then .ok ((r.current.get? source).getD '\x00')
  else .error (.badSlice r.current source.rawEndPos)

/-- Read the next character. -/
def advance (r : Cursor) : Except Slip (Char × Cursor) := do
  let c ← peek source r
  if r.atEnd source then throw (.readAtEnd r.current)
  else return (c, { r with current := r.current + c })

/-- Read the next character only if it is the expected one. -/
def matchChar (expected : Char) (r : Cursor) : Except Slip (Bool × Cursor) := do
  if r.atEnd source then return (false, r)
  else
    let c ← peek source r
    if c ≠ expected then return (false, r)
    else
      let (_, r) ← advance source r
      return (true, r)

/-- The text of the current token. -/
def lexeme (r : Cursor) : Except Slip String :=
  slice source r.start r.current

/-! ## §2 Tokens and diagnostics -/

/-- Between two tokens. -/
def between (r : Cursor) : Cursor :=
  { r with task := .next }

/-- Make a token of the current lexeme. -/
def addToken (kind : Kind) (literal : Option Literal) (r : Cursor) : Except Slip Cursor := do
  let text ← lexeme source r
  return { r with tokens := r.tokens ++ [⟨kind, text, literal, r.line⟩], task := .next }

/-- Make a diagnostic. -/
def addFault (f : Fault) (r : Cursor) : Cursor :=
  { r with diagnostics := r.diagnostics ++ [Diagnostic.ofFault r.line f], task := .next }

/-! ## §3 Steps -/

/-- After a slash: a comment, if there is another one. -/
def beginSlash (r : Cursor) : Except Slip Cursor := do
  let (second, r) ← matchChar source '/' r
  return if second then { r with task := .comment } else r.between

/-- After the first character of an operator. -/
def beginOperator (o : Operator) (r : Cursor) : Except Slip Cursor := do
  let (withEqual, r) ← matchChar source '=' r
  addToken source (.operator o withEqual) none r

/-- After a character that is in no other class. -/
def beginSymbol (c : Char) (r : Cursor) : Except Slip Cursor :=
  match Mark.ofChar? c, Operator.ofChar? c with
  | some m, _ => addToken source (.mark m) none r
  | none, some o => beginOperator source o r
  | none, none => .ok (addFault (.unexpectedCharacter c) r)

/-- Go on after the first character of a token. -/
def beginWith (c : Char) (r : Cursor) : Except Slip Cursor := do
  if c = '\n' then return { r with line := r.line + 1 }.between
  else if isBlank c then return r.between
  else if c = '/' then beginSlash source r
  else if c = '"' then return { r with task := .string }
  else if isDigit c then return { r with task := .number (.reading .start) }
  else if isWordStart c then return { r with task := .word }
  else beginSymbol source c r

/-- Begin a token. -/
def beginToken (r : Cursor) : Except Slip Cursor := do
  let (c, r) ← advance source { r with start := r.current }
  beginWith source c r

/-- A round of the loop over a comment, or its end. -/
def stepComment (r : Cursor) : Except Slip Cursor := do
  if (← peek source r) ≠ '\n' ∧ r.atEnd source = false then return (← advance source r).2
  else return r.between

/-- The end of a string: its closing quote, unless the text is at its end. -/
def endString (r : Cursor) : Except Slip Cursor := do
  if r.atEnd source then return addFault .unterminatedString r
  else
    let (_, r) ← advance source r
    let value ← slice source ⟨r.start.byteIdx + 1⟩ ⟨r.current.byteIdx - 1⟩
    if value.isEmpty then return addFault .unterminatedString r
    else addToken source .string (some (.text value)) r

/-- A round of the loop over a string, or its end. -/
def stepString (r : Cursor) : Except Slip Cursor := do
  let c ← peek source r
  if c ≠ '"' ∧ r.atEnd source = false then
    return (← advance source { r with line := if c = '\n' then r.line + 1 else r.line }).2
  else endString source r

/-- The end of a number. -/
def endNumber (s : NumberLexeme.State) (r : Cursor) : Except Slip Cursor := do
  if s = .failed then return addFault .invalidNumberFormat r
  else
    let text ← lexeme source r
    addToken source .number (some (.number (NumberLexeme.value text.toList))) r

/-- A round of the loop over a number, or its end. -/
def stepNumber (s : NumberLexeme.State) (r : Cursor) : Except Slip Cursor := do
  if r.atEnd source = false ∧ s.isTerminal = false then
    let (next, consumes) := s.step (← peek source r)
    if consumes then
      let (_, r) ← advance source r
      return { r with task := .number (if r.atEnd source then .ended else next) }
    else return { r with task := .number next }
  else endNumber source s r

/-- A round of the loop over a word, or its end. -/
def stepWord (r : Cursor) : Except Slip Cursor := do
  if isWordPart (← peek source r) then return (← advance source r).2
  else
    let text ← lexeme source r
    addToken source (Kind.ofWord text) none r

/-- One step. -/
def step (r : Cursor) : Except Slip Cursor :=
  match r.task with
  | .next => beginToken source r
  | .comment => stepComment source r
  | .string => stepString source r
  | .number s => stepNumber source s r
  | .word => stepWord source r

/-- Whether there is nothing left to do. -/
def isFinished (r : Cursor) : Bool :=
  decide (r.task = .next) && r.atEnd source

end

/-! ## §4 Progress -/

/-- How a step comes nearer to the end. -/
inductive Progress (source : String) (r s : Cursor) : Prop where
  /-- A token is begun, by its first character at least. -/
  | begun (hnext : r.task = .next) (hend : r.current < source.rawEndPos) (hread : r.current < s.current)
  /-- A loop goes on, one character further. -/
  | round (hloop : r.task ≠ .next) (hend : r.current < source.rawEndPos) (hread : r.current < s.current)
      (hmore : s.task ≠ .next)
  /-- The loop over a number comes to a terminal state, without a character. -/
  | settled {p : NumberLexeme.Phase} {t : NumberLexeme.State} (hreading : r.task = .number (.reading p))
      (hterminal : s.task = .number t ∧ t.isTerminal = true) (hread : r.current = s.current)
  /-- A loop has ended. -/
  | left (hloop : r.task ≠ .next) (hnext : s.task = .next) (hread : r.current ≤ s.current)

/-- How many steps there can still be after those for the unread characters. -/
def Task.weight : Task → Nat
  | .next => 0
  | .number s => if s.isTerminal then 1 else 2
  | _ => 2

/-- A bound for the steps that are left. -/
def bound (source : String) (r : Cursor) : Nat :=
  3 * (source.utf8ByteSize - r.current.byteIdx) + Task.weight r.task

section
variable {source : String} {r s : Cursor}

theorem Task.weight_pos {t : Task} (h : t ≠ .next) : 0 < Task.weight t := by
  cases t with
  | next => exact absurd rfl h
  | number s =>
    rw [weight]
    split <;> decide
  | _ => decide

theorem Task.weight_le (t : Task) : Task.weight t ≤ 2 := by
  cases t with
  | number s =>
    rw [weight]
    split <;> decide
  | _ => decide

theorem Progress.bound_lt (h : Progress source r s) : s.bound source < r.bound source := by
  have hs := Task.weight_le s.task
  have hread : r.current < source.rawEndPos → r.current < s.current →
      source.utf8ByteSize - s.current.byteIdx < source.utf8ByteSize - r.current.byteIdx := by
    intro hend hread
    rw [Raw.lt_iff] at hend hread
    exact Nat.sub_lt_sub_left hend hread
  unfold bound
  cases h with
  | begun _ hend hlt =>
    have := hread hend hlt
    omega
  | round _ hend hlt _ =>
    have := hread hend hlt
    omega
  | settled hreading hterminal heq =>
    have hr : Task.weight r.task = 2 := by rw [hreading]; rfl
    have hs : Task.weight s.task = 1 := by rw [hterminal.1, Task.weight, if_pos hterminal.2]
    rw [heq]
    omega
  | left hloop hnext hle =>
    have hr := Task.weight_pos hloop
    have hs : Task.weight s.task = 0 := by rw [hnext]; rfl
    rw [Raw.le_iff] at hle
    omega

theorem exists_of_bind_eq_ok {α β : Type} {x : Except Slip α} {f : α → Except Slip β} {b : β}
    (h : x >>= f = .ok b) : ∃ a, x = .ok a ∧ f a = .ok b := by
  cases x with
  | error e => cases h
  | ok a => exact ⟨a, rfl, h⟩

/-- A character is read before the end, and the current position is moved behind it. -/
theorem of_advance_eq_ok {c : Char} (h : advance source r = .ok (c, s)) :
    r.current < source.rawEndPos ∧ r.current < s.current ∧ s = { r with current := r.current + c } := by
  obtain ⟨d, -, h⟩ := exists_of_bind_eq_ok h
  cases hend : r.atEnd source with
  | true =>
    rw [hend] at h
    cases h
  | false =>
    rw [hend] at h
    obtain ⟨rfl, rfl⟩ := Prod.mk.inj (Except.ok.inj h)
    refine ⟨?_, ?_, rfl⟩
    · simpa [atEnd, Raw.le_iff, Raw.lt_iff] using hend
    · have := d.utf8Size_pos
      simp [Raw.lt_iff, this]

/-- Looking for a character does not move backwards. -/
theorem of_matchChar_eq_ok {c : Char} {found : Bool} (h : matchChar source c r = .ok (found, s)) :
    r.current ≤ s.current ∧ s.task = r.task := by
  unfold matchChar at h
  split at h
  · obtain ⟨-, rfl⟩ := Prod.mk.inj (Except.ok.inj h)
    exact ⟨Nat.le_refl _, rfl⟩
  · obtain ⟨d, -, h⟩ := exists_of_bind_eq_ok h
    split at h
    · obtain ⟨-, rfl⟩ := Prod.mk.inj (Except.ok.inj h)
      exact ⟨Nat.le_refl _, rfl⟩
    · obtain ⟨⟨e, t⟩, hadvance, h⟩ := exists_of_bind_eq_ok h
      obtain ⟨-, hlt, ht⟩ := of_advance_eq_ok hadvance
      obtain ⟨-, rfl⟩ := Prod.mk.inj (Except.ok.inj h)
      exact ⟨Nat.le_of_lt hlt, by rw [ht]⟩

/-- A token is made where the cursor is. -/
theorem of_addToken_eq_ok {kind : Kind} {literal : Option Literal}
    (h : addToken source kind literal r = .ok s) : s.current = r.current ∧ s.task = .next := by
  obtain ⟨text, -, h⟩ := exists_of_bind_eq_ok h
  obtain rfl := Except.ok.inj h
  exact ⟨rfl, rfl⟩

theorem of_beginSlash_eq_ok (h : beginSlash source r = .ok s) : r.current ≤ s.current := by
  obtain ⟨⟨found, t⟩, hmatch, h⟩ := exists_of_bind_eq_ok h
  have ht := (of_matchChar_eq_ok hmatch).1
  obtain rfl := Except.ok.inj h
  cases found <;> exact ht

theorem of_beginSymbol_eq_ok {c : Char} (h : beginSymbol source c r = .ok s) : r.current ≤ s.current := by
  have hsame : r.current.byteIdx ≤ r.current.byteIdx := Nat.le_refl _
  unfold beginSymbol at h
  split at h
  · rw [(of_addToken_eq_ok h).1]
    exact hsame
  · obtain ⟨⟨found, t⟩, hmatch, h⟩ := exists_of_bind_eq_ok h
    rw [(of_addToken_eq_ok h).1]
    exact (of_matchChar_eq_ok hmatch).1
  · obtain rfl := Except.ok.inj h
    exact hsame

/-- After its first character a token does not move backwards. -/
theorem of_beginWith_eq_ok {c : Char} (h : beginWith source c r = .ok s) : r.current ≤ s.current := by
  have hsame : r.current.byteIdx ≤ r.current.byteIdx := Nat.le_refl _
  -- one class after the other: the position stays, or a second character is looked for
  unfold beginWith at h
  split at h
  · obtain rfl := Except.ok.inj h
    exact hsame
  split at h
  · obtain rfl := Except.ok.inj h
    exact hsame
  split at h
  · exact of_beginSlash_eq_ok h
  split at h
  · obtain rfl := Except.ok.inj h
    exact hsame
  split at h
  · obtain rfl := Except.ok.inj h
    exact hsame
  split at h
  · obtain rfl := Except.ok.inj h
    exact hsame
  · exact of_beginSymbol_eq_ok h

theorem of_beginToken_eq_ok (h : beginToken source r = .ok s) :
    r.current < source.rawEndPos ∧ r.current < s.current := by
  obtain ⟨⟨c, t⟩, hadvance, h⟩ := exists_of_bind_eq_ok h
  obtain ⟨hend, hlt, -⟩ := of_advance_eq_ok hadvance
  exact ⟨hend, Nat.lt_of_lt_of_le hlt (of_beginWith_eq_ok h)⟩

/-- A round of a loop reads a character and stays in the loop. -/
theorem progress_of_advance {c : Char} (hloop : r.task ≠ .next) (h : advance source r = .ok (c, s)) :
    Progress source r s := by
  obtain ⟨hend, hlt, hs⟩ := of_advance_eq_ok h
  exact .round hloop hend hlt (by rw [hs]; exact hloop)

theorem progress_of_stepComment (hloop : r.task = .comment) (h : stepComment source r = .ok s) :
    Progress source r s := by
  have hne : r.task ≠ .next := by simp [hloop]
  obtain ⟨c, -, h⟩ := exists_of_bind_eq_ok h
  split at h
  · obtain ⟨⟨d, t⟩, hadvance, h⟩ := exists_of_bind_eq_ok h
    obtain rfl := Except.ok.inj h
    exact progress_of_advance hne hadvance
  · obtain rfl := Except.ok.inj h
    exact .left hne rfl (Nat.le_refl _)

theorem progress_of_endString (hloop : r.task ≠ .next) (h : endString source r = .ok s) :
    Progress source r s := by
  unfold endString at h
  split at h
  · obtain rfl := Except.ok.inj h
    exact .left hloop rfl (Nat.le_refl _)
  · obtain ⟨⟨c, t⟩, hadvance, h⟩ := exists_of_bind_eq_ok h
    have hle := Nat.le_of_lt (of_advance_eq_ok hadvance).2.1
    obtain ⟨value, -, h⟩ := exists_of_bind_eq_ok h
    split at h
    · obtain rfl := Except.ok.inj h
      exact .left hloop rfl hle
    · obtain ⟨hcurrent, hnext⟩ := of_addToken_eq_ok h
      exact .left hloop hnext (hcurrent ▸ hle)

theorem progress_of_stepString (hloop : r.task = .string) (h : stepString source r = .ok s) :
    Progress source r s := by
  have hne : r.task ≠ .next := by simp [hloop]
  obtain ⟨c, -, h⟩ := exists_of_bind_eq_ok h
  split at h
  · obtain ⟨⟨d, t⟩, hadvance, h⟩ := exists_of_bind_eq_ok h
    obtain rfl := Except.ok.inj h
    obtain ⟨hend, hlt, hs⟩ := of_advance_eq_ok hadvance
    exact .round hne hend hlt (by rw [hs]; exact hne)
  · exact progress_of_endString hne h

theorem progress_of_stepNumber {n : NumberLexeme.State} (hloop : r.task = .number n)
    (h : stepNumber source n r = .ok s) : Progress source r s := by
  have hne : r.task ≠ .next := by simp [hloop]
  unfold stepNumber at h
  split at h
  · next hmore =>
    obtain ⟨c, -, h⟩ := exists_of_bind_eq_ok h
    simp only at h
    split at h
    · obtain ⟨⟨d, t⟩, hadvance, h⟩ := exists_of_bind_eq_ok h
      obtain ⟨hend, hlt, -⟩ := of_advance_eq_ok hadvance
      obtain rfl := Except.ok.inj h
      exact .round hne hend hlt (by simp)
    · next hconsumes =>
      obtain rfl := Except.ok.inj h
      -- a state that may go on reads a character or is terminal
      cases n with
      | reading p =>
        refine .settled hloop ⟨rfl, ?_⟩ rfl
        revert hconsumes
        rw [NumberLexeme.State.step]
        cases p.next? c with
        | some q => simp
        | none =>
          intro _
          dsimp only
          split <;> rfl
      | ended => exact absurd hmore.2 (by decide)
      | failed => exact absurd hmore.2 (by decide)
  · unfold endNumber at h
    split at h
    · obtain rfl := Except.ok.inj h
      exact .left hne rfl (Nat.le_refl _)
    · obtain ⟨text, -, h⟩ := exists_of_bind_eq_ok h
      obtain ⟨hcurrent, hnext⟩ := of_addToken_eq_ok h
      exact .left hne hnext (hcurrent ▸ Nat.le_refl _)

theorem progress_of_stepWord (hloop : r.task = .word) (h : stepWord source r = .ok s) :
    Progress source r s := by
  have hne : r.task ≠ .next := by simp [hloop]
  obtain ⟨c, -, h⟩ := exists_of_bind_eq_ok h
  split at h
  · obtain ⟨⟨d, t⟩, hadvance, h⟩ := exists_of_bind_eq_ok h
    obtain rfl := Except.ok.inj h
    exact progress_of_advance hne hadvance
  · obtain ⟨text, -, h⟩ := exists_of_bind_eq_ok h
    obtain ⟨hcurrent, hnext⟩ := of_addToken_eq_ok h
    exact .left hne hnext (hcurrent ▸ Nat.le_refl _)

/-- **Every step comes nearer to the end**, whatever the state it is taken from. -/
theorem progress_of_step (h : step source r = .ok s) : Progress source r s := by
  unfold step at h
  split at h
  · next hnext =>
    obtain ⟨hend, hlt⟩ := of_beginToken_eq_ok h
    exact .begun hnext hend hlt
  · next hloop => exact progress_of_stepComment hloop h
  · next hloop => exact progress_of_stepString hloop h
  · next hloop => exact progress_of_stepNumber hloop h
  · next hloop => exact progress_of_stepWord hloop h

end

/-! ## §5 All steps -/

/-- All steps from a state on, up to the end or to the first slip. -/
def run (source : String) (r : Cursor) : Except Slip Cursor :=
  if r.isFinished source then .ok r
  else
    match _h : step source r with
    | .error e => .error e
    | .ok s => run source s
termination_by r.bound source
decreasing_by exact (progress_of_step _h).bound_lt

/-- Read a whole source. -/
def scan (source : String) : Except Slip Cursor :=
  run source initial

end Cursor

end LoxLexer
