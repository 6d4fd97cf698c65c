/-!
# What a terminal shows of a text

A terminal shows the characters of a text, but obeys its control characters and its escape
sequences. What it would obey is taken out here; the controls that only move on (the tab, the line
ends and the page end) are kept.

An escape sequence begins with the escape character. The character after that tells its kind, and
the kind tells where it ends. Some kinds show a control that only moves on, and then the text after
it, up to the next control character, where they go on.

* `isShown_of_mem_kept`: only characters that are shown are kept.
* `shown_shown`: what is shown of a text is shown as it is.
-/

namespace LoxLexer.Terminal

/-! ## §1 Characters -/

/-- The control characters up to the space, and the delete character. -/
def isControl (c : Char) : Bool :=
  c < ' ' || c == '\x7f'

/-- The control characters that only move on. -/
def isMove (c : Char) : Bool :=
  c == '\t' || c == '\n' || c == '\x0c' || c == '\r'

/-- The characters that are shown outside escape sequences. -/
def isShown (c : Char) : Bool :=
  !isControl c || isMove c

/-- The characters that break off an escape sequence. -/
def isCancel (c : Char) : Bool :=
  c == '\x18' || c == '\x1a'

/-- The byte that ends a string of any length. -/
def stringEnd : UInt8 := 0x9c

/-! ## §2 Escape sequences -/

/-- How far an escape sequence has come. -/
inductive Sequence where
  /-- The escape character alone. -/
  | opened
  /-- Marks have followed; any other character ends the sequence. -/
  | marked
  /-- A control sequence: parameters and marks, up to the character that says what to do. -/
  | control
  /-- A command to the system, up to the bell. -/
  | command
  /-- The start of a string for a device, whose parameters may follow. -/
  | device
  /-- Parameters of a string for a device. -/
  | deviceParameters
  /-- Marks of a string for a device. -/
  | deviceMarks
  /-- A string of any length, up to the byte that ends it. -/
  | string
deriving DecidableEq

namespace Sequence

/-- Whether controls that only move on are shown in the middle of a sequence. -/
def showsMoves : Sequence → Bool
  | opened | marked | control => true
  | _ => false

/-- How a sequence goes on with a visible character of the ASCII range. Nothing is left of it at its
end. -/
def nextVisible (c : Char) : Sequence → Option Sequence
  | opened =>
    if c < '0' then some marked
    else if c = '[' then some control
    else if c = ']' then some command
    else if c = 'P' then some device
    else if c = 'X' ∨ c = '^' ∨ c = '_' then some string
    else none
  | marked => if c < '0' then some marked else none
  | control => if c < '@' then some control else none
  | device =>
    if c < '0' then some deviceMarks else if c < '@' then some deviceParameters else some string
  | deviceParameters =>
    if c < '0' then some deviceMarks else if c < '<' then some deviceParameters else some string
  | deviceMarks => if c < '0' then some deviceMarks else some string
  | s => some s

/-- How a sequence goes on with a character that neither opens another one nor breaks it off. A
string is read byte by byte, so that any character with the right byte in it ends one. -/
def next (s : Sequence) (c : Char) : Option Sequence :=
  match s with
  | command => if c = '\x07' then none else some command
  | string => if (String.utf8EncodeChar c).contains stringEnd then none else some string
  | s => if isControl c || '\x7f' < c then some s else s.nextVisible c

end Sequence

/-! ## §3 Texts -/

/-- Where the reading of a text stands. -/
inductive Place where
  | outside
  | inside (s : Sequence)
  /-- In text that is shown in the middle of a sequence. -/
  | between (s : Sequence)
deriving DecidableEq

namespace Place

/-- Where a sequence leaves the reading. -/
def after : Option Sequence → Place
  | none => outside
  | some s => inside s

/-- The place after a character, and whether the character is shown. -/
def step (p : Place) (c : Char) : Place × Bool :=
  if c = '\x1b' then (inside .opened, false)
  else if isCancel c then (outside, false)
  else
    match p with
    | outside => (outside, isShown c)
    | inside s => if s.showsMoves && isMove c then (between s, true) else (after (s.next c), false)
    | between s =>
      if '\x7f' < c then (outside, true)
      else if isShown c then (between s, true)
      else (inside s, false)

end Place

/-- The characters that are shown from a place on. -/
def kept : Place → List Char → List Char
  | _, [] => []
  | p, c :: cs =>
    if (p.step c).2 then c :: kept (p.step c).1 cs else kept (p.step c).1 cs

/-- What is shown of a text. -/
def shown (s : String) : String :=
  String.ofList (kept .outside s.toList)

theorem isShown_of_isMove {c : Char} (h : isMove c = true) : isShown c = true := by
  simp [isShown, h]

theorem isShown_of_delete_lt {c : Char} (h : '\x7f' < c) : isShown c = true := by
  have h₁ : ¬ c < ' ' := fun h' => absurd (Char.lt_trans h h') (by decide)
  have h₂ : c ≠ '\x7f' := fun h' => Char.lt_irrefl c (h' ▸ h)
  simp [isShown, isControl, h₁, h₂]

theorem isShown_of_step {p : Place} {c : Char} (h : (p.step c).2 = true) : isShown c = true := by
  unfold Place.step at h
  split at h
  · simp at h
  split at h
  · simp at h
  split at h
  · exact h
  · split at h
    · rename_i hm
      exact isShown_of_isMove (Bool.and_eq_true_iff.1 hm).2
    · simp at h
  · split at h
    · rename_i hd
      exact isShown_of_delete_lt hd
    · split at h
      · assumption
      · simp at h

theorem isShown_of_mem_kept {p : Place} {cs : List Char} {c : Char} (h : c ∈ kept p cs) :
    isShown c = true := by
  induction cs generalizing p with
  | nil => simp [kept] at h
  | cons d ds ih =>
    unfold kept at h
    split at h
    · rcases List.mem_cons.1 h with rfl | h
      · exact isShown_of_step (by assumption)
      · exact ih h
    · exact ih h

theorem step_outside {c : Char} (h : isShown c = true) :
    Place.outside.step c = (.outside, true) := by
  have h₁ : c ≠ '\x1b' := fun h' => absurd (h' ▸ h) (by decide)
  have h₂ : isCancel c = false := by
    cases hc : isCancel c with
    | false => rfl
    | true =>
      rcases Bool.or_eq_true_iff.1 hc with h' | h' <;>
        exact absurd (eq_of_beq h' ▸ h) (by decide)
  simp [Place.step, h₁, h₂, h]

theorem kept_outside {cs : List Char} (h : ∀ c ∈ cs, isShown c = true) : kept .outside cs = cs := by
  induction cs with
  | nil => rfl
  | cons c cs ih =>
    have hc := step_outside (h c List.mem_cons_self)
    have hcs := ih fun d hd => h d (List.mem_cons_of_mem c hd)
    simp [kept, hc, hcs]

theorem shown_shown (s : String) : shown (shown s) = shown s := by
  have h : kept .outside (kept .outside s.toList) = kept .outside s.toList :=
    kept_outside fun _ => isShown_of_mem_kept
  simp [shown, h]

end LoxLexer.Terminal
