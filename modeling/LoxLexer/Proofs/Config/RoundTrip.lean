import LoxLexer.Proofs.Config.Spelling
import LoxLexer.Proofs.Json.Written

/-!
# Options files are read as they were written

What is written for the content of an options file is one of its texts: the record in which every field
is given, in order, and the blanks are left out.

* `Config.spelledBy_write`: the text that is written spells what it was written for.
* `Config.parse_write`: so writing loses nothing, and what is read from a text is read again from what is
  written for it.
-/

namespace LoxLexer

namespace Json

/-! ## §1 What is written is a spelling -/

theorem booleanText_boolean (b : Bool) : BooleanText b (boolean b).toList := by
  have hyes : "true".toList = ['t', 'r', 'u', 'e'] := rfl
  have hno : "false".toList = ['f', 'a', 'l', 's', 'e'] := rfl
  cases b with
  | true =>
    simp only [boolean, if_true, hyes]
    exact .yes
  | false =>
    simp only [boolean, Bool.false_eq_true, if_false, hno]
    exact .no

theorem nullable_orNull {α : Type} {Text : α → List Char → Prop} {write : α → String}
    (h : ∀ a, Text a (write a).toList) (x : Option α) : Nullable Text x (orNull write x).toList := by
  cases x with
  | none =>
    have hnull : "null".toList = ['n', 'u', 'l', 'l'] := rfl
    rw [orNull, hnull]
    exact .null
  | some a => exact .some (h a)

end Json

/-! ## §2 Options -/

theorem formatText_quoted (f : OutputFormat) : FormatText f (Json.quoted f.name).toList := by
  refine .mk ?_ (Json.stringText_quoted f.name)
  cases f <;> decide

theorem Options.spelling_write (o : Options) : o.Spelling o.write.toList := by
  have hformat := Json.nullable_orNull formatText_quoted o.format
  have hpretty := Json.nullable_orNull Json.booleanText_boolean o.pretty
  have hprompt := Json.nullable_orNull Json.stringText_quoted o.prompt
  have hshowEof := Json.nullable_orNull Json.booleanText_boolean o.showEof
  refine .record (Json.Layout.recordOf_record .compact 0 _) ⟨?_, ?_, ?_, ?_, ?_, ?_⟩
  · simp only [List.map_cons, List.map_nil, List.forall_mem_cons]
    exact ⟨.format hformat, .pretty hpretty, .prompt hprompt, .showEof hshowEof, by simp⟩
  · simp
  all_goals simp

namespace Config

/-- **What is written spells what it was written for.** -/
theorem spelledBy_write (c : Config) : c.SpelledBy c.write := by
  have hoptions := Json.nullable_orNull Options.spelling_write c.options
  have hspelling : c.Spelling c.write.toList := by
    refine .record (Json.Layout.recordOf_record .compact 0 _) ⟨?_, ?_, ?_⟩
    · simp only [List.map_cons, List.map_nil, List.forall_mem_cons]
      exact ⟨.options hoptions, by simp⟩
    · simp
    · simp
  have htext : c.write.toList = [] ++ (c.write.toList ++ []) := by
    rw [List.append_nil, List.nil_append]
  exact .mk htext Json.Space.nil Json.Space.nil hspelling

/-- **Writing loses nothing.** What is written for the content of an options file is read as that
content. So what any text is read as, or is refused for, is unchanged if what is read from it is written
and read again. -/
theorem parse_write : (∀ c : Config, parse c.write = .ok c) ∧
    ∀ text : String, ((parse text).bind fun c => parse c.write) = parse text := by
  have hwrite : ∀ c : Config, parse c.write = .ok c := fun c => parse_of_spelledBy c.spelledBy_write
  refine ⟨hwrite, ?_⟩
  intro text
  cases hparse : parse text with
  | error e => rfl
  | ok c => simp only [Except.bind, hwrite]

end Config

end LoxLexer
