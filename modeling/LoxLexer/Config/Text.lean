import LoxLexer.Config.Options
import LoxLexer.Json.Record
import LoxLexer.Json.Layout

/-!
# The text of an options file

An options file is a JSON record with one member, `options`, which is a record of the four options
or `null`. `Config.write` gives its compact text, in which every field is present; `Config.read`
accepts much more, and says what is wrong with anything else.
-/

namespace LoxLexer

open Json (Layout quoted)

/-! ## §1 Writing -/

/-- A value that may be left open, as JSON. -/
def Json.orNull {α : Type} (write : α → String) : Option α → String
  | none => "null"
  | some a => write a

/-- A boolean as JSON. -/
def Json.boolean (b : Bool) : String :=
  if b then "true" else "false"

/-- Options as JSON. -/
def Options.write (o : Options) : String :=
  Layout.compact.record 0
    [("format", Json.orNull (fun f => quoted f.name) o.format),
     ("pretty", Json.orNull Json.boolean o.pretty),
     ("prompt", Json.orNull quoted o.prompt),
     ("showEof", Json.orNull Json.boolean o.showEof)]

/-- The content of an options file as JSON. -/
def Config.write (c : Config) : String :=
  Layout.compact.record 0 [("options", Json.orNull Options.write c.options)]

/-! ## §2 Reading -/

/-- The format with a name, or why the name is refused. -/
def OutputFormat.find (s : String) : Except String OutputFormat :=
  match ofName? s with
  | some f => .ok f
  | none => .error (unknownName (lower s))

/-- Options as a record. -/
def Options.shape : Json.Shape Options where
  name := "struct DriverOptions"
  fields :=
    [.optional "format" (Json.readNamed OutputFormat.find) (Json.shortens_readNamed _)
        fun v o => { o with format := v },
     .optional "pretty" Json.readBoolean Json.shortens_readBoolean
        fun v o => { o with pretty := v },
     .optional "prompt" Json.readText Json.shortens_readText
        fun v o => { o with prompt := v },
     .optional "showEof" Json.readBoolean Json.shortens_readBoolean
        fun v o => { o with showEof := v }]
  blank := .unset

/-- The content of an options file as a record. -/
def Config.shape : Json.Shape Config where
  name := "struct LoxConfig"
  fields :=
    [.optional "options" Options.shape.read Options.shape.shortens_read
        fun v c => { c with options := v }]
  blank := ⟨none⟩

/-- Read the content of an options file. -/
def Config.read (text : String) : Except Json.Failure Config :=
  Config.shape.readAll text.toList

end LoxLexer
