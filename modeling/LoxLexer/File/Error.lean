/-!
# Reading files

Why a file cannot be read, and what a reader of text makes of the bytes of a file. A text must be
UTF-8 throughout.
-/

namespace LoxLexer

/-- Why a file cannot be read as text. -/
inductive ReadError where
  | notFound
  | isDirectory
  /-- A part of the path before the last is a file. -/
  | notDirectory
  | nameTooLong
  /-- The path has a NUL character in it. -/
  | nulInName
  /-- The bytes are no UTF-8. -/
  | notText
  /-- Any other reason, in the words of the system. -/
  | other (reason : String)
deriving DecidableEq

/-- The wording of a read error. -/
def ReadError.text : ReadError → String
  | notFound => "No such file or directory (os error 2)"
  | isDirectory => "Is a directory (os error 21)"
  | notDirectory => "Not a directory (os error 20)"
  | nameTooLong => "File name too long (os error 36)"
  | nulInName => "file name contained an unexpected NUL byte"
  | notText => "stream did not contain valid UTF-8"
  | other reason => reason

/-- The text that bytes spell in UTF-8, if they do. -/
def decode (bytes : List UInt8) : Option String :=
  String.fromUTF8? ⟨bytes.toArray⟩

/-- The bytes that spell a text in UTF-8. -/
def encode (s : String) : List UInt8 :=
  s.toUTF8.data.toList

/-- A text is what its own bytes spell. -/
theorem decode_encode (s : String) : decode (encode s) = some s := by
  unfold decode encode
  rw [Array.toArray_toList]
  exact dif_pos s.isValidUTF8

/-- A way to get at the bytes of files. -/
abbrev Files := String → Except ReadError (List UInt8)

/-- The text of a file. -/
def Files.readText (files : Files) (path : String) : Except ReadError String :=
  match files path with
  | .error e => .error e
  | .ok bytes =>
    match decode bytes with
    | none => .error .notText
    | some s => .ok s

/-- Whether there is something at a path, be it a file or a directory. -/
def Files.has (files : Files) (path : String) : Bool :=
  match files path with
  | .error .notFound | .error .notDirectory | .error .nameTooLong | .error .nulInName => false
  | _ => true

end LoxLexer
