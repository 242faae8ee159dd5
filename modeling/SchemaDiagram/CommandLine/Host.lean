import SchemaDiagram.Text.Basic

/-!
# Files

What the command needs of the system that it runs on. Files hold bytes, and texts are UTF-8.
-/

namespace SchemaDiagram

inductive FileError where
  | notFound
  | permissionDenied
  | notDirectory
  | isDirectory
  | nameTooLong
  | notText
  /-- What the system says. -/
  | other (message : Text)
  deriving DecidableEq, Repr

def FileError.message : FileError → Text
  | notFound => Text.ofString "No such file or directory (os error 2)"
  | permissionDenied => Text.ofString "Permission denied (os error 13)"
  | notDirectory => Text.ofString "Not a directory (os error 20)"
  | isDirectory => Text.ofString "Is a directory (os error 21)"
  | nameTooLong => Text.ofString "File name too long (os error 36)"
  | notText => Text.ofString "stream did not contain valid UTF-8"
  | other message => message

structure Host (m : Type → Type) where
  contents : Text → m (Except FileError ByteArray)
  input : m (Except FileError ByteArray)
  store : Text → Text → m (Except FileError Unit)

def decodeText (bytes : ByteArray) : Except FileError Text :=
  match String.fromUTF8? bytes with
  | some s => .ok (Text.ofString s)
  | none => .error .notText

namespace Host

variable {m : Type → Type} [Monad m] (h : Host m)

def readTextFile (path : Text) : ExceptT FileError m Text := do
  decodeText (← h.contents path)

def readText (path : Text) : ExceptT FileError m Text := do
  if path = ['-'] then decodeText (← h.input) else h.readTextFile path

end Host

end SchemaDiagram
