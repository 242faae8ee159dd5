import SchemaDiagram.Decimal.Basic

/-!
# Readings

A reading takes a part off the head of a text, or fails and takes nothing.
-/

namespace SchemaDiagram.Toml

abbrev Reading (α : Type) := StateT Text Option α

namespace Reading

variable {α : Type}

def char (test : Char → Bool) : Reading Char := fun t =>
  match t with
  | [] => none
  | c :: rest => if test c then some (c, rest) else none

def exactly (c : Char) : Reading Unit := do
  let _ ← char (· = c)

def literal (part : Text) : Reading Unit := fun t =>
  if part <+: t then some ((), t.drop part.length) else none

def run (test : Char → Bool) : Reading Text := fun t =>
  some (t.takeWhile test, t.dropWhile test)

def run1 (test : Char → Bool) : Reading Text := do
  let taken ← run test
  if taken.isEmpty then failure else return taken

def optional (r : Reading Unit) : Reading Unit := r <|> pure ()

def upTo (r : Reading α) : Nat → Reading (List α)
  | 0 => pure []
  | bound + 1 => (do
    let a ← r
    return a :: (← upTo r bound)) <|> pure []

/-- What `r` takes as often as it succeeds. A reading that takes nothing may end early. -/
def many (r : Reading α) : Reading (List α) := do upTo r (← get).length

def separated (separator : Reading Unit) (item : Reading α) : Reading (List α) := do
  let first ← item
  return first :: (← many (separator *> item))

def atEnd : Reading Unit := fun t => if t.isEmpty then some ((), t) else none

end Reading

end SchemaDiagram.Toml
