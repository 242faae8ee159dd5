import SchemaDiagram.Toml.Quoted

/-!
# TOML documents

A document is a list of lines: entries, headers of tables, and headers of tables in a list. Reading
a document gives the entries of its outermost table, or nothing if a line is malformed or goes
against an earlier one.
-/

namespace SchemaDiagram.Toml

open Reading

def isWordChar (c : Char) : Bool :=
  Text.isAsciiLetter c || Text.isAsciiDigit c || ['+', '-', '_', '.', ':'].contains c

def spacedMoment : Reading Value := do
  let date ← run1 isWordChar
  exactly ' '
  let time ← run1 isWordChar
  if isDate date && isTimeWithOffset time then return .moment (date ++ ' ' :: time) else failure

def word : Reading Value := do
  match readWord? (← run1 isWordChar) with
  | some v => return v
  | none => failure

def array (value : Reading Value) : Reading Value := do
  exactly '['
  let items ← (do
    let items ← separated (exactly ',') (spacing *> value <* spacing)
    optional (exactly ',')
    return items) <|> pure []
  spacing
  exactly ']'
  return .array items

def entry (value : Reading Value) : Reading ((List Text × Text) × Value) := do
  let k ← key
  exactly '='
  blanks
  return (k, ← value)

def inlineTable (value : Reading Value) : Reading Value := do
  exactly '{'
  let pairs ← separated (exactly ',') (entry value <* blanks) <|> pure []
  blanks
  exactly '}'
  let add (entries : Entries) (pair : (List Text × Text) × Value) : Option Entries :=
    entries.addDotted? pair.1.2 pair.2 pair.1.1
  match pairs.foldlM add [] with
  | some entries => return .table .inline entries
  | none => failure

def value : (depth : Nat) → Reading Value
  | 0 => (do return .text (← string)) <|> spacedMoment <|> word
  | depth + 1 =>
    array (value depth) <|> inlineTable (value depth) <|>
      (do return .text (← string)) <|> spacedMoment <|> word

inductive Line where
  | blank
  | entry (path : List Text) (key : Text) (v : Value)
  | table (path : List Text) (key : Text)
  | element (path : List Text) (key : Text)

def lineContent : Reading Line :=
  (do
    literal ['[', '[']
    let (path, k) ← key
    literal [']', ']']
    return .element path k) <|>
  (do
    exactly '['
    let (path, k) ← key
    exactly ']'
    return .table path k) <|>
  (do
    let ((path, k), v) ← entry (value (depthLimit - 1))
    return .entry path k v) <|>
  pure .blank

def line : Reading Line := do
  blanks
  let content ← lineContent
  blanks
  optional comment
  return content

def byteOrderMark : Char := '\uFEFF'

def lines : Reading (List Line) := do
  optional (exactly byteOrderMark)
  let all ← separated lineBreak line
  atEnd
  return all

structure State where
  current : List Text := []
  root : Entries := []

def State.apply? (s : State) : Line → Option State
  | .blank => some s
  | .entry path key v => do
    return { s with root := ← s.root.within? (·.addDotted? key v path) s.current }
  | .table path key => do
    return ⟨path ++ [key], ← s.root.within? (·.openTable? key) path⟩
  | .element path key => do
    return ⟨path ++ [key], ← s.root.within? (·.openElement? key) path⟩

def read? (t : Text) : Option Entries := do
  let (all, _) ← lines t
  let s ← all.foldlM State.apply? {}
  return s.root

end SchemaDiagram.Toml
