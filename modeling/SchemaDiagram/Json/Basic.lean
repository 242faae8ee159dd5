import SchemaDiagram.Decimal.Notation

/-!
# JSON

JSON values, whose objects keep the order of their fields, and their text: all on one line, or with
a line for each item, indented by two blanks a level. A float that is not finite is written as null.
-/

namespace SchemaDiagram

inductive Json where
  | null
  | bool (b : Bool)
  | text (t : Text)
  | whole (n : Nat)
  | float (x : Float)
  | list (items : List Json)
  | object (fields : List (Text × Json))

namespace Json

inductive Style where
  | compact
  | indented
  deriving DecidableEq, Repr

def hexDigit (n : Nat) : Char := Nat.digitChar n

/-- A character inside quotes. -/
def escape (c : Char) : Text :=
  match c with
  | '"' => ['\\', '"']
  | '\\' => ['\\', '\\']
  | '\x08' => ['\\', 'b']
  | '\x0C' => ['\\', 'f']
  | '\n' => ['\\', 'n']
  | '\r' => ['\\', 'r']
  | '\t' => ['\\', 't']
  | c =>
    if c.toNat < 0x20 then
      ['\\', 'u', '0', '0', hexDigit (c.toNat / 16), hexDigit (c.toNat % 16)]
    else [c]

def quote (t : Text) : Text := '"' :: t.flatMap escape ++ ['"']

def lineBreak (style : Style) (depth : Nat) : Text :=
  match style with
  | .compact => []
  | .indented => '\n' :: List.replicate (2 * depth) ' '

def colon (style : Style) : Text :=
  match style with
  | .compact => [':']
  | .indented => [':', ' ']

mutual

/-- The text of a value that stands at that depth. -/
def render (style : Style) (depth : Nat) : Json → Text
  | .null => Text.ofString "null"
  | .bool true => Text.ofString "true"
  | .bool false => Text.ofString "false"
  | .text t => quote t
  | .whole n => Float64.digitsOf n
  | .float x => (Float64.toText? x).getD (Text.ofString "null")
  | .list [] => ['[', ']']
  | .list (item :: items) =>
    '[' :: lineBreak style (depth + 1) ++ render style (depth + 1) item ++
      renderItems style (depth + 1) items ++ lineBreak style depth ++ [']']
  | .object [] => ['\x7b', '\x7d']
  | .object ((name, v) :: fields) =>
    '\x7b' :: lineBreak style (depth + 1) ++ quote name ++ colon style ++
      render style (depth + 1) v ++
      renderFields style (depth + 1) fields ++ lineBreak style depth ++ ['\x7d']

def renderItems (style : Style) (depth : Nat) : List Json → Text
  | [] => []
  | item :: items =>
    ',' :: lineBreak style depth ++ render style depth item ++ renderItems style depth items

def renderFields (style : Style) (depth : Nat) : List (Text × Json) → Text
  | [] => []
  | (name, v) :: fields =>
    ',' :: lineBreak style depth ++ quote name ++ colon style ++ render style depth v ++
      renderFields style depth fields

end

def toText (style : Style) (j : Json) : Text := j.render style 0

def ofOption {α : Type} (f : α → Json) : Option α → Json
  | none => .null
  | some a => f a

def record (fields : List (String × Json)) : Json :=
  .object (fields.map fun f => (Text.ofString f.1, f.2))

def literal (s : String) : Json := .text (Text.ofString s)

end Json

end SchemaDiagram
