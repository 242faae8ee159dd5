import SchemaDiagram.Toml.Number
import SchemaDiagram.Toml.Reading

/-!
# Blanks, comments, strings and keys

A string stands in double quotes with escapes, or in single quotes without. Three quotes make it run
over several lines: a line break right behind them does not count, every other one counts as a
line feed, and a backslash at the end of a line takes all white space behind it away. Control
characters, the tab apart, stand nowhere.
-/

namespace SchemaDiagram.Toml

open Reading

def isBlank (c : Char) : Bool := c = ' ' || c = '\t'

/-- A character that may stand in a comment. -/
def isPlain (c : Char) : Bool := c = '\t' || ' ' ≤ c && c ≠ '\x7F'

def blanks : Reading Unit := do
  let _ ← run isBlank

def lineBreak : Reading Unit := exactly '\n' <|> literal ['\r', '\n']

def comment : Reading Unit := do
  exactly '#'
  let _ ← run isPlain

def spacing : Reading Unit := do
  let _ ← many ((do let _ ← char isBlank) <|> lineBreak <|> (comment *> lineBreak))

def codedChar (count : Nat) : Reading Char := do
  let digits ← (List.replicate count ()).mapM fun _ => char isHexDigit
  let code := digits.foldl (fun n c => 16 * n + baseDigit c) 0
  if code.isValidChar then return Char.ofNat code else failure

/-- The character that an escape stands for. -/
def escapedChar : Reading Char := do
  exactly '\\'
  match ← char fun _ => true with
  | 'b' => return '\x08'
  | 't' => return '\t'
  | 'n' => return '\n'
  | 'f' => return '\x0C'
  | 'r' => return '\r'
  | '"' => return '"'
  | '\\' => return '\\'
  | 'u' => codedChar 4
  | 'U' => codedChar 8
  | _ => failure

def lineString (quote : Char) (piece : Reading Text) : Reading Text := do
  exactly quote
  let pieces ← many piece
  exactly quote
  return pieces.flatten

/-- Up to two quotes in front of something else, or the three at the end with up to two more. -/
def innerQuotes (quote : Char) : Reading Text := do
  let quotes ← run1 (· = quote)
  if quotes.length ≤ 2 then return quotes else failure

/-- The quotes that end a string, and those before them that belong to it. -/
def closingQuotes (quote : Char) : Reading Text := do
  let quotes ← run1 (· = quote)
  if 3 ≤ quotes.length && quotes.length ≤ 5 then return quotes.drop 3 else failure

def linesString (quote : Char) (piece : Reading Text) : Reading Text := do
  literal [quote, quote, quote]
  optional lineBreak
  let lineFeed : Reading Text := lineBreak *> pure ['\n']
  let pieces ← many (lineFeed <|> innerQuotes quote <|> piece)
  return pieces.flatten ++ (← closingQuotes quote)

def plainRun (test : Char → Bool) : Reading Text := run1 fun c => isPlain c && test c

def escapedPiece : Reading Text := do return [← escapedChar]

/-- A backslash at the end of a line, and the white space that it takes away. -/
def joinedLines : Reading Text := do
  exactly '\\'
  blanks
  lineBreak
  let _ ← many ((do let _ ← char isBlank) <|> lineBreak)
  return []

def escapingPiece : Reading Text := plainRun (fun c => c ≠ '"' && c ≠ '\\') <|> escapedPiece

def literalPiece : Reading Text := plainRun (· ≠ '\'')

def shortString : Reading Text := lineString '"' escapingPiece <|> lineString '\'' literalPiece

def string : Reading Text :=
  linesString '"' (joinedLines <|> escapingPiece) <|> linesString '\'' literalPiece <|> shortString

def isBareKeyChar (c : Char) : Bool :=
  Text.isAsciiLetter c || Text.isAsciiDigit c || c = '-' || c = '_'

def simpleKey : Reading Text := shortString <|> run1 isBareKeyChar

/-- Keys nest less deep than this. -/
def depthLimit : Nat := 80

def key : Reading (List Text × Text) := do
  let parts ← separated (exactly '.') (blanks *> simpleKey <* blanks)
  match parts.getLast? with
  | some last => if parts.length < depthLimit then return (parts.dropLast, last) else failure
  | none => failure

end SchemaDiagram.Toml
