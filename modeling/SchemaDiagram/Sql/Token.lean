import SchemaDiagram.Text.Alphanumeric
import SchemaDiagram.Text.Blank

/-!
# Tokens

Comment-free text is read as tokens with gaps between them. A gap holds white space and every
operator character, since operators carry no structure. Names stand alone or in one of three
quotings: `"n"` and `` `n` ``, in which a doubled quote stands for itself, and `[n]`. Whatever is
left open runs to the end of the text.

`next?` takes the first token, `tokenize` all of them. Gap, token and rest are the text again
(`next?_append`), and the rest is shorter (`next?_shorter`).
-/

namespace SchemaDiagram.Sql

inductive Keyword where
  | create
  | alter
  | add
  | table
  | only
  | ifWord
  | not
  | existsWord
  | null
  | primary
  | key
  | foreign
  | references
  | unique
  | default
  | check
  | constraint
  | index
  | on
  | delete
  | update
  | generated
  | identity
  | autoIncrement
  deriving DecidableEq, Repr

/-- The spellings of the keywords, in upper case. -/
def keywords : List (Text × Keyword) := [
  (Text.ofString "CREATE", .create),
  (Text.ofString "ALTER", .alter),
  (Text.ofString "ADD", .add),
  (Text.ofString "TABLE", .table),
  (Text.ofString "ONLY", .only),
  (Text.ofString "IF", .ifWord),
  (Text.ofString "NOT", .not),
  (Text.ofString "EXISTS", .existsWord),
  (Text.ofString "NULL", .null),
  (Text.ofString "PRIMARY", .primary),
  (Text.ofString "KEY", .key),
  (Text.ofString "FOREIGN", .foreign),
  (Text.ofString "REFERENCES", .references),
  (Text.ofString "UNIQUE", .unique),
  (Text.ofString "DEFAULT", .default),
  (Text.ofString "CHECK", .check),
  (Text.ofString "CONSTRAINT", .constraint),
  (Text.ofString "INDEX", .index),
  (Text.ofString "ON", .on),
  (Text.ofString "DELETE", .delete),
  (Text.ofString "UPDATE", .update),
  (Text.ofString "GENERATED", .generated),
  (Text.ofString "IDENTITY", .identity),
  (Text.ofString "AUTO_INCREMENT", .autoIncrement),
  (Text.ofString "AUTOINCREMENT", .autoIncrement)]

inductive Token where
  /-- A keyword, with its spelling. -/
  | keyword (k : Keyword) (spelled : Text)
  /-- A name, its quotes taken off. -/
  | name (n : Text)
  /-- A string literal, its quotes and escapes taken off. -/
  | string (value : Text)
  | number (digits : Text)
  | opening
  | closing
  | comma
  | semicolon
  | dot
  deriving DecidableEq, Repr

namespace Token

/-- The name a token can stand for: names as they are, keywords as they are spelled. -/
def asName? : Token → Option Text
  | name n => some n
  | keyword _ spelled => some spelled
  | _ => none

def isWord (word : Text) : Token → Bool
  | name n => Text.SameName n word
  | _ => false

def ofWord (word : Text) : Token :=
  match keywords.lookup (Text.upper word) with
  | some k => keyword k word
  | none => name word

end Token

/-- A piece at the head of a text: what it stands for, its characters, and the text behind it. -/
structure Piece (α : Type) where
  value : α
  raw : Text
  rest : Text

def Piece.behind {α : Type} (cs : Text) (f : α → α) (p : Piece α) : Piece α :=
  { p with value := f p.value, raw := cs ++ p.raw }

/-- The body of a quoted name up to and with its closing quote. A doubled quote stands for itself,
except that `]` cannot be doubled. -/
def quotedName (close : Char) : Text → Piece Text
  | [] => ⟨[], [], []⟩
  | c :: rest =>
    if c = close then
      match rest with
      | d :: rest' =>
        if d = close ∧ close ≠ ']' then (quotedName close rest').behind [c, d] (c :: ·)
        else ⟨[], [c], rest⟩
      | [] => ⟨[], [c], rest⟩
    else (quotedName close rest).behind [c] (c :: ·)

/-- The body of a string literal up to and with its closing quote. A doubled quote stands for
itself, and so does any character behind a backslash. -/
def stringBody : Text → Piece Text
  | [] => ⟨[], [], []⟩
  | '\'' :: '\'' :: rest => (stringBody rest).behind ['\'', '\''] ('\'' :: ·)
  | '\'' :: rest => ⟨[], ['\''], rest⟩
  | ['\\'] => ⟨[], ['\\'], []⟩
  | '\\' :: c :: rest => (stringBody rest).behind ['\\', c] (c :: ·)
  | c :: rest => (stringBody rest).behind [c] (c :: ·)

/-- Digits with at most one point among them. -/
def digits (pointSeen : Bool) : Text → Text × Text
  | [] => ([], [])
  | c :: rest =>
    if Text.isAsciiDigit c then
      let (taken, behind) := digits pointSeen rest
      (c :: taken, behind)
    else if c = '.' ∧ pointSeen = false then
      let (taken, behind) := digits true rest
      (c :: taken, behind)
    else ([], c :: rest)

def isNameChar (c : Char) : Bool := Text.isAlphanumeric c || c == '_' || c == '$'

def startsToken (c : Char) (rest : Text) : Bool :=
  c ∈ ['(', ')', ',', ';', '.', '"', '\x60', '[', '\'', '_'] ||
    c == '-' && rest.head?.any Text.isAsciiDigit ||
    Text.isAlphanumeric c

/-- Cuts before the first character that starts a token. -/
def gap : Text → Text × Text
  | [] => ([], [])
  | c :: rest =>
    if startsToken c rest then ([], c :: rest)
    else
      let (skipped, behind) := gap rest
      (c :: skipped, behind)

/-- The token that starts at `c`. -/
def tokenAt (c : Char) (rest : Text) : Piece Token :=
  let quoted (close : Char) : Piece Token :=
    let p := quotedName close rest
    ⟨.name p.value, c :: p.raw, p.rest⟩
  if c = '(' then ⟨.opening, [c], rest⟩
  else if c = ')' then ⟨.closing, [c], rest⟩
  else if c = ',' then ⟨.comma, [c], rest⟩
  else if c = ';' then ⟨.semicolon, [c], rest⟩
  else if c = '.' then ⟨.dot, [c], rest⟩
  else if c = '"' ∨ c = '\x60' then quoted c
  else if c = '[' then quoted ']'
  else if c = '\'' then
    let p := stringBody rest
    ⟨.string p.value, c :: p.raw, p.rest⟩
  else if c = '-' ∨ Text.isAsciiDigit c then
    let (taken, behind) := digits false rest
    ⟨.number (c :: taken), c :: taken, behind⟩
  else
    let word := c :: rest.takeWhile isNameChar
    ⟨.ofWord word, word, rest.dropWhile isNameChar⟩

/-- A token, its characters, and the gap before it. -/
structure Lexeme where
  before : Text
  token : Token
  raw : Text
  deriving DecidableEq, Repr

def next? (t : Text) : Option (Lexeme × Text) :=
  match gap t with
  | (_, []) => none
  | (before, c :: rest) =>
    let p := tokenAt c rest
    some (⟨before, p.value, p.raw⟩, p.rest)

theorem gap_append (t : Text) : (gap t).1 ++ (gap t).2 = t := by
  induction t with
  | nil => rfl
  | cons c rest ih => simp only [gap]; split <;> simp [ih]

theorem quotedName_append (close : Char) (t : Text) :
    (quotedName close t).raw ++ (quotedName close t).rest = t := by
  fun_induction quotedName close t <;> simp_all [Piece.behind]

theorem stringBody_append (t : Text) : (stringBody t).raw ++ (stringBody t).rest = t := by
  fun_induction stringBody t <;> simp_all [Piece.behind]

theorem digits_append (pointSeen : Bool) (t : Text) :
    (digits pointSeen t).1 ++ (digits pointSeen t).2 = t := by
  fun_induction digits pointSeen t <;> simp_all

theorem tokenAt_append (c : Char) (rest : Text) :
    (tokenAt c rest).raw ++ (tokenAt c rest).rest = c :: rest := by
  simp only [tokenAt]
  repeat' split
  all_goals
    simp [quotedName_append, stringBody_append, digits_append, List.takeWhile_append_dropWhile]

theorem tokenAt_raw_ne_nil (c : Char) (rest : Text) : (tokenAt c rest).raw ≠ [] := by
  simp only [tokenAt]
  repeat' split
  all_goals simp

/-- Gap, token and rest are the text again. -/
theorem next?_append {t rest : Text} {l : Lexeme} (h : next? t = some (l, rest)) :
    l.before ++ (l.raw ++ rest) = t := by
  have hg := gap_append t
  unfold next? at h
  split at h
  · contradiction
  · next before c tail he =>
    obtain ⟨rfl, rfl⟩ := by simpa using h
    rw [he] at hg
    rw [← hg, tokenAt_append]

theorem next?_raw_ne_nil {t rest : Text} {l : Lexeme} (h : next? t = some (l, rest)) :
    l.raw ≠ [] := by
  unfold next? at h
  split at h
  · contradiction
  · next before c tail he =>
    obtain ⟨rfl, rfl⟩ := by simpa using h
    exact tokenAt_raw_ne_nil c tail

/-- Taking a token makes progress. -/
theorem next?_shorter {t rest : Text} {l : Lexeme} (h : next? t = some (l, rest)) :
    rest.length < t.length := by
  have ha := congrArg List.length (next?_append h)
  have hr := List.length_pos_iff.2 (next?_raw_ne_nil h)
  simp only [List.length_append] at ha
  omega

def tokenize (t : Text) : List Lexeme :=
  match _ : next? t with
  | none => []
  | some (l, rest) => l :: tokenize rest
termination_by t.length
decreasing_by exact next?_shorter ‹_›

/-- The text from the first token on that does not start among its first `n` characters. -/
def skipPast (n : Nat) (t : Text) : Text :=
  match _ : next? t with
  | none => t
  | some (l, rest) =>
    if l.before.length < n then skipPast (n - l.before.length - l.raw.length) rest else t
termination_by t.length
decreasing_by exact next?_shorter ‹_›

theorem skipPast_length_le (n : Nat) (t : Text) : (skipPast n t).length ≤ t.length := by
  fun_induction skipPast n t with
  | case1 => exact Nat.le_refl _
  | case2 n t l rest h _ ih => exact Nat.le_trans ih (Nat.le_of_lt (next?_shorter h))
  | case3 => exact Nat.le_refl _

end SchemaDiagram.Sql
