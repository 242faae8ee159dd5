import SchemaDiagram.Sql.Scan
import SchemaDiagram.Text.Alphanumeric
import SchemaDiagram.Text.Upper

/-!
# Column types

A column's type is one of a vocabulary of names, some of several words, or else a word of its own,
perhaps with dots inside. Arguments in parentheses and array suffixes belong to the type. Where no
word stands at all, everything up to the next white space is taken.
-/

namespace SchemaDiagram.Sql

/-- The known type names. A name of several words stands before every name that begins it. -/
def typeNames : List String := [
  "TIMESTAMP WITHOUT TIME ZONE", "TIMESTAMP WITH TIME ZONE", "TIME WITHOUT TIME ZONE",
  "TIME WITH TIME ZONE", "DOUBLE PRECISION", "CHARACTER VARYING", "NATIONAL CHARACTER VARYING",
  "NATIONAL CHARACTER", "BIT VARYING", "LONG VARCHAR", "BIGSERIAL", "SMALLSERIAL", "SERIAL",
  "SERIAL2", "SERIAL4", "SERIAL8", "BIGINT", "SMALLINT", "TINYINT", "MEDIUMINT", "INTEGER", "INT",
  "INT2", "INT4", "INT8", "REAL", "FLOAT", "NUMERIC", "DECIMAL", "MONEY", "BOOLEAN", "BOOL",
  "BIT", "VARBIT", "UUID", "TEXT", "CITEXT", "VARCHAR", "NVARCHAR", "CHARACTER", "CHAR", "NCHAR",
  "BYTEA", "BLOB", "CLOB", "TINYTEXT", "MEDIUMTEXT", "LONGTEXT", "DATETIME", "DATE",
  "TIMESTAMPTZ", "TIMESTAMP", "TIMETZ", "TIME", "INTERVAL", "INET", "CIDR", "MACADDR", "JSONB",
  "JSON", "XML", "POINT", "LINE", "LSEG", "BOX", "PATH", "POLYGON", "CIRCLE", "TSQUERY",
  "TSVECTOR", "ENUM", "SET", "GEOMETRY", "GEOGRAPHY", "HSTORE", "ARRAY", "OID", "REGCLASS"]

def typeVocabulary : List (List Text) :=
  typeNames.map fun name => Text.words (Text.ofString name)

def clauseWords : List Text := [
  Text.ofString "PRIMARY", Text.ofString "NOT", Text.ofString "NULL", Text.ofString "UNIQUE",
  Text.ofString "DEFAULT", Text.ofString "CHECK", Text.ofString "REFERENCES",
  Text.ofString "CONSTRAINT", Text.ofString "GENERATED", Text.ofString "AUTO_INCREMENT",
  Text.ofString "AUTOINCREMENT", Text.ofString "IDENTITY"]

/-- The text behind `word`, if the text starts with that whole word in any case. -/
def behindWord? : Text → Text → Option Text
  | [], t => if t.head?.any Text.isWordChar then none else some t
  | w :: word, c :: t => if c.toLower = w.toLower then behindWord? word t else none
  | _ :: _, [] => none

/-- The text behind the words, white space between them. -/
def behindWords? : List Text → Text → Option Text
  | [], t => some t
  | [word], t => behindWord? word t
  | word :: words, t =>
    match behindWord? word t with
    | some (c :: rest) =>
      if Text.isBlankChar c then behindWords? words (Text.trimStart rest) else none
    | _ => none

/-- Takes word characters, and each point that stands between two of them. -/
def dottedWord (started : Bool) : Text → Text × Text
  | [] => ([], [])
  | c :: rest =>
    if Text.isWordChar c || c == '.' && started && rest.head?.any Text.isWordChar then
      let (word, behind) := dottedWord true rest
      (c :: word, behind)
    else ([], c :: rest)

/-- The bare type name at the head of a text, and the text behind it. -/
def typeName? (t : Text) : Option (Text × Text) :=
  let known := typeVocabulary.findSome? fun words =>
    (behindWords? words t).map fun rest => (Text.join [' '] words, rest)
  known.or <|
    match dottedWord false t with
    | ([], _) => none
    | (word, rest) => some (Text.upper word, rest)

/-- The arguments at the head of a text, parentheses included and in upper case. -/
def typeArguments (t : Text) : Text × Text :=
  match Text.trimStart t with
  | '(' :: rest =>
    match closeGroup? rest with
    | some (inside, behind) => (Text.upperFull ('(' :: inside ++ [')']), behind)
    | none => ([], t)
  | _ => ([], t)

/-- The array suffix at the head of a text: brackets with digits or nothing in them. -/
def arraySuffix? (t : Text) : Option (Text × Text) :=
  match Text.trimStart t with
  | '[' :: rest =>
    let size := Text.trim (rest.takeWhile (· ≠ ']'))
    match rest.dropWhile (· ≠ ']') with
    | _ :: behind =>
      if size.all Text.isAsciiDigit then some ('[' :: size ++ [']'], behind) else none
    | [] => none
  | _ => none

theorem arraySuffix?_shorter {t suffix rest : Text} (h : arraySuffix? t = some (suffix, rest)) :
    rest.length < t.length := by
  have trimmed : (Text.trimStart t).length ≤ t.length := (List.dropWhile_suffix _).length_le
  unfold arraySuffix? at h
  split at h
  · next inside hopen =>
    have dropped := (List.dropWhile_suffix (l := inside) (· ≠ ']')).length_le
    rw [hopen, List.length_cons] at trimmed
    dsimp only at h
    split at h
    · next c behind hclose =>
      rw [hclose, List.length_cons] at dropped
      split at h
      · obtain ⟨-, rfl⟩ := by simpa using h
        omega
      · contradiction
    · contradiction
  · contradiction

/-- All array suffixes at the head of a text. -/
def arraySuffixes (t : Text) : Text × Text :=
  match _ : arraySuffix? t with
  | none => ([], t)
  | some (suffix, rest) =>
    let (others, left) := arraySuffixes rest
    (suffix ++ others, left)
termination_by t.length
decreasing_by exact arraySuffix?_shorter ‹_›

/-- A recognised type: its name as the schema shows it, and the text behind it. -/
structure ColumnType where
  name : Text
  rest : Text

/-- The type at the head of a text. There is none in blank text or before a clause. -/
def columnType? (t : Text) : Option ColumnType :=
  match Text.trimStart t with
  | [] => none
  | start@(_ :: _) =>
    match typeName? start with
    | none =>
      some ⟨Text.upperFull (start.takeWhile (!Text.isBlankChar ·)),
        start.dropWhile (!Text.isBlankChar ·)⟩
    | some (base, rest) =>
      if Text.isAmong base clauseWords then none
      else
        let (arguments, rest) := typeArguments rest
        let (arrays, rest) := arraySuffixes rest
        some ⟨base ++ arguments ++ arrays, rest⟩

/-- Types of the SERIAL family number their rows themselves. -/
def ColumnType.isSerial (type : ColumnType) : Bool :=
  Text.contains (Text.ofString "SERIAL") type.name

end SchemaDiagram.Sql
