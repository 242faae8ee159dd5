import SchemaDiagram.Text.Blank

/-!
# Scanning for structure

A scan walks over SQL text one character at a time and knows whether it stands inside a literal
and how many parentheses are open. Characters of a literal are never structure. A backslash inside
a literal takes the next character with it.

The functions here cut text at the places a scan singles out: the parenthesis that closes a group,
the commas of a list, the end of a statement, the end of an expression.
-/

namespace SchemaDiagram.Sql

/-- Where a scan stands: outside literals, or in one that `quote` opened and `quote` will close. -/
inductive Place where
  | plain
  | literal (quote : Char) (escaped : Bool)
  deriving DecidableEq, Repr

/-- The depth is the number of parentheses open, below zero if too many were closed. It has no bound
here, which a counter of 32 bits keeps up with as long as fewer than `2 ^ 31` are open at once. -/
structure Scan where
  place : Place := .plain
  depth : Int := 0
  deriving DecidableEq, Repr

/-- What a character means to a scan; `other` holds for all of a literal, quotes included. -/
inductive Mark where
  | opening
  | closing
  | comma
  | semicolon
  | blank
  | other
  deriving DecidableEq, Repr

namespace Scan

def start : Scan := {}

def nested : Scan := { depth := 1 }

def inLiteral (s : Scan) : Bool := s.place ≠ .plain

def mark (s : Scan) (c : Char) : Mark :=
  match s.place with
  | .literal _ _ => .other
  | .plain =>
    if c = '(' then .opening
    else if c = ')' then .closing
    else if c = ',' then .comma
    else if c = ';' then .semicolon
    else if Text.isBlankChar c then .blank
    else .other

/-- The scan behind `c`. -/
def step (s : Scan) (c : Char) : Scan :=
  match s.place with
  | .literal quote escaped =>
    if escaped then { s with place := .literal quote false }
    else if c = '\\' then { s with place := .literal quote true }
    else if c = quote then { s with place := .plain }
    else s
  | .plain =>
    if c = '\'' ∨ c = '"' then { s with place := .literal c false }
    else if c = '(' then { s with depth := s.depth + 1 }
    else if c = ')' then { s with depth := s.depth - 1 }
    else s

def run (s : Scan) (t : Text) : Scan := t.foldl step s

/-- Cuts at the first `)` that brings the depth to zero: what stands before it and behind it. -/
def close? (s : Scan) : Text → Option (Text × Text)
  | [] => none
  | c :: rest =>
    if s.mark c = .closing ∧ (s.step c).depth = 0 then some ([], rest)
    else (close? (s.step c) rest).map fun (inside, behind) => (c :: inside, behind)

/-- Cuts at every comma of depth zero: the first piece and the others. -/
def cut (s : Scan) : Text → Text × List Text
  | [] => ([], [])
  | c :: rest =>
    let (piece, others) := cut (s.step c) rest
    if s.mark c = .comma ∧ s.depth = 0 then ([], piece :: others) else (c :: piece, others)

/-- Cuts before the first semicolon that no parenthesis encloses, or at the end of the text. -/
def statement (s : Scan) : Text → Text × Text
  | [] => ([], [])
  | c :: rest =>
    if s.mark c = .semicolon ∧ s.depth ≤ 0 then ([], c :: rest)
    else
      let (body, behind) := statement (s.step c) rest
      (c :: body, behind)

/-- Whether an expression that reached `s` ends before `c`: at white space or a comma of depth
zero, or at a parenthesis that closes more than the expression opened. -/
def stops (s : Scan) (c : Char) : Bool :=
  (s.step c).depth < 0 || s.depth = 0 && (s.mark c = .blank || s.mark c = .comma)

/-- Cuts before the first character at which an expression stops. -/
def expression (s : Scan) : Text → Text × Text
  | [] => ([], [])
  | c :: rest =>
    if s.stops c then ([], c :: rest)
    else
      let (taken, behind) := expression (s.step c) rest
      (c :: taken, behind)

end Scan

def closeGroup? (t : Text) : Option (Text × Text) := Scan.nested.close? t

def pieces (t : Text) : List Text :=
  let (piece, others) := Scan.start.cut t
  piece :: others

def dropBlankLast : List Text → List Text
  | [] => []
  | [last] => if Text.isBlank last then [] else [last]
  | piece :: others => piece :: dropBlankLast others

/-- The pieces between the commas of depth zero, a blank last one left out. -/
def splitTopLevel (t : Text) : List Text := dropBlankLast (pieces t)

namespace Scan

theorem eq_of_mark_closing {s : Scan} {c : Char} (h : s.mark c = .closing) : c = ')' := by
  unfold mark at h
  split at h
  · contradiction
  · repeat' split at h
    all_goals first | assumption | contradiction

theorem close?_append {s : Scan} {t inside behind : Text}
    (h : s.close? t = some (inside, behind)) : inside ++ ')' :: behind = t := by
  induction t generalizing s inside with
  | nil => simp [close?] at h
  | cons c rest ih =>
    rw [close?] at h
    split at h
    · next hc =>
      obtain ⟨rfl, rfl⟩ := by simpa using h
      simp [eq_of_mark_closing hc.1]
    · obtain ⟨⟨p, q⟩, hp, he⟩ := Option.map_eq_some_iff.1 h
      obtain ⟨rfl, rfl⟩ := by simpa using he
      simp [ih hp]

theorem statement_append (s : Scan) (t : Text) : (s.statement t).1 ++ (s.statement t).2 = t := by
  induction t generalizing s with
  | nil => rfl
  | cons c rest ih => simp only [statement]; split <;> simp [ih]

theorem expression_append (s : Scan) (t : Text) :
    (s.expression t).1 ++ (s.expression t).2 = t := by
  induction t generalizing s with
  | nil => rfl
  | cons c rest ih => simp only [expression]; split <;> simp [ih]

end Scan

end SchemaDiagram.Sql
