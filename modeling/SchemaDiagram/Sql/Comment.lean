import SchemaDiagram.Sql.Scan

/-!
# Comments

A line comment runs from `--` to the end of its line, a block comment from `/*` to the next `*/`.
Neither starts inside a literal. A block comment leaves one space behind and a line comment keeps
its line end, so that no two words grow together.
-/

namespace SchemaDiagram.Sql

def unifyLineEnds : Text → Text
  | '\r' :: '\n' :: rest => '\n' :: unifyLineEnds rest
  | c :: rest => c :: unifyLineEnds rest
  | [] => []

def fromLineEnd (t : Text) : Text := t.dropWhile (· ≠ '\n')

/-- The text behind the end of a block comment; nothing if the comment never ends. -/
def behindBlock : Text → Text
  | '*' :: '/' :: rest => rest
  | _ :: rest => behindBlock rest
  | [] => []

theorem fromLineEnd_length_le (t : Text) : (fromLineEnd t).length ≤ t.length :=
  (List.dropWhile_suffix _).length_le

theorem behindBlock_length_le (t : Text) : (behindBlock t).length ≤ t.length := by
  fun_induction behindBlock t <;> simp_all <;> omega

/-- What remains of `t` when a scan that stands at `s` leaves the comments out. -/
def Scan.uncomment (s : Scan) (t : Text) : Text :=
  match t with
  | [] => []
  | c :: rest =>
    if s.inLiteral then c :: Scan.uncomment (s.step c) rest
    else
      match c, rest with
      | '-', '-' :: line => Scan.uncomment s (fromLineEnd line)
      | '/', '*' :: block => ' ' :: Scan.uncomment s (behindBlock block)
      | c, rest => c :: Scan.uncomment (s.step c) rest
termination_by t.length
decreasing_by
  · simp
  · have := fromLineEnd_length_le line
    simp; omega
  · have := behindBlock_length_le block
    simp; omega
  · simp

/-- The text without its comments. -/
def stripComments (t : Text) : Text := Scan.start.uncomment (unifyLineEnds t)

end SchemaDiagram.Sql
