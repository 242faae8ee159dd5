import SchemaDiagram.Sql.Body
import SchemaDiagram.Sql.Comment

/-!
# Scripts

A script is read as a list of statements, and the statements make a schema. Only CREATE TABLE and
ALTER TABLE … ADD count; everything else is passed over, and nothing is ever an error. What an ALTER
TABLE adds applies once every table exists.
-/

namespace SchemaDiagram.Sql

inductive Statement where
  | create (created : CreatedTable)
  /-- The table that is altered, and what stands behind ADD. -/
  | add (table : Text) (clause : Text)
  deriving DecidableEq, Repr

namespace Reader

def tableKinds : List Text := [
  Text.ofString "TEMP", Text.ofString "TEMPORARY", Text.ofString "UNLOGGED",
  Text.ofString "GLOBAL", Text.ofString "LOCAL"]

/-- What a group encloses. Where none opens or it never closes, at most its parenthesis is taken. -/
def groupInside? : Reader (Option Text) := fun t =>
  match group t with
  | .absent => (none, t)
  | .unclosed behind => (none, behind)
  | .closed inside behind => (some inside, behind)

def newTable? : Reader (Option Statement) := do
  let some (schema, name) ← qualifiedName? | return none
  let some body ← groupInside? | return none
  return some (.create (.ofBody name schema body))

/-- What follows CREATE. -/
def createTable? : Reader (Option Statement) := do
  skipWords tableKinds
  unless ← eat .table do return none
  if ← eat .ifWord then
    let _ ← eat .not
    let _ ← eat .existsWord
  newTable?

def statementRest : Reader Text := fun t =>
  let rest := (Scan.start.statement t).1
  (rest, skipPast rest.length t)

def addition? : Reader (Option Statement) := do
  let _ ← eat .only
  let some (_, table) ← qualifiedName? | return none
  unless ← eat .add do return none
  return some (.add table (← statementRest))

def alterTable? : Reader (Option Statement) := do
  unless ← eat .table do return none
  let _ ← eat .only
  if ← eat .ifWord then
    let _ ← eat .existsWord
  addition?

def statement? : Token → Reader (Option Statement)
  | .keyword .create _ => createTable?
  | .keyword .alter _ => alterTable?
  | _ => return none

theorem Shrinks.groupInside? : Shrinks groupInside? := by
  intro t
  unfold Reader.groupInside?
  split
  · exact Nat.le_refl _
  · next h => exact Nat.le_of_lt (unclosed_shorter h)
  · next h => exact Nat.le_of_lt (closed_shorter h)

theorem Shrinks.statementRest : Shrinks statementRest := fun _ => skipPast_length_le _ _

theorem Shrinks.newTable? : Shrinks newTable? := by
  refine .bind .qualifiedName? fun name => ?_
  split
  · refine .bind .groupInside? fun body => ?_
    split <;> exact .pure _
  · exact .pure _

theorem Shrinks.createTable? : Shrinks createTable? := by
  refine .bind (.skipWords _) fun _ => .bind (.eat _) fun b => ?_
  cases b
  · exact .pure _
  · refine .bind (.eat _) fun b => ?_
    cases b
    · exact .newTable?
    · exact .bind (.eat _) fun _ => .bind (.eat _) fun _ => .newTable?

theorem Shrinks.addition? : Shrinks addition? := by
  refine .bind (.eat _) fun _ => .bind .qualifiedName? fun name => ?_
  split
  · refine .bind (.eat _) fun b => ?_
    cases b
    · exact .pure _
    · exact .bind .statementRest fun _ => .pure _
  · exact .pure _

theorem Shrinks.alterTable? : Shrinks alterTable? := by
  refine .bind (.eat _) fun b => ?_
  cases b
  · exact .pure _
  · refine .bind (.eat _) fun _ => .bind (.eat _) fun b => ?_
    cases b
    · exact .addition?
    · exact .bind (.eat _) fun _ => .addition?

theorem Shrinks.statement? (token : Token) : Shrinks (statement? token) := by
  unfold Reader.statement?
  split
  · exact .createTable?
  · exact .alterTable?
  · exact .pure _

/-- Every statement of a comment-free text. -/
def statements (t : Text) : List Statement :=
  match _ : next? t with
  | none => []
  | some (l, rest) =>
    let taken := statement? l.token rest
    taken.1.toList ++ statements taken.2
termination_by t.length
decreasing_by exact Nat.lt_of_le_of_lt (Shrinks.statement? _ _) (next?_shorter ‹_›)

end Reader

/-- The tables that statements create; of two tables of one name the first one counts. -/
def createdTables (statements : List Statement) : List CreatedTable :=
  Text.firstOfEach (Text.lower ·.table.name) <| statements.filterMap fun
    | .create created => some created
    | .add _ _ => none

/-- The constraints that statements add, each with the name its table is given there. -/
def addedConstraints (statements : List Statement) : List (Text × Constraint) :=
  statements.filterMap fun
    | .create _ => none
    | .add table clause => (Reader.tableConstraint? clause).1.map (table, ·)

/-- Adds a constraint to the first table of that name, if there is one. -/
def addConstraint (tables : List Table) (added : Text × Constraint) : List Table :=
  match tables with
  | [] => []
  | t :: others =>
    if Text.SameName t.name added.1 then t.constrain added.2 :: others
    else t :: addConstraint others added

/-- All relationships that statements declare: those inside tables, then those added. -/
def declaredRelationships (statements : List Statement) : List Relationship :=
  (createdTables statements).flatMap (·.relationships) ++
    (addedConstraints statements).filterMap fun (table, c) => c.relationship? table

/-- The schema that statements describe. Of relationships of one key the first one counts. -/
def schemaOf (statements : List Statement) : Schema where
  tables :=
    (addedConstraints statements).foldl addConstraint
      ((createdTables statements).map (·.table))
  relationships := Text.firstOfEach Relationship.key (declaredRelationships statements)

/-- The schema that a script declares. -/
def extract (script : Text) : Schema :=
  schemaOf (Reader.statements (stripComments script))

end SchemaDiagram.Sql
