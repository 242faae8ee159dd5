import SchemaDiagram.Schema
import SchemaDiagram.Sql.Reader

/-!
# Clauses

What may stand behind the type of a column, and the constraints of a table. A column's clauses come
in any order; whatever is no clause is passed over.
-/

namespace SchemaDiagram.Sql

structure Reference where
  table : Text
  columns : List Text
  onDelete : Option ReferentialAction
  onUpdate : Option ReferentialAction
  deriving DecidableEq, Repr

inductive Clause where
  | primaryKey
  | notNull
  | unique
  | autoIncrement
  | default (expression : Text)
  | check (group : Text)
  | references (target : Reference)
  deriving DecidableEq, Repr

inductive Trigger where
  | delete
  | update
  deriving DecidableEq, Repr

namespace Reader

def referentialAction? : Reader (Option ReferentialAction) := do
  if ← eatWord (Text.ofString "CASCADE") then return some .cascade
  if ← eatWord (Text.ofString "RESTRICT") then return some .restrict
  if ← eatWord (Text.ofString "SET") then
    if ← eat .null then return some .setNull
    if ← eat .default then return some .setDefault
    return none
  if ← eatWord (Text.ofString "NO") then
    let _ ← eatWord (Text.ofString "ACTION")
    return some .noAction
  return none

theorem Shrinks.referentialAction? : Shrinks referentialAction? := by
  refine .bind (.eatWord _) fun b => ?_
  cases b
  · refine .bind (.eatWord _) fun b => ?_
    cases b
    · refine .bind (.eatWord _) fun b => ?_
      cases b
      · refine .bind (.eatWord _) fun b => ?_
        cases b
        · exact .pure _
        · exact .bind (.eatWord _) fun _ => .pure _
      · refine .bind (.eat _) fun b => ?_
        cases b
        · refine .bind (.eat _) fun b => ?_
          cases b <;> exact .pure _
        · exact .pure _
    · exact .pure _
  · exact .pure _

def triggeredAction? : Reader (Option (Trigger × Option ReferentialAction)) := do
  if ← eat .delete then return some (.delete, ← referentialAction?)
  if ← eat .update then return some (.update, ← referentialAction?)
  return none

theorem Shrinks.triggeredAction? : Shrinks triggeredAction? := by
  refine .bind (.eat _) fun b => ?_
  cases b
  · refine .bind (.eat _) fun b => ?_
    cases b
    · exact .pure _
    · exact .bind .referentialAction? fun _ => .pure _
  · exact .bind .referentialAction? fun _ => .pure _

def referentialClause? : Reader (Option (Trigger × Option ReferentialAction)) := do
  if ← eat .on then triggeredAction? else return none

theorem Shrinks.referentialClause? : Shrinks referentialClause? := by
  refine .bind (.eat _) fun b => ?_
  cases b
  · exact .pure _
  · exact .triggeredAction?

theorem referentialClause?_shorter {t rest : Text} {c : Trigger × Option ReferentialAction}
    (h : referentialClause? t = (some c, rest)) : rest.length < t.length := by
  simp only [referentialClause?, bind_apply] at h
  rcases hon : eat .on t with ⟨started, behindOn⟩
  rw [hon] at h
  cases started
  · simp [pure_apply] at h
  · have h : triggeredAction? behindOn = (some c, rest) := h
    have left := Shrinks.triggeredAction? behindOn
    rw [h] at left
    exact Nat.lt_of_le_of_lt left (eatIf_shorter hon)

/-- All ON clauses that follow one another. -/
def referentialClauses (t : Text) : List (Trigger × Option ReferentialAction) × Text :=
  match _ : referentialClause? t with
  | (none, rest) => ([], rest)
  | (some clause, rest) =>
    let (others, left) := referentialClauses rest
    (clause :: others, left)
termination_by t.length
decreasing_by exact referentialClause?_shorter ‹_›

theorem Shrinks.referentialClauses : Shrinks referentialClauses := by
  intro t
  fun_induction Reader.referentialClauses t with
  | case1 t rest h => exact congrArg (·.2) h ▸ Shrinks.referentialClause? t
  | case2 t clause rest h others left he ih =>
    rw [he] at ih
    exact Nat.le_trans ih (Nat.le_of_lt (referentialClause?_shorter h))

/-- What follows REFERENCES. Of several actions for one trigger the last one counts. -/
def reference? : Reader (Option Reference) := do
  let some (_, table) ← qualifiedName? | return none
  let columns ← columnList
  let clauses ← referentialClauses
  let action (trigger : Trigger) : Option ReferentialAction :=
    (clauses.filter (·.1 = trigger)).getLast?.bind (·.2)
  return some {
    table
    columns := if columns.isEmpty then [implicitColumn] else columns
    onDelete := action .delete
    onUpdate := action .update }

theorem Shrinks.reference? : Shrinks reference? := by
  refine .bind .qualifiedName? fun name => ?_
  split
  · exact .bind .columnList fun _ => .bind .referentialClauses fun _ => .pure _
  · exact .pure _

def defaultExpression? : Reader (Option Text) := fun t =>
  let blanks := t.takeWhile Text.isBlankChar
  let expression := (Scan.start.expression (Text.trimStart t)).1
  (if expression.isEmpty then none else some expression,
    skipPast (blanks.length + expression.length) t)

theorem Shrinks.defaultExpression? : Shrinks defaultExpression? := fun _ => skipPast_length_le _ _

/-- What follows GENERATED; true if the column is an identity. -/
def identity : Reader Bool := do
  unless ← eatWord (Text.ofString "ALWAYS") do
    if ← eatWord (Text.ofString "BY") then let _ ← eat .default
  let _ ← eatWord (Text.ofString "AS")
  let isIdentity ← eat .identity
  skipGroup
  return isIdentity

/-- What the token that was just taken begins. -/
def clause? : Token → Reader (Option Clause)
  | .keyword .primary _ => do
    let _ ← eat .key
    return some .primaryKey
  | .keyword .not _ => do
    if ← eat .null then return some .notNull else return none
  | .keyword .unique _ => do
    let _ ← eat .key
    return some .unique
  | .keyword .default _ => do
    return (← defaultExpression?).map .default
  | .keyword .check _ => do
    return (← groupText?).map .check
  | .keyword .references _ => do
    return (← reference?).map .references
  | .keyword .autoIncrement _ => return some .autoIncrement
  | .keyword .identity _ => do
    skipGroup
    return some .autoIncrement
  | .keyword .generated _ => do
    if ← identity then return some .autoIncrement else return none
  | .keyword .constraint _ => do
    let _ ← take? fun token => match token with
      | .name _ => some ()
      | _ => none
    return none
  | _ => return none

theorem Shrinks.identity : Shrinks identity := by
  refine .bind (.eatWord _) fun b => ?_
  cases b
  · refine .bind (.eatWord _) fun b => ?_
    cases b
    · exact .bind (.eatWord _) fun _ => .bind (.eat _) fun _ => .bind .skipGroup fun _ => .pure _
    · exact .bind (.eat _) fun _ => .bind (.eatWord _) fun _ => .bind (.eat _) fun _ =>
        .bind .skipGroup fun _ => .pure _
  · exact .bind (.eatWord _) fun _ => .bind (.eat _) fun _ => .bind .skipGroup fun _ => .pure _

theorem Shrinks.clause? (token : Token) : Shrinks (clause? token) := by
  unfold Reader.clause?
  split
  · exact .bind (.eat _) fun _ => .pure _
  · refine .bind (.eat _) fun b => ?_
    cases b <;> exact .pure _
  · exact .bind (.eat _) fun _ => .pure _
  · exact .bind .defaultExpression? fun _ => .pure _
  · exact .bind .groupText? fun _ => .pure _
  · exact .bind .reference? fun _ => .pure _
  · exact .pure _
  · exact .bind .skipGroup fun _ => .pure _
  · refine .bind .identity fun b => ?_
    cases b <;> exact .pure _
  · exact .bind (.take? _) fun _ => .pure _
  · exact .pure _

/-- Every clause of a text. -/
def clauses (t : Text) : List Clause :=
  match _ : next? t with
  | none => []
  | some (l, rest) =>
    let taken := clause? l.token rest
    taken.1.toList ++ clauses taken.2
termination_by t.length
decreasing_by exact Nat.lt_of_le_of_lt (Shrinks.clause? _ _) (next?_shorter ‹_›)

/-- A constraint of a table, perhaps named. It is none if its columns are missing, its reference or
its group is broken, or another word stands where it should start. -/
def tableConstraint? : Reader (Option Constraint) := do
  let named ← eat .constraint
  let name ← if named then constraintName? else pure none
  constraintBody? name
where
  /-- The name behind CONSTRAINT, which can be missing. -/
  constraintName? : Reader (Option Text) :=
    take? fun token => match token with
      | .keyword .primary _ | .keyword .unique _ | .keyword .foreign _ | .keyword .check _ => none
      | token => token.asName?
  /-- The constraint itself. -/
  constraintBody? (name : Option Text) : Reader (Option Constraint) := do
    if ← eat .primary then
      let _ ← eat .key
      let columns ← columnList
      return if columns.isEmpty then none else some (.primaryKey name columns)
    if ← eat .unique then
      unless ← eat .key do let _ ← eat .index
      advanceToGroup
      let columns ← columnList
      return if columns.isEmpty then none else some (.unique name columns)
    if ← eat .foreign then
      let _ ← eat .key
      advanceToGroup
      let columns ← columnList
      if columns.isEmpty then return none
      unless ← eat .references do return none
      let some target ← reference? | return none
      return some
        (.foreignKey name columns target.table target.columns target.onDelete target.onUpdate)
    if ← eat .check then
      return (← groupText?).map (.check name)
    return none

end Reader

end SchemaDiagram.Sql
