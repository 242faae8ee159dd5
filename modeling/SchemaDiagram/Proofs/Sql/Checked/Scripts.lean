import SchemaDiagram.Proofs.Sql.Checked.Clauses
import SchemaDiagram.Proofs.Sql.Checked.ColumnTypes
import SchemaDiagram.Sql.Script

/-!
# Scripts by offsets

A script read with offsets and positions only: bodies, segments and the clauses of ALTER TABLE are
slices, and each is read anew from its own start. No script makes any of this fault, and what is
read is the schema.
-/

namespace SchemaDiagram.Sql.Checked

def select {α β : Type} (f : α → Checked (Option β)) : List α → Checked (List β)
  | [] => return []
  | a :: others => do
    match ← f a with
    | some b => return b :: (← select f others)
    | none => select f others

theorem select_eq {α β : Type} {f : α → Checked (Option β)} {g : α → Option β}
    (h : ∀ a, f a = .ok (g a)) (as : List α) : select f as = .ok (as.filterMap g) := by
  induction as with
  | nil => rfl
  | cons a as ih =>
    rw [select, h, ok_bind, List.filterMap_cons]
    cases g a with
    | none => exact ih
    | some b =>
      dsimp only
      rw [ih]
      rfl

def Walk.leadingName : Walk (Option Text × Nat) := do
  let spot ← current
  return (← name?, spot.stop)

/-- The column that a segment defines. Its type starts behind the name, its clauses behind the
type. -/
def column? (segment : Text) : Checked (Option Column) := do
  let (name, nameEnd) ← Walk.result Walk.leadingName segment
  match name with
  | none => return none
  | some name =>
    let type ← matchType? (← sliceFrom segment nameEnd)
    let modifiers ← sliceFrom segment (nameEnd + (type.map (·.2)).getD 0)
    let clauses ← Walk.result Walk.clauses modifiers
    return some (Clause.column name (type.map fun type => ⟨type.1, modifiers⟩) clauses)

def kind (segment : Text) : Checked SegmentKind := do
  checkSpots segment (spots segment)
  return .ofText segment

/-- Reads the body of a table. -/
def createdTable (name : Text) (schema : Option Text) (body : Text) : Checked CreatedTable := do
  let segments := ((← splitTopLevel body).map Text.trim).filter (!·.isEmpty)
  let ofKind (wanted : SegmentKind) : Checked (List Text) :=
    select (fun s => do return if (← kind s) = wanted then some s else none) segments
  let columns := Text.firstOfEach (Text.lower ·.name) (← select column? (← ofKind .column))
  let constraints ← select (Walk.result Walk.tableConstraint?) (← ofKind .constraint)
  return {
    table := constraints.foldl Table.constrain { name, schema, columns }
    relationships :=
      columns.filterMap (columnRelationship? name) ++
        constraints.filterMap (Constraint.relationship? name) }

namespace Walk

/-- What a group encloses. Of what never closes, only the parenthesis is passed. -/
def groupInside? : Walk (Option Text) := do
  let spot ← current
  if spot.token? = some .opening then
    advance
    match ← lookup (closingParen? · spot.stop) with
    | some close =>
      skipTo (close + 1)
      return some (← lookup (slice · spot.stop close))
    | none => return none
  else return none

def newTable? : Walk (Option Statement) := do
  let some (schema, name) ← qualifiedName? | return none
  let some body ← groupInside? | return none
  return some (.create (← lookup fun _ => createdTable name schema body))

/-- What follows CREATE. -/
def createTable? : Walk (Option Statement) := do
  skipWords Reader.tableKinds
  unless ← eat .table do return none
  if ← eat .ifWord then
    let _ ← eat .not
    let _ ← eat .existsWord
  newTable?

def isAdd : Token → Bool
  | .keyword k _ => k = .add
  | _ => false

/-- The clause behind ADD, up to the end of the statement. -/
def added? : Walk (Option Text) := do
  let spot ← current
  if spot.token?.any isAdd then
    let stop ← lookup (statementEnd · spot.stop)
    skipTo stop
    return some (← lookup (slice · spot.stop stop))
  else return none

def addition? : Walk (Option Statement) := do
  let _ ← eat .only
  let some (_, table) ← qualifiedName? | return none
  return (← added?).map (.add table)

def alterTable? : Walk (Option Statement) := do
  unless ← eat .table do return none
  let _ ← eat .only
  if ← eat .ifWord then
    let _ ← eat .existsWord
  addition?

def statement? : Token → Walk (Option Statement)
  | .keyword .create _ => createTable?
  | .keyword .alter _ => alterTable?
  | _ => return none

def statements : Walk (List Statement) := collect fun _ => statement?

end Walk

/-- The schema that a script declares. -/
def extract (script : Text) : Checked Schema := do
  let statements ← Walk.result Walk.statements (stripComments script)
  let added ← select (fun
    | .create _ => return none
    | .add table clause => do return (← Walk.result Walk.tableConstraint? clause).map (table, ·))
    statements
  return {
    tables := added.foldl addConstraint ((createdTables statements).map (·.table))
    relationships := Text.firstOfEach Relationship.key
      ((createdTables statements).flatMap (·.relationships) ++
        added.filterMap fun (table, c) => c.relationship? table) }

theorem leadingName_result (segment : Text) :
    ∃ stop, Walk.result Walk.leadingName segment = .ok ((Reader.name? segment).1, stop) ∧
      ∀ name rest, Reader.name? segment = (some name, rest) → StartsAt segment stop rest := by
  obtain ⟨⟨name, pos⟩, walked, steps⟩ := Walk.Follows.name? segment 0 segment (.start segment)
  obtain rfl : name = (Reader.name? segment).1 := steps.1
  match taken : next? segment with
  | none =>
    obtain ⟨here, -⟩ := (Walk.At.start segment).ended taken
    have found : Walk.result Walk.leadingName segment =
        .ok ((Reader.name? segment).1, segment.byteLength) :=
      Walk.result_of ((Walk.bind_of here).trans (Walk.bind_of walked))
    refine ⟨_, found, ?_⟩
    intro name rest named
    rw [Reader.name?, Reader.take?, taken] at named
    cases named
  | some (l, rest) =>
    obtain ⟨start, stop, here, -, -, -, behind⟩ := (Walk.At.start segment).token taken
    refine ⟨stop, Walk.result_of ((Walk.bind_of here).trans (Walk.bind_of walked)), ?_⟩
    intro name left named
    rw [Reader.name?, Reader.take?, taken] at named
    dsimp only at named
    cases word : l.token.asName? with
    | none =>
      rw [word] at named
      cases named
    | some n =>
      rw [word] at named
      cases named
      exact behind

theorem column?_eq (segment : Text) : column? segment = .ok (Sql.column? segment) := by
  obtain ⟨nameEnd, led, place⟩ := leadingName_result segment
  rw [column?, led, ok_bind, Sql.column?]
  rcases named : Reader.name? segment with ⟨_ | name, rest⟩
  · rfl
  · have behind := place name rest named
    obtain ⟨type, matched, related⟩ := StartsAt.matchType? rest
    dsimp only
    rw [behind.sliceFrom, ok_bind, matched, ok_bind]
    cases known : columnType? rest with
    | none =>
      rw [known] at related
      cases related
      simp only [Option.map_none, Option.getD_none, Nat.add_zero, behind.sliceFrom, ok_bind,
        Walk.Tells.clauses.result]
      rfl
    | some t =>
      rw [known] at related
      cases related with
      | @some found _ related =>
        have modifiers := behind.trans related.2
        simp only [Option.map_some, Option.getD_some, modifiers.sliceFrom, ok_bind,
          Walk.Tells.clauses.result, related.1]
        rfl

theorem createdTable_eq (name : Text) (schema : Option Text) (body : Text) :
    createdTable name schema body = .ok (.ofBody name schema body) := by
  have kinds (wanted : SegmentKind) (segments : List Text) :
      select (fun s => do return if (← kind s) = wanted then some s else none) segments =
        .ok (segments.filter (SegmentKind.ofText · = wanted)) := by
    rw [← List.filterMap_eq_filter]
    refine select_eq (fun s => ?_) segments
    rw [kind, spots, checkSpots_spotsFrom (.start s), ok_bind]
    simp only [Option.guard, decide_eq_true_eq]
    rfl
  rw [createdTable, StartsAt.splitTopLevel, ok_bind]
  dsimp only
  rw [kinds, ok_bind, select_eq column?_eq, ok_bind, kinds, ok_bind,
    select_eq Walk.Tells.tableConstraint?.result]
  rfl

namespace Walk

namespace Follows

theorem groupInside? : Follows Walk.groupInside? Reader.groupInside? := by
  intro text pos t place
  rw [Reader.groupInside?]
  have origin := grouped t
  generalize Reader.group t = group at origin
  cases origin with
  | absent other =>
    obtain ⟨spot, here, unopened⟩ := place.other other
    rw [Walk.groupInside?, bind_of here, if_neg unopened]
    exact .pure (.refl none place)
  | unclosed taken never =>
    obtain ⟨start, here, ahead, next, -, inside⟩ := place.opening taken
    rw [Walk.groupInside?, bind_of here, if_pos rfl, bind_of ahead,
      bind_of (lookup_of inside.closingParen? _), never]
    exact .pure (.moved next (Nat.lt_succ_self pos))
  | @closed _ rest inside behind taken close =>
    obtain ⟨start, here, ahead, next, -, first⟩ := place.opening taken
    have whole : inside ++ ([')'] ++ behind) = rest := by
      simp [← Scan.close?_append close]
    have same := SameEnd.front (start + 1) (a := inside ++ [')']) (b := behind)
    rw [List.append_assoc, whole, Text.byteLength_append, ← Nat.add_assoc,
      List.length_append] at same
    have skipped := skipTo_gives next first same
    rw [Walk.groupInside?, bind_of here, if_pos rfl, bind_of ahead,
      bind_of (lookup_of first.closingParen? _), close]
    refine .bind skipped ?_
    rintro ⟨_, stop⟩ steps
    rw [← whole] at first
    refine .next (lookup_of first.slice stop) (.pure ?_)
    exact Steps.after (Nat.lt_succ_self pos) ⟨rfl, steps.2⟩

theorem newTable? : Follows Walk.newTable? Reader.newTable? := by
  refine .bind .qualifiedName? fun name => ?_
  cases name with
  | none => exact .pure _
  | some name =>
    refine .bind groupInside? fun body => ?_
    cases body with
    | none => exact .pure _
    | some body =>
      exact .bind (.lookup fun _ => createdTable_eq name.2 name.1 body) fun _ => .pure _

theorem createTable? : Follows Walk.createTable? Reader.createTable? := by
  refine .bind (.skipWords _) fun _ => .bind (.eat _) fun table => ?_
  cases table with
  | false => exact .pure _
  | true =>
    refine .bind (.eat _) fun if' => ?_
    cases if' with
    | false => exact newTable?
    | true => exact .bind (.eat _) fun _ => .bind (.eat _) fun _ => newTable?

theorem added? : Follows Walk.added? (do
    unless ← Reader.eat .add do return none
    return some (← Reader.statementRest)) := by
  intro text pos t place
  match taken : next? t with
  | none =>
    have missing : Reader.eat .add t = (false, t) := by rw [Reader.eat, eatIf_eq, taken]
    rw [Reader.bind_of missing, Walk.added?, bind_of (place.ended taken).1]
    exact .pure (.refl none place)
  | some (l, rest) =>
    obtain ⟨start, stop, here, -, -, -, behind⟩ := place.token taken
    have eaten : Reader.eat .add t = if isAdd l.token then (true, rest) else (false, t) := by
      rw [Reader.eat, eatIf_eq, taken]
      dsimp only
      cases l.token <;> rfl
    rw [Walk.added?, bind_of here]
    simp only [Option.any_some]
    by_cases add : isAdd l.token
    · rw [if_pos add] at eaten
      have ends := behind.statementEnd
      have whole := Scan.statement_append .start rest
      have skipped := skipTo_behind place (by rw [whole]; exact taken) (by rw [whole]; exact behind)
      rw [whole] at skipped
      rw [Reader.bind_of eaten, if_pos add, bind_of (lookup_of ends pos)]
      refine .bind skipped ?_
      rintro ⟨_, left⟩ steps
      rw [← whole] at behind
      exact .next (lookup_of behind.slice left) (.pure ⟨rfl, steps.2⟩)
    · rw [if_neg add] at eaten
      rw [Reader.bind_of eaten, if_neg add]
      exact .pure (.refl none place)

theorem addition? : Follows Walk.addition? Reader.addition? := by
  refine .bind (.eat _) fun _ => .bind .qualifiedName? fun name => ?_
  cases name with
  | none => exact .pure _
  | some name =>
    refine .congr (.bind added? fun _ => .pure _) fun t => ?_
    simp only [Reader.bind_apply]
    cases (Reader.eat .add t).1 <;> rfl

theorem alterTable? : Follows Walk.alterTable? Reader.alterTable? := by
  refine .bind (.eat _) fun table => ?_
  cases table with
  | false => exact .pure _
  | true =>
    refine .bind (.eat _) fun _ => .bind (.eat _) fun if' => ?_
    cases if' with
    | false => exact addition?
    | true => exact .bind (.eat _) fun _ => addition?

theorem statement? (token : Token) : Follows (Walk.statement? token) (Reader.statement? token) := by
  cases token with
  | keyword k spelled =>
    cases k with
    | create => exact createTable?
    | alter => exact alterTable?
    | _ => exact .pure _
  | _ => exact .pure _

end Follows

theorem Tells.statements : Tells Walk.statements Reader.statements := by
  refine .collect Reader.Shrinks.statement?
    (fun text pos _ t place _ token => Follows.statement? token text pos t place) fun t => ?_
  rw [Reader.statements]
  split
  · next ended => rw [ended]
  · next taken => rw [taken]

end Walk

/-- Extraction never faults: whatever the script, every offset is one between characters, every
position is one of a token, and every loop moves on. What comes out is the schema. -/
theorem extract_faultless (script : Text) : extract script = .ok (Sql.extract script) := by
  have constraints (statements : List Statement) : select (fun
      | .create _ => return none
      | .add table clause => do return (← Walk.result Walk.tableConstraint? clause).map (table, ·))
      statements = .ok (addedConstraints statements) := by
    refine select_eq (fun s => ?_) statements
    cases s with
    | create created => rfl
    | add table clause => simp only [Walk.Tells.tableConstraint?.result]; rfl
  rw [extract, Walk.Tells.statements.result, ok_bind, constraints]
  rfl

end SchemaDiagram.Sql.Checked
