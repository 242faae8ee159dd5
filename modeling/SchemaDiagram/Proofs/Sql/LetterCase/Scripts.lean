import SchemaDiagram.Proofs.Sql.LetterCase.Bodies

/-!
# Scripts and letter case

A script in lower case declares the schema of the script in lower case. So scripts that differ in
the case of letters only declare schemas that differ in the case of letters only.
-/

namespace SchemaDiagram.Sql

open Text (lower)

def Statement.lowered : Statement → Statement
  | create created => create created.lowered
  | add table clause => add (lower table) (lower clause)

namespace Reader

theorem Folds.groupInside? : Folds (Option.map lower) groupInside? groupInside? := by
  intro t
  rw [Reader.groupInside?, group_lower, Reader.groupInside?]
  cases group t <;> rfl

theorem Folds.newTable? : Folds (Option.map Statement.lowered) newTable? newTable? := by
  refine .bind .qualifiedName? fun name => ?_
  rcases name with _ | ⟨schema, name⟩
  · exact .pure _
  · refine .bind .groupInside? fun body => ?_
    cases body with
    | none => exact .pure _
    | some body =>
      intro t
      exact congrArg (fun created => (some (Statement.create created), lower t))
        (CreatedTable.ofBody_lower name schema body)

theorem Folds.createTable? : Folds (Option.map Statement.lowered) createTable? createTable? := by
  refine .bind (.skipWords _) fun _ => .bind (.eat _) fun isTable => ?_
  cases isTable
  · exact .pure _
  · refine .bind (.eat _) fun guarded => ?_
    cases guarded
    · exact .newTable?
    · exact .bind (.eat _) fun _ => .bind (.eat _) fun _ => .newTable?

theorem Folds.statementRest : Folds lower statementRest statementRest := by
  intro t
  have rest : (Scan.start.statement (lower t)).1 = lower (Scan.start.statement t).1 := by
    rw [Scan.statement_lower Scan.inQuotes_start]
    rfl
  simp only [Reader.statementRest, rest, Text.length_lower, skipPast_lower, Prod.map]

theorem Folds.addition? : Folds (Option.map Statement.lowered) addition? addition? := by
  refine .bind (.eat _) fun _ => .bind .qualifiedName? fun name => ?_
  cases name
  · exact .pure _
  · refine .bind (.eat _) fun adds => ?_
    cases adds
    · exact .pure _
    · exact .bind .statementRest fun _ => .pure _

theorem Folds.alterTable? : Folds (Option.map Statement.lowered) alterTable? alterTable? := by
  refine .bind (.eat _) fun isTable => ?_
  cases isTable
  · exact .pure _
  · refine .bind (.eat _) fun _ => .bind (.eat _) fun guarded => ?_
    cases guarded
    · exact .addition?
    · exact .bind (.eat _) fun _ => .addition?

theorem Folds.statement? (token : Token) :
    Folds (Option.map Statement.lowered) (statement? token) (statement? token.lowered) := by
  cases token with
  | keyword k spelled =>
    cases k with
    | create => exact .createTable?
    | alter => exact .alterTable?
    | _ => exact .pure _
  | _ => exact .pure _

theorem statements_lower (t : Text) :
    statements (lower t) = (statements t).map Statement.lowered := by
  fun_induction statements t with
  | case1 t ended =>
    rw [statements_eq, firstToken?_lower_of_end ended]
    rfl
  | case2 t l rest next taken ih =>
    rw [statements_eq, firstToken?_lower_of_next? next]
    simp only [Folds.statement? l.token rest, Prod.map, List.map_append]
    rw [ih]
    cases taken.1 <;> rfl

end Reader

theorem createdTables_lowered (statements : List Statement) :
    createdTables (statements.map Statement.lowered) =
      (createdTables statements).map CreatedTable.lowered := by
  have key : (fun c => lower c.table.name) ∘ CreatedTable.lowered = fun c => lower c.table.name :=
    funext fun c => Text.lower_lower c.table.name
  rw [createdTables, List.filterMap_map, createdTables, ← key, ← Text.firstOfEach_map,
    List.map_filterMap, key]
  congr 2
  funext statement
  cases statement <;> rfl

theorem addedConstraints_lowered (statements : List Statement) :
    addedConstraints (statements.map Statement.lowered) =
      (addedConstraints statements).map (Prod.map lower Constraint.lowered) := by
  rw [addedConstraints, addedConstraints, List.filterMap_map, List.map_filterMap]
  congr 1
  funext statement
  cases statement with
  | create => rfl
  | add table clause =>
    simp only [Function.comp_apply, Statement.lowered, Reader.Folds.tableConstraint? clause,
      Prod.map, Option.map_map]
    rfl

theorem addConstraint_lowered (tables : List Table) (added : Text × Constraint) :
    addConstraint (tables.map (Table.lowered id)) (Prod.map lower Constraint.lowered added) =
      (addConstraint tables added).map (Table.lowered id) := by
  induction tables with
  | nil => rfl
  | cons t tables ih =>
    have named :
        Text.SameName (t.lowered id).name (lower added.1) ↔ Text.SameName t.name added.1 :=
      Text.sameName_lower t.name added.1
    simp only [List.map_cons, addConstraint, Prod.map, named, Table.constrain_lowered]
    split
    · rfl
    · exact congrArg ((t.lowered id) :: ·) ih

theorem declaredRelationships_lowered (statements : List Statement) :
    declaredRelationships (statements.map Statement.lowered) =
      (declaredRelationships statements).map Relationship.lowered := by
  rw [declaredRelationships, createdTables_lowered, addedConstraints_lowered,
    declaredRelationships, List.map_append, List.flatMap_map, List.map_flatMap,
    List.filterMap_map, List.map_filterMap]
  congr 2
  funext added
  exact Constraint.relationship?_lowered added.1 added.2

theorem schemaOf_lowered (statements : List Statement) :
    schemaOf (statements.map Statement.lowered) = (schemaOf statements).lowered id := by
  have created : (createdTables (statements.map Statement.lowered)).map (·.table) =
      ((createdTables statements).map (·.table)).map (Table.lowered id) := by
    rw [createdTables_lowered, List.map_map, List.map_map]
    rfl
  have key : Relationship.key ∘ Relationship.lowered = Relationship.key :=
    funext Relationship.key_lowered
  rw [schemaOf, created, addedConstraints_lowered, List.foldl_map, declaredRelationships_lowered,
    Text.firstOfEach_map, key, schemaOf, Schema.lowered]
  rw [List.foldl_hom (List.map (Table.lowered id)) addConstraint_lowered]

/-- A script in lower case declares the same schema in lower case, the types as they were. -/
theorem extract_lower (s : Text) : extract (lower s) = (extract s).lowered id := by
  rw [extract, stripComments_lower, Reader.statements_lower, schemaOf_lowered, extract]

/-- Scripts that differ in the case of letters only declare schemas that do so too. -/
theorem extract_sameName {s s' : Text} (h : Text.SameName s s') :
    (extract s).lowered lower = (extract s').lowered lower := by
  have lowered (t : Text) : (extract t).lowered lower = (extract (lower t)).lowered lower := by
    rw [extract_lower, Schema.lowered_lowered, Function.comp_id]
  rw [lowered s, h, ← lowered s']

def mixedScript : Text :=
  Text.ofString "CREATE TABLE Item (Note varChar(8) DEFAULT 'Old' UNIQUE, " ++
    Text.ofString "box INT references Box)"

def mixedScript' : Text :=
  Text.ofString "create table ITEM (nOTE VARchar(8) default 'oLD' unique, " ++
    Text.ofString "BOX Int References bOX)"

theorem extract_mixedScript_sameName :
    Text.SameName mixedScript mixedScript' ∧ extract mixedScript ≠ extract mixedScript' ∧
      (extract mixedScript).lowered lower = (extract mixedScript').lowered lower := by
  have same : Text.SameName mixedScript mixedScript' := by decide +kernel
  exact ⟨same, by decide +kernel, extract_sameName same⟩

end SchemaDiagram.Sql
