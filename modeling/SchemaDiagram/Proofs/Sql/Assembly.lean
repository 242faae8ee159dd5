import Mathlib.Data.List.Forall2
import SchemaDiagram.Proofs.Repeats
import SchemaDiagram.Sql.Script

/-!
# From statements to tables

What a constraint says about its table it says about each column apart, and what statements add
concerns each table apart. So every table of a schema is one created table, with the constraints
that were added under its name put on in their order.
-/

namespace SchemaDiagram

/-- The column in a table that has the constraint. -/
def Column.constrain (c : Column) (k : Constraint) : Column :=
  match k with
  | .primaryKey _ names =>
    if Text.isAmong c.name names then { c with isPrimaryKey := true, isNotNull := true } else c
  | .unique _ names => if Text.isAmong c.name names then { c with isUnique := true } else c
  | .foreignKey _ names refTable refColumns _ _ =>
    if Text.isAmong c.name names then
      { c with foreignKey := some ⟨refTable, referencedColumn refColumns⟩ }
    else c
  | .check _ _ => c

theorem Table.constrain_eq (t : Table) (k : Constraint) :
    t.constrain k =
      { t with columns := t.columns.map (·.constrain k), constraints := t.constraints ++ [k] } := by
  have same : t.columns.map (fun c => c) = t.columns := List.map_id' _
  cases k <;> simp [constrain, mark, updateColumns, Column.constrain, same]

theorem Table.foldl_constrain (t : Table) (ks : List Constraint) :
    ks.foldl constrain t =
      { t with
        columns := t.columns.map fun c => ks.foldl Column.constrain c
        constraints := t.constraints ++ ks } := by
  induction ks generalizing t with
  | nil => simp
  | cons k ks ih =>
    rw [List.foldl_cons, ih, constrain_eq]
    simp [Function.comp_def]

theorem Table.name_foldl_constrain (t : Table) (ks : List Constraint) :
    (ks.foldl constrain t).name = t.name := by
  rw [foldl_constrain]

/-- The second column says all that the first one says; it may be marked further, and its foreign
key may point elsewhere. -/
structure Column.Within (c d : Column) : Prop where
  name : d.name = c.name
  type : d.type = c.type
  defaultValue : d.defaultValue = c.defaultValue
  checkExpression : d.checkExpression = c.checkExpression
  primaryKey : c.isPrimaryKey → d.isPrimaryKey
  unique : c.isUnique → d.isUnique
  notNull : c.isNotNull → d.isNotNull
  autoIncrement : c.isAutoIncrement → d.isAutoIncrement
  foreignKey : c.foreignKey.isSome → d.foreignKey.isSome

namespace Column

theorem Within.refl (c : Column) : c.Within c := ⟨rfl, rfl, rfl, rfl, id, id, id, id, id⟩

theorem Within.trans {a b c : Column} (h : a.Within b) (k : b.Within c) : a.Within c where
  name := k.name.trans h.name
  type := k.type.trans h.type
  defaultValue := k.defaultValue.trans h.defaultValue
  checkExpression := k.checkExpression.trans h.checkExpression
  primaryKey := k.primaryKey ∘ h.primaryKey
  unique := k.unique ∘ h.unique
  notNull := k.notNull ∘ h.notNull
  autoIncrement := k.autoIncrement ∘ h.autoIncrement
  foreignKey := k.foreignKey ∘ h.foreignKey

theorem within_constrain (c : Column) (k : Constraint) : c.Within (c.constrain k) := by
  cases k <;> simp only [constrain] <;> (try split) <;> constructor <;> simp

theorem within_foldl_constrain (c : Column) (ks : List Constraint) :
    c.Within (ks.foldl constrain c) := by
  induction ks generalizing c with
  | nil => exact .refl c
  | cons k ks ih => exact (c.within_constrain k).trans (ih _)

theorem Within.constrain {c d : Column} (h : c.Within d) (k : Constraint) :
    (c.constrain k).Within (d.constrain k) := by
  obtain ⟨name, type, defaultValue, checkExpression, primaryKey, unique, notNull, autoIncrement,
    foreignKey⟩ := h
  cases k <;> simp only [Column.constrain, name] <;> (try split) <;> constructor <;> simp_all

theorem Within.foldl_constrain {c d : Column} (h : c.Within d) (ks : List Constraint) :
    (ks.foldl Column.constrain c).Within (ks.foldl Column.constrain d) := by
  induction ks generalizing c d with
  | nil => exact h
  | cons k ks ih => exact ih (h.constrain k)

end Column

/-- The second table says all that the first one says. -/
structure Table.Within (t u : Table) : Prop where
  name : u.name = t.name
  schema : u.schema = t.schema
  columns : List.Forall₂ Column.Within t.columns u.columns
  constraints : t.constraints.Sublist u.constraints

theorem Table.Within.foldl_constrain {t u : Table} (h : t.Within u) (ks : List Constraint) :
    (ks.foldl constrain t).Within (ks.foldl constrain u) := by
  rw [Table.foldl_constrain, Table.foldl_constrain]
  refine ⟨h.name, h.schema, ?_, h.constraints.append_right ks⟩
  refine List.forall₂_map_left_iff.2 (List.forall₂_map_right_iff.2 (h.columns.imp ?_))
  exact fun c d within => within.foldl_constrain ks

theorem Table.within_foldl_constrain (t : Table) (ks : List Constraint) :
    t.Within (ks.foldl constrain t) := by
  rw [foldl_constrain]
  refine ⟨rfl, rfl, ?_, List.sublist_append_left _ _⟩
  exact List.forall₂_map_right_iff.2 (List.forall₂_same.2 fun c _ => c.within_foldl_constrain ks)

namespace Sql

def constraintsFor (name : Text) (added : List (Text × Constraint)) : List Constraint :=
  (added.filter (Text.SameName name ·.1)).map (·.2)

theorem constraintsFor_append (name : Text) (a b : List (Text × Constraint)) :
    constraintsFor name (a ++ b) = constraintsFor name a ++ constraintsFor name b := by
  simp [constraintsFor]

/-- The tables' names differ, whatever the case of their letters. -/
def NamesApart (tables : List Table) : Prop := (tables.map (Text.lower ·.name)).Nodup

theorem addConstraint_eq {tables : List Table} (apart : NamesApart tables)
    (added : Text × Constraint) :
    addConstraint tables added =
      tables.map fun t => if Text.SameName t.name added.1 then t.constrain added.2 else t := by
  induction tables with
  | nil => rfl
  | cons t tables ih =>
    rw [NamesApart, List.map_cons, List.nodup_cons] at apart
    rw [addConstraint, List.map_cons]
    split
    · next named =>
      have others : ∀ u ∈ tables, ¬ Text.SameName u.name added.1 := fun u hu same =>
        apart.1 (List.mem_map.2 ⟨u, hu, same.trans named.symm⟩)
      have unchanged : (tables.map fun u =>
          if Text.SameName u.name added.1 then u.constrain added.2 else u) = tables := by
        conv_rhs => rw [← List.map_id tables]
        exact List.map_congr_left fun u hu => if_neg (others u hu)
      rw [unchanged]
    · rw [ih apart.2]

theorem foldl_addConstraint {tables : List Table} (apart : NamesApart tables)
    (added : List (Text × Constraint)) :
    added.foldl addConstraint tables =
      tables.map fun t => (constraintsFor t.name added).foldl Table.constrain t := by
  induction added generalizing tables with
  | nil => simp [constraintsFor]
  | cons a added ih =>
    have step (t : Table) : (constraintsFor t.name (a :: added)).foldl Table.constrain t =
        (constraintsFor t.name added).foldl Table.constrain
          (if Text.SameName t.name a.1 then t.constrain a.2 else t) := by
      by_cases named : Text.SameName t.name a.1 <;> simp [constraintsFor, named]
    have name (t : Table) :
        (if Text.SameName t.name a.1 then t.constrain a.2 else t).name = t.name := by
      split
      · rw [Table.constrain_eq]
      · rfl
    have apart' : NamesApart (addConstraint tables a) := by
      rw [NamesApart, addConstraint_eq apart, List.map_map]
      simp only [Function.comp_def, name]
      exact apart
    rw [List.foldl_cons, ih apart', addConstraint_eq apart, List.map_map]
    simp only [Function.comp_def, name, step]

theorem namesApart_createdTables (statements : List Statement) :
    NamesApart ((createdTables statements).map (·.table)) := by
  rw [NamesApart, List.map_map]
  exact Text.nodup_firstOfEach _

def altered (statements : List Statement) (t : Table) : Table :=
  (constraintsFor t.name (addedConstraints statements)).foldl Table.constrain t

theorem name_altered (statements : List Statement) (t : Table) :
    (altered statements t).name = t.name :=
  t.name_foldl_constrain _

theorem within_altered (statements : List Statement) (t : Table) :
    t.Within (altered statements t) :=
  t.within_foldl_constrain _

theorem altered_mono {t u : Table} (h : t.Within u) (statements : List Statement) :
    (altered statements t).Within (altered statements u) := by
  rw [altered, altered, h.name]
  exact h.foldl_constrain _

theorem altered_append (a b : List Statement) (t : Table) :
    altered (a ++ b) t = altered b (altered a t) := by
  have both : addedConstraints (a ++ b) = addedConstraints a ++ addedConstraints b :=
    List.filterMap_append
  rw [altered, both, constraintsFor_append, List.foldl_append]
  conv_rhs => rw [altered, name_altered]
  rfl

/-- Every table of a schema is one that was created, with the constraints added under its name. -/
theorem tables_schemaOf (statements : List Statement) :
    (schemaOf statements).tables =
      (createdTables statements).map fun created => altered statements created.table := by
  rw [schemaOf, foldl_addConstraint (namesApart_createdTables statements), List.map_map]
  rfl

def bodyColumns (body : Text) : List Column :=
  Text.firstOfEach (Text.lower ·.name)
    (((segments body).filter (SegmentKind.ofText · = .column)).filterMap column?)

def bodyConstraints (body : Text) : List Constraint :=
  ((segments body).filter (SegmentKind.ofText · = .constraint)).filterMap fun s =>
    (Reader.tableConstraint? s).1

theorem CreatedTable.table_ofBody (name : Text) (schema : Option Text) (body : Text) :
    (ofBody name schema body).table =
      (bodyConstraints body).foldl Table.constrain { name, schema, columns := bodyColumns body } :=
  rfl

theorem CreatedTable.relationships_ofBody (name : Text) (schema : Option Text) (body : Text) :
    (ofBody name schema body).relationships =
      (bodyColumns body).filterMap (columnRelationship? name) ++
        (bodyConstraints body).filterMap (Constraint.relationship? name) :=
  rfl

theorem CreatedTable.name_ofBody (name : Text) (schema : Option Text) (body : Text) :
    (ofBody name schema body).table.name = name := by
  rw [table_ofBody, Table.name_foldl_constrain]

end Sql

theorem Constraint.source_of_relationship? {k : Constraint} {table : Text} {r : Relationship}
    (h : k.relationship? table = some r) : r.source.table = table := by
  cases k with
  | foreignKey =>
    obtain rfl := Option.some_inj.1 h
    rfl
  | _ => simp [relationship?] at h

namespace Sql

theorem source_of_columnRelationship? {c : Column} {table : Text} {r : Relationship}
    (h : columnRelationship? table c = some r) : r.source.table = table := by
  obtain ⟨fk, -, rfl⟩ := Option.map_eq_some_iff.1 h
  rfl

theorem CreatedTable.source_ofBody {name body : Text} {schema : Option Text} {r : Relationship}
    (h : r ∈ (ofBody name schema body).relationships) : r.source.table = name := by
  rw [relationships_ofBody, List.mem_append] at h
  rcases h with h | h
  · obtain ⟨c, -, hc⟩ := List.mem_filterMap.1 h
    exact source_of_columnRelationship? hc
  · obtain ⟨k, -, hk⟩ := List.mem_filterMap.1 h
    exact Constraint.source_of_relationship? hk

end Sql

end SchemaDiagram
