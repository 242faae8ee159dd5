import SchemaDiagram.Proofs.Sql.Declared

/-!
# Identities in a schema

A name stands for one table of a schema and for one column of a table, and two ends with their
columns for one relationship. Where a script declares one of these twice the first declaration is
kept, and what constraints do to a table afterwards changes neither its name nor its columns' names.
-/

namespace SchemaDiagram

/-- Nothing is in the schema twice, whatever the case of its letters. -/
structure Schema.Distinct (s : Schema) : Prop where
  tables : s.tables.Pairwise fun t u => ¬ Text.SameName t.name u.name
  columns : ∀ t ∈ s.tables, t.columns.Pairwise fun c d => ¬ Text.SameName c.name d.name
  relationships : s.relationships.Pairwise fun r q => ¬ r.Same q

namespace RelationshipKind

theorem ofColumnCount_eq_manyToMany {n : Nat} : ofColumnCount n = manyToMany ↔ 1 < n := by
  by_cases h : 1 < n <;> simp [ofColumnCount, h]

theorem ofColumnCount_eq_manyToOne {n : Nat} : ofColumnCount n = manyToOne ↔ n ≤ 1 := by
  by_cases h : 1 < n
  · simp [ofColumnCount, h]
  · simp [ofColumnCount, Nat.le_of_not_lt h]

end RelationshipKind

namespace Column

theorem map_name_of_within {cs ds : List Column} (h : List.Forall₂ Within cs ds) :
    ds.map (·.name) = cs.map (·.name) := by
  induction h with
  | nil => rfl
  | cons within _ ih => rw [List.map_cons, List.map_cons, within.name, ih]

theorem pairwise_of_within {cs ds : List Column} (h : List.Forall₂ Within cs ds)
    (apart : cs.Pairwise fun c d => ¬ Text.SameName c.name d.name) :
    ds.Pairwise fun c d => ¬ Text.SameName c.name d.name := by
  have names : (cs.map (·.name)).Pairwise fun a b => ¬ Text.SameName a b :=
    List.pairwise_map.2 apart
  rw [← map_name_of_within h] at names
  exact List.pairwise_map.1 names

end Column

namespace Sql

def everyColumn (body : Text) : List Column :=
  ((segments body).filter (SegmentKind.ofText · = .column)).filterMap column?

def everyTable (statements : List Statement) : List CreatedTable :=
  statements.filterMap fun
    | .create created => some created
    | .add _ _ => none

/-- The table is the one that was created from some body. Its columns are the first ones of each
name in that body, and they say all that was said there. -/
structure Keeps (created : CreatedTable) (t : Table) : Prop where
  ofBody : ∃ name schema body, created = .ofBody name schema body
  first : ∀ name schema body, created = .ofBody name schema body →
    t.name = name ∧ t.schema = schema ∧
      List.Forall₂ Column.Within
        (withoutRepeats (fun c d => Text.SameName c.name d.name) (everyColumn body)) t.columns

theorem bodyColumns_eq_withoutRepeats (body : Text) :
    bodyColumns body =
      withoutRepeats (fun c d => Text.SameName c.name d.name) (everyColumn body) :=
  Text.firstOfEach_eq_withoutRepeats _

theorem createdTables_eq_withoutRepeats (statements : List Statement) :
    createdTables statements =
      withoutRepeats (fun a b => Text.SameName a.table.name b.table.name) (everyTable statements) :=
  Text.firstOfEach_eq_withoutRepeats _

theorem pairwise_bodyColumns (body : Text) :
    (bodyColumns body).Pairwise fun c d => ¬ Text.SameName c.name d.name :=
  Text.pairwise_firstOfEach _

/-- The constraints of the body and those added later are put on one after the other. -/
theorem within_altered_ofBody (statements : List Statement) (name : Text) (schema : Option Text)
    (body : Text) :
    Table.Within { name, schema, columns := bodyColumns body }
      (altered statements (CreatedTable.ofBody name schema body).table) := by
  rw [altered, CreatedTable.table_ofBody, ← List.foldl_append]
  exact Table.within_foldl_constrain _ _

theorem keeps_altered (statements : List Statement) {created : CreatedTable}
    (h : ∃ name schema body, created = .ofBody name schema body) :
    Keeps created (altered statements created.table) := by
  refine ⟨h, ?_⟩
  rintro name schema body rfl
  have within := within_altered_ofBody statements name schema body
  exact ⟨within.name, within.schema, bodyColumns_eq_withoutRepeats body ▸ within.columns⟩

theorem Keeps.pairwise {created : CreatedTable} {t : Table} (h : Keeps created t) :
    t.columns.Pairwise fun c d => ¬ Text.SameName c.name d.name := by
  obtain ⟨name, schema, body, origin⟩ := h.ofBody
  obtain ⟨-, -, columns⟩ := h.first name schema body origin
  rw [← bodyColumns_eq_withoutRepeats] at columns
  exact Column.pairwise_of_within columns (pairwise_bodyColumns body)

theorem forall₂_keeps (script : Text) :
    let statements := Reader.statements script
    List.Forall₂ Keeps (createdTables statements) (schemaOf statements).tables := by
  intro statements
  rw [tables_schemaOf, List.forall₂_map_right_iff, List.forall₂_same]
  exact fun created h => keeps_altered statements (ofBody_createdTables h)

theorem pairwise_tables_schemaOf (statements : List Statement) :
    (schemaOf statements).tables.Pairwise fun t u => ¬ Text.SameName t.name u.name := by
  have apart : (createdTables statements).Pairwise fun a b =>
      ¬ Text.SameName a.table.name b.table.name := Text.pairwise_firstOfEach _
  rw [tables_schemaOf, List.pairwise_map]
  refine apart.imp fun {a b} differ => ?_
  rw [name_altered, name_altered]
  exact differ

/-- Relationships that agree have one key, and one of each key is kept. -/
theorem pairwise_relationships_schemaOf (statements : List Statement) :
    (schemaOf statements).relationships.Pairwise fun r q => ¬ r.Same q := by
  have keys : (schemaOf statements).relationships.Pairwise fun r q => r.key ≠ q.key :=
    Text.pairwise_firstOfEach _
  exact keys.imp fun differ same => differ (Relationship.key_of_same same)

theorem distinct_schemaOf (script : Text) : (schemaOf (Reader.statements script)).Distinct where
  tables := pairwise_tables_schemaOf _
  columns t ht := by
    rw [tables_schemaOf] at ht
    obtain ⟨created, hc, rfl⟩ := List.mem_map.1 ht
    exact (keeps_altered _ (ofBody_createdTables hc)).pairwise
  relationships := pairwise_relationships_schemaOf _

theorem hasColumns_relationships {script : Text} {r : Relationship}
    (h : r ∈ (schemaOf (Reader.statements script)).relationships) : r.HasColumns :=
  hasColumns_declared ((Text.firstOfEach_sublist _).subset h)

/-- What is extracted has no repeats. Of several tables of one name the first one is kept, of
several columns of one name in a table the first one too, both in the order of their declaration;
and a relationship is many-to-many exactly if it starts from more than one column. -/
theorem extract_distinct (script : Text) :
    let statements := Reader.statements (stripComments script)
    (extract script).Distinct ∧
      List.Forall₂ Keeps
        (withoutRepeats (fun a b => Text.SameName a.table.name b.table.name)
          (everyTable statements))
        (extract script).tables ∧
      ∀ r ∈ (extract script).relationships,
        (r.kind = .manyToMany ↔ 1 < r.source.columns.length) ∧
          (r.kind = .manyToOne ↔ r.source.columns.length = 1) := by
  intro statements
  refine ⟨distinct_schemaOf _, ?_, fun r hr => ?_⟩
  · rw [← createdTables_eq_withoutRepeats]
    exact forall₂_keeps (stripComments script)
  · have some : 0 < r.source.columns.length :=
      List.length_pos_iff.2 (hasColumns_relationships hr).1
    constructor
    · exact RelationshipKind.ofColumnCount_eq_manyToMany
    · rw [Relationship.kind, RelationshipKind.ofColumnCount_eq_manyToOne]
      omega

end Sql

end SchemaDiagram
