import SchemaDiagram.Proofs.LetterCase
import SchemaDiagram.Proofs.RelationshipKey
import SchemaDiagram.Proofs.Sql.Assembly

/-!
# Schemas in lower case

Constraints find the columns they name, and relationships have the keys they have, whether or not
their letters are made small first.
-/

namespace SchemaDiagram

open Text (lower)

def ForeignKey.lowered (k : ForeignKey) : ForeignKey := ⟨lower k.table, lower k.column⟩

def Constraint.lowered : Constraint → Constraint
  | primaryKey name columns => primaryKey (name.map lower) (columns.map lower)
  | unique name columns => unique (name.map lower) (columns.map lower)
  | foreignKey name columns refTable refColumns onDelete onUpdate =>
    foreignKey (name.map lower) (columns.map lower) (lower refTable) (refColumns.map lower) onDelete
      onUpdate
  | check name expression => check (name.map lower) (lower expression)

def Relationship.lowered (r : Relationship) : Relationship := { r.lower with name := r.name.lower }

section

variable (type : Text → Text)

def Column.lowered (c : Column) : Column :=
  { c with
    name := lower c.name
    type := type c.type
    defaultValue := c.defaultValue.map lower
    checkExpression := c.checkExpression.map lower
    foreignKey := c.foreignKey.map ForeignKey.lowered }

def Table.lowered (t : Table) : Table where
  name := lower t.name
  schema := t.schema.map lower
  columns := t.columns.map (Column.lowered type)
  constraints := t.constraints.map Constraint.lowered

/-- The schema with every text in it in lower case, except that types become what `type` says. -/
def Schema.lowered (s : Schema) : Schema where
  tables := s.tables.map (Table.lowered type)
  relationships := s.relationships.map Relationship.lowered

end

variable {type : Text → Text}

theorem ForeignKey.lowered_lowered (k : ForeignKey) : k.lowered.lowered = k.lowered := by
  simp [lowered, Text.lower_lower]

theorem Constraint.lowered_lowered (k : Constraint) : k.lowered.lowered = k.lowered := by
  cases k <;> simp [lowered, Function.comp_def, Text.lower_lower]

theorem Relationship.lowered_lowered (r : Relationship) : r.lowered.lowered = r.lowered := by
  simp [lowered, lower, Endpoint.lower, Function.comp_def, Text.lower_lower]

theorem Column.lowered_lowered (c : Column) (f g : Text → Text) :
    (c.lowered f).lowered g = c.lowered (g ∘ f) := by
  simp [lowered, Function.comp_def, Text.lower_lower, ForeignKey.lowered_lowered]

theorem Table.lowered_lowered (t : Table) (f g : Text → Text) :
    (t.lowered f).lowered g = t.lowered (g ∘ f) := by
  simp [lowered, Function.comp_def, Text.lower_lower, Column.lowered_lowered,
    Constraint.lowered_lowered]

theorem Schema.lowered_lowered (s : Schema) (f g : Text → Text) :
    (s.lowered f).lowered g = s.lowered (g ∘ f) := by
  simp [lowered, Function.comp_def, Table.lowered_lowered, Relationship.lowered_lowered]

theorem referencedColumn_lower (columns : List Text) :
    referencedColumn (columns.map lower) = lower (referencedColumn columns) := by
  cases columns <;> rfl

theorem Column.constrain_lowered (c : Column) (k : Constraint) :
    (c.lowered type).constrain k.lowered = (c.constrain k).lowered type := by
  cases k with
  | check => rfl
  | primaryKey _ names | unique _ names =>
    simp only [constrain, Constraint.lowered, lowered, Text.isAmong_lower]
    split <;> rfl
  | foreignKey _ names =>
    simp only [constrain, Constraint.lowered, lowered, Text.isAmong_lower, referencedColumn_lower]
    split <;> rfl

theorem Table.constrain_lowered (t : Table) (k : Constraint) :
    (t.lowered type).constrain k.lowered = (t.constrain k).lowered type := by
  rw [constrain_eq, constrain_eq]
  simp [lowered, Function.comp_def, Column.constrain_lowered]

theorem Table.foldl_constrain_lowered (t : Table) (ks : List Constraint) :
    (ks.map Constraint.lowered).foldl constrain (t.lowered type) =
      (ks.foldl constrain t).lowered type := by
  rw [List.foldl_map]
  exact List.foldl_hom (Table.lowered type) fun t k => t.constrain_lowered k

theorem Relationship.key_lowered (r : Relationship) : r.lowered.key = r.key := by
  rw [key_eq_label, key_eq_label]
  simp [lowered, lower, label, Endpoint.lower, Function.comp_def, Text.lower_lower]

theorem lower_ownName (table columns : Text) :
    lower (Text.ofString "fk_" ++ table ++ '_' :: columns) =
      Text.ofString "fk_" ++ lower table ++ '_' :: lower columns := by
  rw [Text.lower_append, Text.lower_append, Text.lower_cons]
  rfl

theorem Constraint.relationship?_lowered (table : Text) (k : Constraint) :
    k.lowered.relationship? (lower table) = (k.relationship? table).map Relationship.lowered := by
  cases k with
  | foreignKey name columns refTable refColumns onDelete onUpdate =>
    have joined : lower (Text.join ['_'] columns) = Text.join ['_'] (columns.map lower) :=
      Text.lower_join ['_'] columns
    cases name with
    | none =>
      simp only [relationship?, lowered, Option.map_none, Option.map_some, Option.getD_none,
        Relationship.lowered, Relationship.lower, Endpoint.lower, lower_ownName, joined]
    | some name => rfl
  | _ => rfl

end SchemaDiagram
