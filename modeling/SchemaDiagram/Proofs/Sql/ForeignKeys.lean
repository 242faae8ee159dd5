import SchemaDiagram.Proofs.Sql.Declared

/-!
# Foreign keys and relationships

The foreign key of a column is what the last relationship of its table says that names the column.
So each column that a relationship starts from has a foreign key, and each foreign key is the target
of a relationship.
-/

namespace SchemaDiagram

def Relationship.foreignKeyOf? (r : Relationship) (column : Text) : Option ForeignKey :=
  if Text.isAmong column r.source.columns then
    some ⟨r.target.table, referencedColumn r.target.columns⟩
  else none

def Constraint.foreignKeyOf? (k : Constraint) (column : Text) : Option ForeignKey :=
  (k.relationship? []).bind (·.foreignKeyOf? column)

theorem Constraint.foreignKeyOf?_eq (k : Constraint) (table column : Text) :
    k.foreignKeyOf? column = (k.relationship? table).bind (·.foreignKeyOf? column) := by
  cases k <;> rfl

theorem Column.foreignKey_constrain (c : Column) (k : Constraint) :
    (c.constrain k).foreignKey = (k.foreignKeyOf? c.name).or c.foreignKey := by
  cases k <;>
    simp only [constrain, Constraint.foreignKeyOf?, Constraint.relationship?,
      Relationship.foreignKeyOf?, Option.bind_some, Option.bind_none, Option.none_or]
  case foreignKey => split <;> rfl
  all_goals first | rfl | (split <;> rfl)

theorem Column.foreignKey_foldl_constrain (c : Column) (ks : List Constraint) :
    (ks.foldl constrain c).foreignKey =
      ((ks.filterMap (·.foreignKeyOf? c.name)).getLast?).or c.foreignKey := by
  induction ks generalizing c with
  | nil => rfl
  | cons k ks ih =>
    have name : (c.constrain k).name = c.name := (c.within_constrain k).name
    rw [List.foldl_cons, ih, name, foreignKey_constrain]
    rw [List.filterMap_cons]
    cases k.foreignKeyOf? c.name with
    | none => rfl
    | some fk =>
      change _ = ([fk] ++ ks.filterMap (·.foreignKeyOf? c.name)).getLast?.or c.foreignKey
      rw [List.getLast?_append, Option.or_assoc]
      rfl

def lastForeignKey? (rs : List Relationship) (column : Text) : Option ForeignKey :=
  (rs.filterMap (·.foreignKeyOf? column)).getLast?

theorem lastForeignKey?_append (rs ss : List Relationship) (column : Text) :
    lastForeignKey? (rs ++ ss) column =
      (lastForeignKey? ss column).or (lastForeignKey? rs column) := by
  rw [lastForeignKey?, List.filterMap_append, List.getLast?_append]
  rfl

theorem lastForeignKey?_constraints (ks : List Constraint) (table column : Text) :
    lastForeignKey? (ks.filterMap (·.relationship? table)) column =
      (ks.filterMap (·.foreignKeyOf? column)).getLast? := by
  rw [lastForeignKey?, List.filterMap_filterMap]
  simp only [Constraint.foreignKeyOf?_eq _ table]

theorem exists_of_lastForeignKey? {rs : List Relationship} {column : Text} {fk : ForeignKey}
    (h : lastForeignKey? rs column = some fk) : ∃ r ∈ rs, r.foreignKeyOf? column = some fk :=
  List.mem_filterMap.1 (List.mem_of_getLast? h)

theorem isSome_lastForeignKey? {rs : List Relationship} {r : Relationship} (hr : r ∈ rs)
    {column : Text} (h : (r.foreignKeyOf? column).isSome) :
    (lastForeignKey? rs column).isSome := by
  obtain ⟨fk, hfk⟩ := Option.isSome_iff_exists.1 h
  rw [lastForeignKey?, List.getLast?_isSome]
  exact List.ne_nil_of_mem (List.mem_filterMap.2 ⟨r, hr, hfk⟩)

namespace Sql

theorem foreignKeyOf?_columnRelationship? (table : Text) (c : Column) :
    (columnRelationship? table c).bind (·.foreignKeyOf? c.name) = c.foreignKey := by
  have own : Text.isAmong c.name [c.name] := by simp [Text.isAmong, Text.SameName.refl]
  rw [columnRelationship?]
  cases c.foreignKey with
  | none => rfl
  | some fk => simp [Relationship.foreignKeyOf?, own, referencedColumn]

theorem foreignKeyOf?_columnRelationship?_other (table : Text) {c d : Column}
    (other : Text.lower c.name ≠ Text.lower d.name) :
    (columnRelationship? table c).bind (·.foreignKeyOf? d.name) = none := by
  have notAmong : Text.isAmong d.name [c.name] = false := by
    have apart : ¬ Text.SameName d.name c.name := Ne.symm other
    simp [Text.isAmong, apart]
  rw [columnRelationship?]
  cases c.foreignKey with
  | none => rfl
  | some fk => simp [Relationship.foreignKeyOf?, notAmong]

theorem lastForeignKey?_columns (table : Text) {columns : List Column}
    (apart : (columns.map (Text.lower ·.name)).Nodup) :
    ∀ c ∈ columns,
      lastForeignKey? (columns.filterMap (columnRelationship? table)) c.name = c.foreignKey := by
  have spoken (column : Text) (columns : List Column) :
      lastForeignKey? (columns.filterMap (columnRelationship? table)) column =
        (columns.filterMap fun d =>
          (columnRelationship? table d).bind (·.foreignKeyOf? column)).getLast? := by
    rw [lastForeignKey?, List.filterMap_filterMap]
  intro c hc
  rw [spoken]
  induction columns with
  | nil => simp at hc
  | cons d columns ih =>
    rw [List.map_cons, List.nodup_cons] at apart
    rcases List.mem_cons.1 hc with rfl | hc
    · have silent : columns.filterMap (fun d =>
          (columnRelationship? table d).bind (·.foreignKeyOf? c.name)) = [] := by
        refine List.filterMap_eq_nil_iff.2 fun d hd => ?_
        refine foreignKeyOf?_columnRelationship?_other table fun same => apart.1 ?_
        exact List.mem_map.2 ⟨d, hd, same⟩
      rw [List.filterMap_cons, silent, foreignKeyOf?_columnRelationship?]
      cases c.foreignKey <;> rfl
    · have other : Text.lower d.name ≠ Text.lower c.name := fun same =>
        apart.1 (List.mem_map.2 ⟨c, hc, same.symm⟩)
      rw [List.filterMap_cons, foreignKeyOf?_columnRelationship?_other table other]
      exact ih apart.2 hc

def startingFrom (table : Text) (rs : List Relationship) : List Relationship :=
  rs.filter (Text.SameName table ·.source.table)

theorem startingFrom_append (table : Text) (rs ss : List Relationship) :
    startingFrom table (rs ++ ss) = startingFrom table rs ++ startingFrom table ss :=
  List.filter_append _ _

/-- Of the created tables only the one of that name declares relationships that start from it. -/
theorem startingFrom_flatMap {l : List CreatedTable}
    (own : ∀ created ∈ l, ∀ r ∈ created.relationships, r.source.table = created.table.name)
    (apart : NamesApart (l.map (·.table))) :
    ∀ created ∈ l, startingFrom created.table.name (l.flatMap (·.relationships)) =
      created.relationships := by
  have all {created : CreatedTable}
      (h : ∀ r ∈ created.relationships, r.source.table = created.table.name) :
      startingFrom created.table.name created.relationships = created.relationships :=
    List.filter_eq_self.2 fun r hr => decide_eq_true (by rw [h r hr]; exact .refl _)
  have none {created other : CreatedTable}
      (h : ∀ r ∈ other.relationships, r.source.table = other.table.name)
      (ne : Text.lower created.table.name ≠ Text.lower other.table.name) :
      startingFrom created.table.name other.relationships = [] :=
    List.filter_eq_nil_iff.2 fun r hr => by
      rw [h r hr]
      exact fun same => ne (of_decide_eq_true same)
  intro created hc
  induction l with
  | nil => simp at hc
  | cons other l ih =>
    rw [List.forall_mem_cons] at own
    rw [NamesApart, List.map_map, List.map_cons, List.nodup_cons] at apart
    rw [List.flatMap_cons, startingFrom_append]
    rcases List.mem_cons.1 hc with rfl | hc
    · have silent : startingFrom created.table.name (l.flatMap (·.relationships)) = [] := by
        rw [startingFrom, List.filter_flatMap, List.flatMap_eq_nil_iff]
        refine fun d hd => none (own.2 d hd) fun same => apart.1 ?_
        exact List.mem_map.2 ⟨d, hd, same.symm⟩
      rw [silent, all own.1, List.append_nil]
    · have other' : Text.lower created.table.name ≠ Text.lower other.table.name := fun same =>
        apart.1 (List.mem_map.2 ⟨created, hc, same⟩)
      have rest : NamesApart (l.map (·.table)) := by
        rw [NamesApart, List.map_map]
        exact apart.2
      rw [none own.1 other', ih own.2 rest hc, List.nil_append]

theorem startingFrom_added (table : Text) (added : List (Text × Constraint)) :
    startingFrom table (added.filterMap fun a => a.2.relationship? a.1) =
      (added.filter (Text.SameName table ·.1)).filterMap fun a => a.2.relationship? a.1 := by
  rw [startingFrom, List.filter_filterMap, List.filterMap_filter]
  refine List.filterMap_congr fun a _ => ?_
  cases hr : a.2.relationship? a.1 with
  | none => split <;> rfl
  | some r =>
    have source := Constraint.source_of_relationship? hr
    by_cases named : Text.SameName table a.1
    · simp [Option.filter, source, named]
    · simp [Option.filter, source, named]

theorem lastForeignKey?_added (table column : Text) (added : List (Text × Constraint)) :
    lastForeignKey? (startingFrom table (added.filterMap fun a => a.2.relationship? a.1)) column =
      ((constraintsFor table added).filterMap (·.foreignKeyOf? column)).getLast? := by
  rw [startingFrom_added, lastForeignKey?, List.filterMap_filterMap, constraintsFor,
    List.filterMap_map]
  congr 2
  funext a
  exact (a.2.foreignKeyOf?_eq a.1 column).symm

/-- The foreign key of a column is that of the last relationship declared for its table that names
the column. -/
theorem foreignKey_schemaOf {script : Text} {t : Table} {c : Column}
    (ht : t ∈ (schemaOf (Reader.statements script)).tables) (hc : c ∈ t.columns) :
    c.foreignKey = lastForeignKey?
      (startingFrom t.name (declaredRelationships (Reader.statements script))) c.name := by
  rw [tables_schemaOf] at ht
  obtain ⟨created, hcreated, rfl⟩ := List.mem_map.1 ht
  obtain ⟨name, schema, body, rfl⟩ := ofBody_createdTables hcreated
  have own := startingFrom_flatMap (fun d hd => source_of_created hd) (namesApart_createdTables _) _
    hcreated
  rw [altered] at hc
  rw [name_altered]
  rw [CreatedTable.name_ofBody] at own hc ⊢
  rw [CreatedTable.table_ofBody, ← List.foldl_append, Table.foldl_constrain] at hc
  obtain ⟨d, hd, rfl⟩ := List.mem_map.1 hc
  have column : (List.foldl Column.constrain d (bodyConstraints body ++ constraintsFor name
      (addedConstraints (Reader.statements script)))).name = d.name :=
    (d.within_foldl_constrain _).name
  have inline : lastForeignKey? ((bodyColumns body).filterMap (columnRelationship? name)) d.name =
      d.foreignKey :=
    lastForeignKey?_columns name (Text.nodup_firstOfEach _) d hd
  rw [column, Column.foreignKey_foldl_constrain, List.filterMap_append, List.getLast?_append,
    declaredRelationships, startingFrom_append, lastForeignKey?_append, lastForeignKey?_added, own,
    CreatedTable.relationships_ofBody, lastForeignKey?_append, lastForeignKey?_constraints, inline,
    Option.or_assoc]

/-- A relationship that starts from the column of a table and leads to what the foreign key says,
up to the case of letters. -/
def LeadsTo (table column : Text) (fk : ForeignKey) (r : Relationship) : Prop :=
  Text.SameName r.source.table table ∧ Text.isAmong column r.source.columns ∧
    Text.SameName r.target.table fk.table ∧
    ∃ d ∈ r.target.columns.head?, Text.SameName d fk.column

theorem mem_declared_of_mem_relationships {script : Text} {r : Relationship}
    (h : r ∈ (extract script).relationships) :
    r ∈ declaredRelationships (Reader.statements (stripComments script)) :=
  (Text.firstOfEach_sublist _).subset h

theorem foreignKey_of_relationship {script : Text} {t : Table} {c : Column} {r : Relationship}
    (ht : t ∈ (extract script).tables) (hc : c ∈ t.columns)
    (hr : r ∈ (extract script).relationships) (source : Text.SameName r.source.table t.name)
    (names : Text.isAmong c.name r.source.columns) : c.foreignKey.isSome := by
  rw [foreignKey_schemaOf ht hc]
  have starts : r ∈ startingFrom t.name
      (declaredRelationships (Reader.statements (stripComments script))) :=
    List.mem_filter.2 ⟨mem_declared_of_mem_relationships hr, decide_eq_true source.symm⟩
  exact isSome_lastForeignKey? starts (by simp [Relationship.foreignKeyOf?, names])

theorem relationship_of_foreignKey {script : Text} {t : Table} {c : Column} {fk : ForeignKey}
    (unmarked : ∀ r ∈ (extract script).relationships, r.Unmarked) (ht : t ∈ (extract script).tables)
    (hc : c ∈ t.columns) (name : c.name.Unmarked) (hfk : c.foreignKey = some fk)
    (target : fk.column.Unmarked) :
    ∃ r ∈ (extract script).relationships, LeadsTo t.name c.name fk r := by
  rw [foreignKey_schemaOf ht hc] at hfk
  obtain ⟨s, hs, said⟩ := exists_of_lastForeignKey? hfk
  obtain ⟨hs, source⟩ := List.mem_filter.1 hs
  -- the relationship kept for the key of `s` may be another one than `s`
  obtain ⟨r, hr, key⟩ := Text.exists_mem_firstOfEach Relationship.key hs
  have declared := mem_declared_of_mem_relationships hr
  obtain ⟨sourceTable, sourceColumns, targetTable, targetColumn⟩ := Relationship.agrees_of_key_eq
    (unmarked r hr) (hasColumns_declared declared) (hasColumns_declared hs) key.symm
  have noComma {n : Text} (h : n.Unmarked) : ',' ∉ n := fun mem => h ',' mem (by simp)
  unfold Relationship.foreignKeyOf? at said
  split at said
  · next among =>
    obtain rfl := Option.some_inj.1 said
    have source : Text.SameName t.name s.source.table := of_decide_eq_true source
    have columns : referencedColumn s.target.columns ∈ s.target.columns.head? := by
      obtain ⟨d, ds, eq⟩ := List.exists_cons_of_ne_nil (hasColumns_declared hs).2
      simp [eq, referencedColumn]
    exact ⟨r, hr, sourceTable.symm.trans source.symm, sourceColumns c.name among (noComma name),
      targetTable.symm, targetColumn _ columns (noComma target)⟩
  · simp at said

/-- No column of the schema and no end of a reference has a name with a point, a comma, a dash or an
angle in it. -/
structure Unmarked (s : Schema) : Prop where
  columns : ∀ t ∈ s.tables, ∀ c ∈ t.columns, c.name.Unmarked
  foreignKeys : ∀ t ∈ s.tables, ∀ c ∈ t.columns, ∀ fk ∈ c.foreignKey, fk.column.Unmarked
  relationships : ∀ r ∈ s.relationships, r.Unmarked

/-- Where a relationship starts there is a foreign key. Without marks in the names, each foreign key
has its relationship, even if the one that set it fell out as a repeat of another. -/
theorem extract_foreignKeys_correspond (script : Text) :
    (∀ t ∈ (extract script).tables, ∀ r ∈ (extract script).relationships,
      Text.SameName r.source.table t.name →
        ∀ c ∈ t.columns, Text.isAmong c.name r.source.columns → c.foreignKey.isSome) ∧
    (Unmarked (extract script) →
      ∀ t ∈ (extract script).tables, ∀ c ∈ t.columns, ∀ fk, c.foreignKey = some fk →
        ∃ r ∈ (extract script).relationships, LeadsTo t.name c.name fk r) := by
  refine ⟨fun t ht r hr source c hc names => foreignKey_of_relationship ht hc hr source names, ?_⟩
  intro unmarked t ht c hc fk hfk
  exact relationship_of_foreignKey unmarked.relationships ht hc (unmarked.columns t ht c hc) hfk
    (unmarked.foreignKeys t ht c hc fk hfk)

/-- The key of `x` is set three times, at last as it was at first, and only the first of these two
relationships is kept. -/
def resetScript : Text :=
  Text.ofString <| "CREATE TABLE a (x INT REFERENCES t (id), y INT, " ++
    "FOREIGN KEY (x, y) REFERENCES u (p, q)); ALTER TABLE A ADD FOREIGN KEY (X) REFERENCES T (ID);"

def reset : Schema where
  tables := [{
    name := ['a']
    columns := [
      { name := ['x'], type := Text.ofString "INT"
        foreignKey := some ⟨['T'], Text.ofString "ID"⟩ },
      { name := ['y'], type := Text.ofString "INT", foreignKey := some ⟨['u'], ['p']⟩ }]
    constraints := [
      .foreignKey none [['x'], ['y']] ['u'] [['p'], ['q']] none none,
      .foreignKey none [['X']] ['T'] [Text.ofString "ID"] none none] }]
  relationships := [
    ⟨Text.ofString "fk_a_x", ⟨['a'], [['x']]⟩, ⟨['t'], [Text.ofString "id"]⟩⟩,
    ⟨Text.ofString "fk_a_x_y", ⟨['a'], [['x'], ['y']]⟩, ⟨['u'], [['p'], ['q']]⟩⟩]

theorem extract_resetScript : extract resetScript = reset := by
  decide +kernel

theorem unmarked_reset : Unmarked reset where
  columns := by decide
  foreignKeys := by decide
  relationships := List.forall_mem_cons.2 ⟨⟨by decide, by decide, by decide, by decide⟩,
    List.forall_mem_singleton.2 ⟨by decide, by decide, by decide, by decide⟩⟩

theorem extract_resetScript_corresponds :
    Unmarked reset ∧
      (∃ t ∈ reset.tables, ∃ c ∈ t.columns, c.foreignKey = some ⟨['T'], Text.ofString "ID"⟩ ∧
        ∃ r ∈ reset.relationships, LeadsTo t.name c.name ⟨['T'], Text.ofString "ID"⟩ r) ∧
      ∃ t ∈ reset.tables, ∃ r ∈ reset.relationships, Text.SameName r.source.table t.name ∧
        ∃ c ∈ t.columns, Text.isAmong c.name r.source.columns ∧ c.foreignKey.isSome := by
  have correspond := extract_foreignKeys_correspond resetScript
  rw [extract_resetScript] at correspond
  obtain ⟨sound, complete⟩ := correspond
  have table : (reset.tables.head (by decide)) ∈ reset.tables := List.head_mem _
  have column : ((reset.tables.head (by decide)).columns.head (by decide)) ∈
      (reset.tables.head (by decide)).columns := List.head_mem _
  have relationship : (reset.relationships.head (by decide)) ∈ reset.relationships :=
    List.head_mem _
  refine ⟨unmarked_reset, ⟨_, table, _, column, rfl, ?_⟩, _, table, _, relationship, rfl, _, column,
    rfl, ?_⟩
  · exact complete unmarked_reset _ table _ column _ rfl
  · exact sound _ table _ relationship rfl _ column rfl

end Sql

end SchemaDiagram
