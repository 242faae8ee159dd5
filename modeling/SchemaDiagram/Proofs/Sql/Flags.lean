import SchemaDiagram.Proofs.Sql.Declared

/-!
# Flags and recorded constraints

Whatever constraints a table was given, in its body or by additions, its columns show all of them:
no constraint takes back what one before it said, except that a later foreign key of a column takes
the place of an earlier one.
-/

namespace SchemaDiagram

def Constraint.isForeignKeyOf (column : Text) : Constraint → Bool
  | foreignKey _ columns _ _ _ _ => Text.isAmong column columns
  | _ => false

def Column.Filled (c : Column) : Prop := c.isPrimaryKey ∨ c.isAutoIncrement → c.isNotNull

/-- The column shows what each of the constraints says about it. -/
structure Column.Shows (c : Column) (ks : List Constraint) : Prop where
  filled : c.Filled
  primaryKey : ∀ name columns, .primaryKey name columns ∈ ks → Text.isAmong c.name columns →
    c.isPrimaryKey ∧ c.isNotNull
  unique : ∀ name columns, .unique name columns ∈ ks → Text.isAmong c.name columns → c.isUnique
  hasForeignKey : ∀ name columns refTable refColumns onDelete onUpdate,
    .foreignKey name columns refTable refColumns onDelete onUpdate ∈ ks →
      Text.isAmong c.name columns → c.foreignKey.isSome
  /-- Of the foreign keys that name the column the last one counts. -/
  lastForeignKey : ∀ before name columns refTable refColumns onDelete onUpdate after,
    ks = before ++ .foreignKey name columns refTable refColumns onDelete onUpdate :: after →
      Text.isAmong c.name columns → (∀ k ∈ after, k.isForeignKeyOf c.name = false) →
        ∃ column, refColumns.head? = some column ∧ c.foreignKey = some ⟨refTable, column⟩

namespace Column

variable {c : Column} {k : Constraint} {ks : List Constraint}

theorem Filled.constrain (h : c.Filled) (k : Constraint) : (c.constrain k).Filled := by
  cases k with
  | primaryKey =>
    simp only [Column.constrain]
    split
    · exact fun _ => rfl
    · exact h
  | unique => simp only [Column.constrain]; split <;> exact h
  | foreignKey => simp only [Column.constrain]; split <;> exact h
  | check => exact h

theorem foreignKey_constrain_of_other (other : k.isForeignKeyOf c.name = false) :
    (c.constrain k).foreignKey = c.foreignKey := by
  cases k with
  | foreignKey =>
    have notAmong : Text.isAmong c.name _ = false := other
    simp [constrain, notAmong]
  | primaryKey => simp only [constrain]; split <;> rfl
  | unique => simp only [constrain]; split <;> rfl
  | check => rfl

theorem foreignKey_constrain_of_among {name : Option Text} {columns refColumns : List Text}
    {refTable : Text} {onDelete onUpdate : Option ReferentialAction}
    (among : Text.isAmong c.name columns) (listed : refColumns ≠ []) :
    ∃ column, refColumns.head? = some column ∧
      (c.constrain (.foreignKey name columns refTable refColumns onDelete onUpdate)).foreignKey =
        some ⟨refTable, column⟩ := by
  obtain ⟨column, rest, rfl⟩ := List.exists_cons_of_ne_nil listed
  exact ⟨column, rfl, by simp [constrain, among, referencedColumn]⟩

/-- A further constraint changes nothing of what the column shows of those before it. -/
theorem Shows.constrain (h : c.Shows ks) (hk : k.HasColumns) :
    (c.constrain k).Shows (ks ++ [k]) := by
  have marked := c.within_constrain k
  refine ⟨h.filled.constrain k, ?_, ?_, ?_, ?_⟩
  all_goals rw [marked.name]
  · intro name columns said among
    rcases List.mem_append.1 said with before | last
    · exact (h.primaryKey name columns before among).imp marked.primaryKey marked.notNull
    · obtain rfl := List.mem_singleton.1 last
      simp [Column.constrain, among]
  · intro name columns said among
    rcases List.mem_append.1 said with before | last
    · exact marked.unique (h.unique name columns before among)
    · obtain rfl := List.mem_singleton.1 last
      simp [Column.constrain, among]
  · intro name columns refTable refColumns onDelete onUpdate said among
    rcases List.mem_append.1 said with before | last
    · exact marked.foreignKey (h.hasForeignKey _ _ _ _ _ _ before among)
    · obtain rfl := List.mem_singleton.1 last
      simp [Column.constrain, among]
  · intro before name columns refTable refColumns onDelete onUpdate after said among others
    rcases List.eq_nil_or_concat after with rfl | ⟨after, last, rfl⟩
    · obtain rfl := List.singleton_inj.1 (List.append_inj' said rfl).2
      exact foreignKey_constrain_of_among among hk.2
    · rw [List.concat_eq_append] at said others
      rw [← List.cons_append, ← List.append_assoc] at said
      obtain ⟨earlier, eq⟩ := List.append_inj' said rfl
      obtain rfl := List.singleton_inj.1 eq
      rw [List.forall_mem_append, List.forall_mem_singleton] at others
      rw [foreignKey_constrain_of_other others.2]
      exact h.lastForeignKey _ _ _ _ _ _ _ _ earlier among others.1

theorem Shows.foldl_constrain (h : c.Shows ks) {added : List Constraint}
    (hadded : ∀ k ∈ added, k.HasColumns) :
    (added.foldl Column.constrain c).Shows (ks ++ added) := by
  induction added generalizing c ks with
  | nil => rwa [List.append_nil]
  | cons k added ih =>
    rw [List.forall_mem_cons] at hadded
    rw [List.append_cons]
    exact ih (h.constrain hadded.1) hadded.2

theorem shows_nil (filled : c.Filled) : c.Shows [] := by
  refine ⟨filled, ?_, ?_, ?_, ?_⟩ <;> simp

end Column

/-- The columns show what the recorded constraints say, and whatever constraint is meant to name
columns names some. -/
structure Table.Consistent (t : Table) : Prop where
  columns : ∀ c ∈ t.columns, c.Shows t.constraints
  hasColumns : ∀ k ∈ t.constraints, k.HasColumns

theorem Table.Consistent.foldl_constrain {t : Table} (h : t.Consistent) {ks : List Constraint}
    (hks : ∀ k ∈ ks, k.HasColumns) : (ks.foldl Table.constrain t).Consistent := by
  rw [Table.foldl_constrain]
  refine ⟨List.forall_mem_map.2 fun c hc => ?_, List.forall_mem_append.2 ⟨h.hasColumns, hks⟩⟩
  exact (h.columns c hc).foldl_constrain hks

namespace Sql

theorem filled_column (name : Text) (type : Option ColumnType) (clauses : List Clause) :
    (Clause.column name type clauses).Filled := by
  intro h
  simp only [Clause.column, Bool.or_eq_true] at h ⊢
  rcases h with primary | increments
  · exact .inl (.inr primary)
  · exact .inr increments

theorem consistent_bodyColumns (name : Text) (schema : Option Text) (body : Text) :
    Table.Consistent { name, schema, columns := bodyColumns body } := by
  refine ⟨fun c hc => Column.shows_nil ?_, by simp⟩
  obtain ⟨segment, -, defined⟩ := List.mem_filterMap.1 ((Text.firstOfEach_sublist _).subset hc)
  unfold column? at defined
  split at defined
  · contradiction
  · obtain rfl := Option.some_inj.1 defined
    exact filled_column _ _ _

/-- In every table of a schema the columns show what the recorded constraints say, and every key,
foreign key and uniqueness that is recorded names at least one column. -/
theorem extract_consistent (script : Text) : ∀ t ∈ (extract script).tables, t.Consistent := by
  intro t ht
  rw [extract, tables_schemaOf] at ht
  obtain ⟨created, hcreated, rfl⟩ := List.mem_map.1 ht
  obtain ⟨name, schema, body, rfl⟩ := ofBody_createdTables hcreated
  have listed : ∀ k ∈ bodyConstraints body, k.HasColumns := fun k => hasColumns_bodyConstraints
  have inBody := (consistent_bodyColumns name schema body).foldl_constrain listed
  rw [altered, CreatedTable.table_ofBody]
  refine inBody.foldl_constrain fun k hk => ?_
  obtain ⟨added, mem, rfl⟩ := List.mem_map.1 hk
  exact hasColumns_added (List.mem_filter.1 mem).1

/-- The foreign key of `y` is given in the body and again by an addition, in another spelling. -/
def keyedScript : Text :=
  Text.ofString <| "CREATE TABLE a (x SERIAL, y INT, FOREIGN KEY (y, x) REFERENCES u, UNIQUE (X), " ++
    "PRIMARY KEY (Y)); ALTER TABLE A ADD FOREIGN KEY (Y) REFERENCES w (q, r)"

def keyed : Table where
  name := ['a']
  columns := [
    { name := ['x'], type := Text.ofString "SERIAL", isUnique := true, isNotNull := true
      isAutoIncrement := true, foreignKey := some ⟨['u'], Text.ofString "id"⟩ },
    { name := ['y'], type := Text.ofString "INT", isPrimaryKey := true, isNotNull := true
      foreignKey := some ⟨['w'], ['q']⟩ }]
  constraints := [
    .foreignKey none [['y'], ['x']] ['u'] [Text.ofString "id"] none none,
    .unique none [['X']],
    .primaryKey none [['Y']],
    .foreignKey none [['Y']] ['w'] [['q'], ['r']] none none]

theorem extract_keyedScript_consistent :
    keyed ∈ (extract keyedScript).tables ∧ keyed.Consistent := by
  have mem : keyed ∈ (extract keyedScript).tables := by decide +kernel
  exact ⟨mem, extract_consistent keyedScript keyed mem⟩

end Sql

end SchemaDiagram
