import SchemaDiagram.Proofs.Sql.ForeignKeys
import SchemaDiagram.Proofs.Sql.RoundTrip
import SchemaDiagram.Proofs.Sql.WrittenConstraint

/-!
# Tables with constraints that are read back

A table is written as one CREATE TABLE statement, its columns first and its constraints behind them.
What is extracted is the table, each column marked as the constraints say.
-/

namespace SchemaDiagram

def Constraint.isPrimaryKeyOf (column : Text) : Constraint → Bool
  | primaryKey _ columns => Text.isAmong column columns
  | _ => false

def Constraint.isUniqueOf (column : Text) : Constraint → Bool
  | unique _ columns => Text.isAmong column columns
  | _ => false

namespace Column

/-- The column as constraints mark it. Of the foreign keys that name it the last one counts, and
its own one only if there is none. -/
def under (ks : List Constraint) (c : Column) : Column :=
  { c with
    isPrimaryKey := c.isPrimaryKey || ks.any (·.isPrimaryKeyOf c.name)
    isUnique := c.isUnique || ks.any (·.isUniqueOf c.name)
    isNotNull := c.isNotNull || ks.any (·.isPrimaryKeyOf c.name)
    foreignKey := ((ks.filterMap (·.foreignKeyOf? c.name)).getLast?).or c.foreignKey }

theorem constrain_eq_under (c : Column) (k : Constraint) : c.constrain k = c.under [k] := by
  cases k with
  | primaryKey _ names | unique _ names | foreignKey _ names =>
    by_cases among : Text.isAmong c.name names
    · simp [constrain, under, Constraint.isPrimaryKeyOf, Constraint.isUniqueOf,
        Constraint.foreignKeyOf?, Constraint.relationship?, Relationship.foreignKeyOf?, among]
    · simp [constrain, under, Constraint.isPrimaryKeyOf, Constraint.isUniqueOf,
        Constraint.foreignKeyOf?, Constraint.relationship?, Relationship.foreignKeyOf?, among]
  | check =>
    simp [constrain, under, Constraint.isPrimaryKeyOf, Constraint.isUniqueOf,
      Constraint.foreignKeyOf?, Constraint.relationship?]

theorem under_under (c : Column) (ks ls : List Constraint) :
    (c.under ks).under ls = c.under (ks ++ ls) := by
  simp [under, Bool.or_assoc, Option.or_assoc]

theorem foldl_constrain (c : Column) (ks : List Constraint) :
    ks.foldl constrain c = c.under ks := by
  induction ks generalizing c with
  | nil => simp [under]
  | cons k ks ih => rw [List.foldl_cons, ih, constrain_eq_under, under_under, List.singleton_append]

end Column

def Table.marked (t : Table) : Table :=
  { t with columns := t.columns.map (Column.under t.constraints) }

/-- The relationships that the columns of a table imply, then those of its constraints. -/
def Table.relationships (t : Table) : List Relationship :=
  Sql.columnRelationships t ++ t.constraints.filterMap (·.relationship? t.name)

namespace Sql

structure WritableConstrained (t : Table) : Prop where
  name : Quotable t.name
  schema : t.schema = none
  columns : ∀ c ∈ t.columns, WritableColumn c
  distinct : (t.columns.map (Text.lower ·.name)).Nodup
  constraints : ∀ k ∈ t.constraints, k.Writable

def flagClauses : List Clause := [.primaryKey, .notNull, .unique]

def intColumn (name : Text) (flags : List Clause) : Column where
  name
  type := Text.ofString "INT"
  isPrimaryKey := .primaryKey ∈ flags
  isUnique := .unique ∈ flags
  isNotNull := .notNull ∈ flags ∨ .primaryKey ∈ flags

variable {name : Text} {flags : List Clause}

theorem noSerial_intColumn (name : Text) (flags : List Clause) :
    isSerial (intColumn name flags) = false := by
  change Text.contains (Text.ofString "SERIAL") (Text.ofString "INT") = false
  decide +kernel

theorem writableColumn_intColumn (h : Quotable name)
    (noIndex : Text.isAmong name [Text.ofString "FULLTEXT", Text.ofString "SPATIAL"] = false) :
    WritableColumn (intColumn name flags) where
  name := h
  noIndex := noIndex
  type := ⟨⟨[Text.ofString "INT"], none, [], by decide +kernel, by simp, by simp⟩, rfl⟩
  autoIncrement serial := by
    rw [noSerial_intColumn] at serial
    contradiction
  notNull implied := by
    have primary : .primaryKey ∈ flags := by simpa [intColumn] using implied
    simp [intColumn, primary]
  default := by simp [intColumn]
  check := by simp [intColumn]
  foreignKey := by simp [intColumn]

theorem describes_intColumn (h : ∀ f ∈ flags, f ∈ flagClauses) :
    Describes flags (intColumn name flags) where
  primaryKey := by simp [intColumn]
  unique := by simp [intColumn]
  autoIncrement := by
    have noSerial : isSerial (intColumn name flags) = false := noSerial_intColumn name flags
    have noClause : .autoIncrement ∉ flags := fun mem => by simpa [flagClauses] using h _ mem
    have noIncrement : (intColumn name flags).isAutoIncrement = false := rfl
    simp [noSerial, noClause, noIncrement]
  notNull := by simp [intColumn]
  default e := by
    have noClause : .default e ∉ flags := fun mem => by simpa [flagClauses] using h _ mem
    simp [noClause, intColumn]
  check g := by
    have noClause : .check g ∉ flags := fun mem => by simpa [flagClauses] using h _ mem
    simp [noClause, intColumn]
  references r := by
    have noClause : .references r ∉ flags := fun mem => by simpa [flagClauses] using h _ mem
    simp [noClause, intColumn]

variable {spell : Column → List Clause} {t : Table}

def segmentTexts (spell : Column → List Clause) (t : Table) : List Text :=
  (t.columns.map fun c => columnText (spell c) c) ++ t.constraints.map (·.text)

def constrainedBody (spell : Column → List Clause) (t : Table) : Text :=
  Text.join [',', ' '] (segmentTexts spell t)

def constrainedText (spell : Column → List Clause) (t : Table) : Text :=
  createText (quoted t.name) (constrainedBody spell t)

theorem segments_constrainedBody (h : WritableConstrained t)
    (describes : ∀ c ∈ t.columns, Describes (spell c) c) :
    segments (constrainedBody spell t) = segmentTexts spell t := by
  apply segments_join
  refine List.forall_mem_append.2 ⟨?_, ?_⟩
  · refine List.forall_mem_map.2 fun c hc => ?_
    exact (describes c hc).segment_columnText (h.columns c hc)
  · refine List.forall_mem_map.2 fun k hk => ?_
    exact Constraint.segment_text (h.constraints k hk)

theorem standalone_constrainedBody (h : WritableConstrained t)
    (describes : ∀ c ∈ t.columns, Describes (spell c) c) {b : Text} (hb : Delimited b) :
    Standalone (constrainedBody spell t) b := by
  refine .join (fun s hs b hb => ?_) hb
  rcases List.mem_append.1 hs with column | constraint
  · obtain ⟨c, hc, rfl⟩ := List.mem_map.1 column
    exact ((describes c hc).inline_columnText (h.columns c hc) hb).toStandalone
  · obtain ⟨k, hk, rfl⟩ := List.mem_map.1 constraint
    exact (Constraint.inline_text (h.constraints k hk) hb).toStandalone

theorem filter_segmentTexts (h : WritableConstrained t) :
    (segmentTexts spell t).filter (SegmentKind.ofText · = .column) =
        t.columns.map (fun c => columnText (spell c) c) ∧
      (segmentTexts spell t).filter (SegmentKind.ofText · = .constraint) =
        t.constraints.map (·.text) := by
  have columns : ∀ s ∈ t.columns.map fun c => columnText (spell c) c,
      SegmentKind.ofText s = .column :=
    List.forall_mem_map.2 fun c hc => Describes.ofText_columnText (h.columns c hc) (spell c)
  have constraints : ∀ s ∈ t.constraints.map (·.text), SegmentKind.ofText s = .constraint :=
    List.forall_mem_map.2 fun k _ => ofText_of_constraintOpening k.constraintOpening_text
  constructor
  · rw [segmentTexts, List.filter_append, List.filter_eq_self.2 fun s hs => by simp [columns s hs],
      List.filter_eq_nil_iff.2 fun s hs => by simp [constraints s hs], List.append_nil]
  · rw [segmentTexts, List.filter_append,
      List.filter_eq_nil_iff.2 fun s hs => by simp [columns s hs],
      List.filter_eq_self.2 fun s hs => by simp [constraints s hs], List.nil_append]

theorem filterMap_tableConstraint? {ks : List Constraint} (h : ∀ k ∈ ks, k.Writable) :
    (ks.map (·.text)).filterMap (fun s => (Reader.tableConstraint? s).1) = ks := by
  induction ks with
  | nil => rfl
  | cons k ks ih =>
    rw [List.forall_mem_cons] at h
    have read := Reader.tableConstraint?_text h.1.tellable
    rw [List.map_cons, List.filterMap_cons, read, ih h.2]

theorem bodyColumns_constrainedBody (h : WritableConstrained t)
    (describes : ∀ c ∈ t.columns, Describes (spell c) c) :
    bodyColumns (constrainedBody spell t) = t.columns := by
  rw [bodyColumns, segments_constrainedBody h describes, (filter_segmentTexts h).1,
    filterMap_column? h.columns describes, Text.firstOfEach_eq_self h.distinct]

theorem bodyConstraints_constrainedBody (h : WritableConstrained t)
    (describes : ∀ c ∈ t.columns, Describes (spell c) c) :
    bodyConstraints (constrainedBody spell t) = t.constraints := by
  rw [bodyConstraints, segments_constrainedBody h describes, (filter_segmentTexts h).2,
    filterMap_tableConstraint? h.constraints]

theorem ofBody_constrainedBody (h : WritableConstrained t)
    (describes : ∀ c ∈ t.columns, Describes (spell c) c) :
    CreatedTable.ofBody t.name none (constrainedBody spell t) = ⟨t.marked, t.relationships⟩ := by
  have whole (created : CreatedTable) : created = ⟨created.table, created.relationships⟩ := rfl
  rw [whole (.ofBody t.name none (constrainedBody spell t)), CreatedTable.table_ofBody,
    CreatedTable.relationships_ofBody, bodyColumns_constrainedBody h describes,
    bodyConstraints_constrainedBody h describes, Table.foldl_constrain, Table.marked, h.schema,
    List.nil_append]
  simp only [Column.foldl_constrain]
  rfl

theorem stripComments_constrainedText (h : WritableConstrained t)
    (describes : ∀ c ∈ t.columns, Describes (spell c) c) :
    stripComments (constrainedText spell t) = constrainedText spell t := by
  have alone := standalone_constrainedBody h describes (b := []) rfl
  have body : Clean (constrainedBody spell t) := by
    refine ⟨?_, by rw [alone.balanced.returns]; rfl⟩
    have free := alone.commentFree rfl
    rwa [List.append_nil] at free
  have ended : Clean [] := by decide
  have whole := h.name.closed.clean.createText body ended
  rw [List.append_nil] at whole
  refine stripComments_of_commentFree ?_ whole.commentFree
  simp [constrainedText, createText, h.name.closed.noReturn, alone.noReturn, Text.ofString]

/-- A table is read back with all its constraints, in their order, and its columns show what the
constraints say of them. Columns of integers with flags in any order are among those that can be
written (`writableColumn_intColumn`, `describes_intColumn`). -/
theorem extract_constrainedText (h : WritableConstrained t)
    (describes : ∀ c ∈ t.columns, Describes (spell c) c) :
    extract (constrainedText spell t) =
      { tables := [t.marked]
        relationships := Text.firstOfEach Relationship.key t.relationships } := by
  have ended : Delimited (')' :: ';' :: []) := rfl
  have alone := standalone_constrainedBody h describes ended
  have read := Reader.statements_createText (Spells.quoted t.name).standsFor alone
  rw [List.append_nil, ofBody_constrainedBody h describes, Reader.statements_semicolon,
    Reader.statements_nil] at read
  have created := schemaOf_create (l := [⟨t.marked, t.relationships⟩]) (by simp)
  rw [extract, stripComments_constrainedText h describes, constrainedText, read]
  simpa using created

def ledgerFlags (name : Text) : List Clause :=
  if name = Text.ofString "id" then [.notNull, .primaryKey, .unique]
  else if name = Text.ofString "a,b" then [.unique, .notNull]
  else []

/-- A table whose names look like SQL, with constraints that name columns in other cases and columns
that are none. -/
def ledger : Table where
  name := Text.ofString "or\"ders; --"
  columns := [Text.ofString "id", Text.ofString "a,b", Text.ofString "CHECK ("].map fun name =>
    intColumn name (ledgerFlags name)
  constraints := [
    .primaryKey none [Text.ofString "A,B", Text.ofString "x\"y"],
    .foreignKey (some (Text.ofString "or\"der")) [Text.ofString "check ("] (Text.ofString "t")
      [Text.ofString "ON DELETE", Text.ofString "id"] (some .setNull) (some .noAction),
    .foreignKey none [Text.ofString "ID", Text.ofString "Check ("] (Text.ofString "or\"ders; --")
      [Text.ofString "a,b", Text.ofString "id"] none (some .cascade),
    .unique (some []) [Text.ofString "Check ("],
    .check none (Text.ofString "(\")\" > (0, '--'))")]

def ledgerText : Text :=
  Text.ofString "CREATE TABLE \"or\"\"ders; --\" (\"id\" INT NOT NULL PRIMARY KEY UNIQUE, " ++
  Text.ofString "\"a,b\" INT UNIQUE NOT NULL, \"CHECK (\" INT, " ++
  Text.ofString "PRIMARY KEY (\"A,B\", \"x\"\"y\"), " ++
  Text.ofString "CONSTRAINT \"or\"\"der\" FOREIGN KEY (\"check (\") REFERENCES \"t\" " ++
  Text.ofString "(\"ON DELETE\", \"id\") ON DELETE SET NULL ON UPDATE NO ACTION, " ++
  Text.ofString "FOREIGN KEY (\"ID\", \"Check (\") REFERENCES \"or\"\"ders; --\" " ++
  Text.ofString "(\"a,b\", \"id\") ON UPDATE CASCADE, " ++
  Text.ofString "CONSTRAINT \"\" UNIQUE (\"Check (\"), CHECK (\")\" > (0, '--')));"

theorem writableConstrained_ledger : WritableConstrained ledger where
  name := by decide
  schema := rfl
  columns := by
    have quotable : ∀ name ∈ [Text.ofString "id", Text.ofString "a,b", Text.ofString "CHECK ("],
        Quotable name := by
      decide
    have noIndex : ∀ name ∈ [Text.ofString "id", Text.ofString "a,b", Text.ofString "CHECK ("],
        Text.isAmong name [Text.ofString "FULLTEXT", Text.ofString "SPATIAL"] = false := by
      decide
    exact List.forall_mem_map.2 fun name mem =>
      writableColumn_intColumn (quotable name mem) (noIndex name mem)
  distinct := by decide +kernel
  constraints := by
    refine List.forall_mem_cons.2 ⟨⟨by simp [Constraint.name], by simp, by decide⟩, ?_⟩
    refine List.forall_mem_cons.2 ⟨⟨?_, ⟨by simp, by decide⟩, by decide, by simp, by decide⟩, ?_⟩
    · rintro _ ⟨⟩
      decide
    refine List.forall_mem_cons.2 ⟨⟨by simp [Constraint.name], ⟨by simp, by decide⟩, by decide,
      by simp, by decide⟩, ?_⟩
    refine List.forall_mem_cons.2 ⟨⟨?_, by simp, by decide⟩, ?_⟩
    · rintro _ ⟨⟩
      decide
    refine List.forall_mem_singleton.2 ⟨by simp [Constraint.name], ?_⟩
    exact ⟨Text.ofString "\")\" > (0, '--')", rfl, by decide +kernel⟩

theorem extract_ledgerText :
    (WritableConstrained ledger ∧
      ∀ c ∈ ledger.columns, Describes (ledgerFlags c.name) c) ∧
      extract ledgerText =
        { tables := [ledger.marked], relationships := ledger.relationships } ∧
      ledger.marked.columns.map (·.foreignKey) = [
        some ⟨Text.ofString "or\"ders; --", Text.ofString "a,b"⟩, none,
        some ⟨Text.ofString "or\"ders; --", Text.ofString "a,b"⟩] := by
  have describes : ∀ c ∈ ledger.columns, Describes (ledgerFlags c.name) c := by
    have known (name : Text) : ∀ f ∈ ledgerFlags name, f ∈ flagClauses := by
      unfold ledgerFlags
      split
      · decide
      · split <;> decide
    exact List.forall_mem_map.2 fun name _ => describes_intColumn (known name)
  have text : constrainedText (fun c => ledgerFlags c.name) ledger = ledgerText := by
    decide +kernel
  have kept : Text.firstOfEach Relationship.key ledger.relationships = ledger.relationships := by
    decide +kernel
  refine ⟨⟨writableConstrained_ledger, describes⟩, ?_, by decide +kernel⟩
  rw [← text, extract_constrainedText writableConstrained_ledger describes, kept]

end Sql

end SchemaDiagram
