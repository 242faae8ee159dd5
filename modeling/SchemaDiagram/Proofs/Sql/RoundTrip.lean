import SchemaDiagram.Proofs.Sql.Alterations
import SchemaDiagram.Proofs.Sql.ColumnText
import SchemaDiagram.Proofs.Sql.StatementText

/-!
# Tables that are read back

Tables are written as a script of CREATE TABLE statements. What is extracted from the script are the
tables again.
-/

namespace SchemaDiagram.Sql

structure WritableTable (t : Table) : Prop where
  name : Quotable t.name
  schema : t.schema = none
  columns : ∀ c ∈ t.columns, WritableColumn c
  distinct : (t.columns.map (Text.lower ·.name)).Nodup
  constraints : t.constraints = []

variable {spell : Column → List Clause} {t : Table}

def bodyText (spell : Column → List Clause) (columns : List Column) : Text :=
  Text.join [',', ' '] (columns.map fun c => columnText (spell c) c)

def tableText (spell : Column → List Clause) (t : Table) : Text :=
  Text.ofString "CREATE TABLE " ++ quoted t.name ++
    Text.ofString " (" ++ bodyText spell t.columns ++ Text.ofString ");\n"

def columnRelationships (t : Table) : List Relationship :=
  t.columns.filterMap (columnRelationship? t.name)

theorem segments_bodyText {columns : List Column} (h : ∀ c ∈ columns, WritableColumn c)
    (describes : ∀ c ∈ columns, Describes (spell c) c) :
    segments (bodyText spell columns) = columns.map fun c => columnText (spell c) c := by
  apply segments_join
  intro s hs
  obtain ⟨c, hc, rfl⟩ := List.mem_map.1 hs
  exact (describes c hc).segment_columnText (h c hc)

theorem filterMap_column? {columns : List Column} (h : ∀ c ∈ columns, WritableColumn c)
    (describes : ∀ c ∈ columns, Describes (spell c) c) :
    (columns.map fun c => columnText (spell c) c).filterMap column? = columns := by
  induction columns with
  | nil => rfl
  | cons c columns ih =>
    rw [List.forall_mem_cons] at h describes
    rw [List.map_cons, List.filterMap_cons_some (describes.1.column?_columnText h.1),
      ih h.2 describes.2]

theorem ofBody_bodyText (h : WritableTable t) (describes : ∀ c ∈ t.columns, Describes (spell c) c) :
    CreatedTable.ofBody t.name none (bodyText spell t.columns) = ⟨t, columnRelationships t⟩ := by
  have kind : ∀ s ∈ segments (bodyText spell t.columns), SegmentKind.ofText s = .column := by
    rw [segments_bodyText h.columns describes]
    intro s hs
    obtain ⟨c, hc, rfl⟩ := List.mem_map.1 hs
    exact Describes.ofText_columnText (h.columns c hc) (spell c)
  have columns : (segments (bodyText spell t.columns)).filterMap column? = t.columns := by
    rw [segments_bodyText h.columns describes, filterMap_column? h.columns describes]
  have all : (segments (bodyText spell t.columns)).filter (SegmentKind.ofText · = .column) =
      segments (bodyText spell t.columns) :=
    List.filter_eq_self.2 fun s hs => decide_eq_true (kind s hs)
  have none : (segments (bodyText spell t.columns)).filter (SegmentKind.ofText · = .constraint) =
      [] :=
    List.filter_eq_nil_iff.2 fun s hs => by simp [kind s hs]
  have plain : ({ name := t.name, schema := .none, columns := t.columns } : Table) = t := by
    have schema := h.schema
    have constraints := h.constraints
    cases t
    subst schema constraints
    rfl
  unfold CreatedTable.ofBody
  simp only [all, none, columns, Text.firstOfEach_eq_self h.distinct, List.filterMap_nil,
    List.foldl_nil, List.append_nil, plain]
  rfl

theorem standalone_bodyText {columns : List Column} (h : ∀ c ∈ columns, WritableColumn c)
    (describes : ∀ c ∈ columns, Describes (spell c) c) {b : Text} (hb : Delimited b) :
    Standalone (bodyText spell columns) b := by
  refine .join (fun s hs b hb => ?_) hb
  obtain ⟨c, hc, rfl⟩ := List.mem_map.1 hs
  exact ((describes c hc).inline_columnText (h c hc) hb).toStandalone

theorem tableText_eq (spell : Column → List Clause) (t : Table) :
    tableText spell t = createText (quoted t.name) (bodyText spell t.columns) ++ ['\n'] := by
  simp only [tableText, createText, List.append_assoc]
  rfl

namespace Reader

theorem statements_end (t : Text) : statements (';' :: '\n' :: t) = statements t := by
  have lineEnd : (gap ('\n' :: t)).2 = (gap t).2 := by rw [gap_of_not_startsToken rfl]
  rw [statements_eq, firstToken?_semicolon]
  exact statements_congr lineEnd

theorem statements_tableText (h : WritableTable t)
    (describes : ∀ c ∈ t.columns, Describes (spell c) c) (rest : Text) :
    statements (tableText spell t ++ rest) =
      .create ⟨t, columnRelationships t⟩ :: statements rest := by
  have alone : Standalone (bodyText spell t.columns) (')' :: ';' :: '\n' :: rest) :=
    standalone_bodyText h.columns describes rfl
  rw [tableText_eq, List.append_assoc, List.singleton_append,
    statements_createText (Spells.quoted t.name).standsFor alone, ofBody_bodyText h describes,
    statements_end]

end Reader

theorem standalone_end (b : Text) : Standalone [';', '\n'] b where
  balanced := ⟨rfl, rfl⟩
  commentFree := id
  splits := .mark rfl rfl (.gap rfl (.nil b))
  noReturn := by decide

theorem standalone_tableText (h : WritableTable t)
    (describes : ∀ c ∈ t.columns, Describes (spell c) c) (b : Text) :
    Standalone (tableText spell t) b := by
  have parts : tableText spell t = Text.ofString "CREATE" ++ (' ' :: Text.ofString "TABLE" ++
      (' ' :: quoted t.name ++ (' ' :: ('(' :: bodyText spell t.columns ++ [')']) ++
        [';', '\n']))) := by
    rw [tableText_eq, createText_append]
    simp
  have create (b : Text) : Inline (Text.ofString "CREATE") (' ' :: b) :=
    inline_of_isNameChar (by decide +kernel) rfl
  have table (b : Text) : Inline (Text.ofString "TABLE") (' ' :: b) :=
    inline_of_isNameChar (by decide +kernel) rfl
  have name (b : Text) : Inline (quoted t.name) (' ' :: b) := h.name.inline rfl
  have group (b : Text) : Inline ('(' :: bodyText spell t.columns ++ [')']) b :=
    .group (standalone_bodyText h.columns describes rfl)
  rw [parts]
  refine (create _).toStandalone.append ((table _).cons_space.toStandalone.append ?_)
  refine (name _).cons_space.toStandalone.append ?_
  exact (group _).cons_space.toStandalone.append (standalone_end b)

def script (spell : Table → Column → List Clause) (tables : List Table) : Text :=
  tables.flatMap fun t => tableText (spell t) t

section

variable {tables : List Table} {spell : Table → Column → List Clause}

theorem standalone_script (h : ∀ t ∈ tables, WritableTable t)
    (describes : ∀ t ∈ tables, ∀ c ∈ t.columns, Describes (spell t c) c) (b : Text) :
    Standalone (script spell tables) b := by
  induction tables with
  | nil => exact .nil b
  | cons t tables ih =>
    rw [List.forall_mem_cons] at h describes
    exact (standalone_tableText h.1 describes.1 _).append (ih h.2 describes.2)

theorem stripComments_script (h : ∀ t ∈ tables, WritableTable t)
    (describes : ∀ t ∈ tables, ∀ c ∈ t.columns, Describes (spell t c) c) :
    stripComments (script spell tables) = script spell tables := by
  have alone := standalone_script h describes []
  have free : Scan.start.commentFree (script spell tables) := by
    have all := alone.commentFree rfl
    rwa [List.append_nil] at all
  exact stripComments_of_commentFree alone.noReturn free

theorem statements_script (h : ∀ t ∈ tables, WritableTable t)
    (describes : ∀ t ∈ tables, ∀ c ∈ t.columns, Describes (spell t c) c) :
    Reader.statements (script spell tables) =
      (tables.map fun t => ⟨t, columnRelationships t⟩).map .create := by
  induction tables with
  | nil =>
    rw [Reader.statements_eq]
    rfl
  | cons t tables ih =>
    rw [List.forall_mem_cons] at h describes
    rw [script, List.flatMap_cons, Reader.statements_tableText h.1 describes.1, List.map_cons,
      List.map_cons]
    exact congrArg _ (ih h.2 describes.2)

theorem createdTables_create (l : List CreatedTable) :
    createdTables (l.map .create) = Text.firstOfEach (Text.lower ·.table.name) l := by
  unfold createdTables
  rw [List.filterMap_map]
  exact congrArg (Text.firstOfEach _) List.filterMap_some

theorem schemaOf_create {l : List CreatedTable}
    (distinct : (l.map (Text.lower ·.table.name)).Nodup) :
    schemaOf (l.map .create) =
      { tables := l.map (·.table)
        relationships := Text.firstOfEach Relationship.key (l.flatMap (·.relationships)) } := by
  have creates : ∀ s ∈ l.map Statement.create, s.isCreate := by simp [Statement.isCreate]
  rw [schemaOf_of_isCreate creates, createdTables_create, Text.firstOfEach_eq_self distinct]

/-- Whatever tables are written, in whatever order the clauses of each column stand, what is
extracted are these tables and the relationships of their foreign keys. -/
theorem extract_script (writable : ∀ t ∈ tables, WritableTable t)
    (distinct : (tables.map (Text.lower ·.name)).Nodup) :
    (∀ spell : Table → Column → List Clause,
      (∀ t ∈ tables, ∀ c ∈ t.columns, Describes (spell t c) c) →
        extract (script spell tables) =
          { tables, relationships := Text.firstOfEach Relationship.key
              (tables.flatMap columnRelationships) }) ∧
      ∀ t ∈ tables, ∀ c ∈ t.columns, Describes (plainClauses c) c := by
  refine ⟨fun spell describes => ?_, fun t ht c hc => ((writable t ht).columns c hc).describes⟩
  have created : ((tables.map fun t => (⟨t, columnRelationships t⟩ : CreatedTable)).map
      (Text.lower ·.table.name)).Nodup := by
    rw [List.map_map]
    exact distinct
  rw [extract, stripComments_script writable describes, statements_script writable describes,
    schemaOf_create created, List.map_map, List.flatMap_map]
  congr 1
  exact List.map_id _

end

/-- A table whose names and expressions look like SQL. -/
def pretenders : Table where
  name := Text.ofString "or\"ders; --"
  columns := [
    { name := Text.ofString "id", type := Text.ofString "BIGSERIAL"
      isPrimaryKey := true, isNotNull := true, isAutoIncrement := true },
    { name := Text.ofString "CHECK (", type := Text.ofString "NUMERIC(10, 2)[3][]"
      defaultValue := some (Text.ofString "round('/*, ''' || \"a, b\")")
      checkExpression := some (Text.ofString "(\")\" > (0))")
      foreignKey := some ⟨Text.ofString "or\"ders; --", Text.ofString "id"⟩ }]

theorem writableTable_pretenders : WritableTable pretenders where
  name := ⟨by decide, by decide⟩
  schema := rfl
  columns := by
    refine List.forall_mem_cons.2 ⟨?_, List.forall_mem_cons.2 ⟨?_, by simp⟩⟩
    · refine ⟨⟨by decide, by decide⟩, by decide, ?_, fun _ => rfl, fun _ => rfl, by simp, by simp,
        by simp⟩
      exact ⟨⟨[Text.ofString "BIGSERIAL"], none, [], by decide +kernel, by simp, by simp⟩, rfl⟩
    · refine ⟨⟨by decide, by decide⟩, by decide, ?_, by decide, by simp, ?_, ?_, ?_⟩
      · exact ⟨⟨[Text.ofString "NUMERIC"], some (Text.ofString "10, 2"), [Text.ofString "3", []],
          by decide +kernel, by decide +kernel, by decide +kernel⟩, rfl⟩
      · rintro _ ⟨⟩
        exact ⟨by decide, ⟨⟨rfl, rfl⟩, rfl, rfl, by decide, by decide⟩, rfl⟩
      · rintro _ ⟨⟩
        exact ⟨Text.ofString "\")\" > (0)", rfl, ⟨rfl, rfl⟩, rfl, rfl, by decide, by decide⟩
      · rintro _ ⟨⟩
        exact ⟨⟨by decide, by decide⟩, ⟨by decide, by decide⟩⟩
  distinct := by decide
  constraints := rfl

def pretendersText : Text :=
  Text.ofString "CREATE TABLE \"or\"\"ders; --\" (" ++
  Text.ofString "\"id\" BIGSERIAL PRIMARY KEY NOT NULL AUTO_INCREMENT, " ++
  Text.ofString "\"CHECK (\" NUMERIC(10, 2)[3][] DEFAULT round('/*, ''' || \"a, b\") " ++
  Text.ofString "CHECK (\")\" > (0)) REFERENCES \"or\"\"ders; --\" (\"id\"));\n"

theorem extract_pretenders :
    (∀ t ∈ [pretenders], WritableTable t) ∧ ([pretenders].map (Text.lower ·.name)).Nodup ∧
      extract pretendersText =
        { tables := [pretenders], relationships := columnRelationships pretenders } := by
  have writable : ∀ t ∈ [pretenders], WritableTable t := by simpa using writableTable_pretenders
  have distinct : ([pretenders].map (Text.lower ·.name)).Nodup := by decide
  have text : script (fun _ => plainClauses) [pretenders] = pretendersText := by decide +kernel
  have kept : Text.firstOfEach Relationship.key ([pretenders].flatMap columnRelationships) =
      columnRelationships pretenders := by
    decide +kernel
  obtain ⟨reads, describes⟩ := extract_script writable distinct
  refine ⟨writable, distinct, ?_⟩
  rw [← text, reads (fun _ => plainClauses) describes, kept]

end SchemaDiagram.Sql
