import SchemaDiagram.Proofs.Sql.ClauseLocality
import SchemaDiagram.Proofs.Sql.Concatenation
import SchemaDiagram.Proofs.Sql.Segments
import SchemaDiagram.Proofs.Sql.StatementText

/-!
# Constraints inside a table and added to it

A constraint says the same whether it is the last segment of a table's body or stands behind ADD in
a statement that alters the table right after.
-/

namespace SchemaDiagram.Sql

variable {body clause : Text}

theorem tokens_nil : tokens [] = [] := by
  rw [tokens_eq]
  rfl

theorem segments_append_constraint (hb : Balanced body) (hc : Closed clause)
    (begins : ConstraintOpening (tokens clause)) (uncut : Scan.start.avoids Scan.cuts clause) :
    segments (body ++ ',' :: ' ' :: clause) = segments body ++ [Text.trim clause] ∧
      SegmentKind.ofText (Text.trim clause) = .constraint := by
  obtain ⟨-, -, -, same, -⟩ := exists_trimmed hc
  have some : Text.trim clause ≠ [] := by
    intro none
    rw [none, tokens_nil] at same
    rw [← same] at begins
    cases begins
  have spaced : Text.trim (' ' :: clause) = Text.trim clause := rfl
  refine ⟨?_, ofText_of_constraintOpening (same ▸ begins)⟩
  rw [segments_append_comma hb, segments_of_uncut (t := ' ' :: clause) uncut (spaced ▸ some),
    spaced]

def constraintOf? (clause : Text) : Option Constraint := (Reader.tableConstraint? clause).1

def CreatedTable.constrain (created : CreatedTable) (ks : List Constraint) : CreatedTable where
  table := ks.foldl Table.constrain created.table
  relationships := created.relationships ++ ks.filterMap (·.relationship? created.table.name)

theorem CreatedTable.name_constrain (created : CreatedTable) (ks : List Constraint) :
    (created.constrain ks).table.name = created.table.name :=
  Table.name_foldl_constrain _ _

theorem ofBody_append_constraint (name : Text) (schema : Option Text) (hb : Balanced body)
    (hc : Closed clause) (begins : ConstraintOpening (tokens clause))
    (uncut : Scan.start.avoids Scan.cuts clause) :
    CreatedTable.ofBody name schema (body ++ ',' :: ' ' :: clause) =
      (CreatedTable.ofBody name schema body).constrain (constraintOf? (' ' :: clause)).toList := by
  obtain ⟨segs, kind⟩ := segments_append_constraint hb hc begins uncut
  have columns : bodyColumns (body ++ ',' :: ' ' :: clause) = bodyColumns body := by
    rw [bodyColumns, segs, List.filter_append, bodyColumns]
    simp [kind]
  have constraints : bodyConstraints (body ++ ',' :: ' ' :: clause) =
      bodyConstraints body ++ (constraintOf? (' ' :: clause)).toList := by
    rw [bodyConstraints, segs, List.filter_append, List.filterMap_append, bodyConstraints,
      constraintOf?, ← Reader.tableConstraint?_trim hc begins]
    congr 1
    cases h : (Reader.tableConstraint? (Text.trim clause)).1 with
    | none => simp [kind, h]
    | some k => simp [kind, h]
  have whole (created : CreatedTable) : created = ⟨created.table, created.relationships⟩ := rfl
  rw [whole (.ofBody name schema (body ++ ',' :: ' ' :: clause)), CreatedTable.table_ofBody,
    CreatedTable.relationships_ofBody, columns, constraints, List.foldl_append,
    List.filterMap_append, ← List.append_assoc, CreatedTable.constrain, CreatedTable.name_ofBody]
  rfl

variable {a : List Statement} {created : CreatedTable}

theorem constraintsFor_map (name n : Text) (ks : List Constraint) :
    constraintsFor name (ks.map (n, ·)) = if Text.SameName name n then ks else [] := by
  rw [constraintsFor, List.filter_map]
  split
  · next named => simp [Function.comp_def, named]
  · next other => simp [Function.comp_def, other]

theorem createdTables_append_create (h : (schemaOf a).lacks created.table) {others : List Statement}
    (alone : createdTables (.create created :: others) = [created]) :
    createdTables (a ++ .create created :: others) = createdTables a ++ [created] := by
  rw [createdTables_append, alone, List.filter_cons, if_pos h, List.filter_nil]

/-- Added to a table right behind its creation, a constraint makes of it what it makes inside. -/
theorem schemaOf_add (clause : Text) (creates : ∀ s ∈ a, s.isCreate)
    (h : (schemaOf a).lacks created.table) :
    schemaOf (a ++ [.create (created.constrain (constraintOf? clause).toList)]) =
      schemaOf (a ++ [.create created, .add created.table.name clause]) := by
  generalize hk : (constraintOf? clause).toList = ks
  have inside : createdTables (a ++ [.create (created.constrain ks)]) =
      createdTables a ++ [created.constrain ks] := by
    refine createdTables_append_create ?_ rfl
    rwa [Schema.lacks, CreatedTable.name_constrain]
  have outside : createdTables (a ++ [.create created, .add created.table.name clause]) =
      createdTables a ++ [created] :=
    createdTables_append_create h rfl
  have none : addedConstraints (a ++ [.create (created.constrain ks)]) = [] :=
    addedConstraints_of_isCreate (List.forall_mem_append.2 ⟨creates, by simp [Statement.isCreate]⟩)
  have added : addedConstraints (a ++ [.create created, .add created.table.name clause]) =
      ks.map (created.table.name, ·) := by
    rw [addedConstraints, List.filterMap_append, ← addedConstraints,
      addedConstraints_of_isCreate creates, List.nil_append, ← hk, constraintOf?]
    cases said : (Reader.tableConstraint? clause).1 <;> simp [said]
  have others : ∀ d ∈ createdTables a, ¬ Text.SameName d.table.name created.table.name :=
    lacks_schemaOf.1 h
  have tables : (schemaOf (a ++ [.create (created.constrain ks)])).tables =
      (schemaOf (a ++ [.create created, .add created.table.name clause])).tables := by
    rw [tables_schemaOf, tables_schemaOf, inside, outside, List.map_append, List.map_append]
    congr 1
    · refine List.map_congr_left fun d hd => ?_
      rw [altered, none, altered, added, constraintsFor_map, if_neg (others d hd)]
      rfl
    · rw [List.map_singleton, List.map_singleton, altered, none, altered, added,
        constraintsFor_map, if_pos (.refl _)]
      rfl
  have declared : declaredRelationships (a ++ [.create (created.constrain ks)]) =
      declaredRelationships (a ++ [.create created, .add created.table.name clause]) := by
    rw [declaredRelationships, declaredRelationships, inside, outside, none, added]
    simp [CreatedTable.constrain]
  have whole (l : List Statement) : schemaOf l = ⟨(schemaOf l).tables,
      Text.firstOfEach Relationship.key (declaredRelationships l)⟩ := rfl
  rw [whole, tables, declared, ← whole]

/-- The text of one constraint, well-formed or not, with no comma and no semicolon outside its
literals and parentheses. -/
structure ConstraintText (clause : Text) : Prop extends Closed clause where
  begins : ConstraintOpening (tokens clause)
  uncut : Scan.start.avoids Scan.cuts clause
  unended : Scan.start.avoids Scan.ends clause

variable {p n name : Text}

theorem stripComments_createText (clean : Clean n) (hb : Closed body) :
    stripComments (createText n body) = createText (unifyLineEnds n) body := by
  have free : Clean (createText n body ++ []) := clean.createText hb.clean ⟨rfl, rfl⟩
  have unified := unifyLineEnds_createText hb.noReturn n []
  rw [List.append_nil] at free
  rw [unifyLineEnds, List.append_nil, List.append_nil] at unified
  rw [stripComments_eq_unifyLineEnds free.commentFree, unified]

theorem stripComments_addText (clean : Clean n) (hb : Closed body) (hc : Closed clause) :
    stripComments (createText n body ++ ' ' :: addText n clause) =
      createText (unifyLineEnds n) body ++ ' ' :: addText (unifyLineEnds n) clause := by
  have added : Clean (addText n clause ++ []) := clean.addText hc.clean ⟨rfl, rfl⟩
  have free := clean.createText hb.clean (added.behind (a := [' ']) (by decide))
  have unified := unifyLineEnds_addText hc.noReturn n []
  rw [List.append_nil] at free
  rw [unifyLineEnds, List.append_nil, List.append_nil] at unified
  have spaced : unifyLineEnds (' ' :: addText n clause) =
      ' ' :: addText (unifyLineEnds n) clause :=
    congrArg (' ' :: ·) unified
  rw [List.singleton_append] at free
  rw [stripComments_eq_unifyLineEnds free.commentFree, unifyLineEnds_createText hb.noReturn, spaced]

theorem statements_created (spells : Spells n name) (hb : Closed body) :
    Reader.statements (createText n body) = [.create (.ofBody name none body)] := by
  have delimited : Delimited (')' :: ';' :: []) := rfl
  have read := Reader.statements_createText spells.standsFor (hb.standalone delimited)
  rwa [List.append_nil, Reader.statements_semicolon, Reader.statements_nil] at read

theorem statements_added (spells : Spells n name) (hb : Closed body) (hc : ConstraintText clause) :
    Reader.statements (createText n body ++ ' ' :: addText n clause) =
      [.create (.ofBody name none body), .add name (' ' :: clause)] := by
  have delimited : Delimited (')' :: ';' :: ' ' :: addText n clause) := rfl
  have ended : Delimited (';' :: []) := rfl
  have added := Reader.statements_addText spells.standsFor (hc.standalone ended) hc.unended
  have spaced :
      Reader.statements (' ' :: addText n clause) = Reader.statements (addText n clause) :=
    Reader.statements_congr (by rw [gap_of_not_startsToken rfl])
  rw [List.append_nil, Reader.statements_semicolon, Reader.statements_nil] at added
  rw [Reader.statements_createText spells.standsFor (hb.standalone delimited),
    Reader.statements_semicolon, spaced, added]

/-- A constraint at the end of a table's body says what it says when it is added to the table right
after: the tables are the same, and so are the relationships. Every name without a backslash is
clean (`Spells.clean`), and its line ends are read as single characters. -/
theorem extract_addText (closed : ClosedScript p) (alterFree : AlterFree (stripComments p))
    (spells : Spells n name) (clean : Clean n)
    (fresh : ∀ t ∈ (extract p).tables, ¬ Text.SameName t.name (unifyLineEnds name))
    (hb : Closed body) (hc : ConstraintText clause) :
    extract (p ++ createText n (body ++ ',' :: ' ' :: clause)) =
      extract (p ++ (createText n body ++ ' ' :: addText n clause)) := by
  have whole : Closed (body ++ ',' :: ' ' :: clause) :=
    hb.append ((hc.cons rfl).cons rfl) rfl
  have created := ofBody_append_constraint (unifyLineEnds name) none hb.balanced hc.toClosed
    hc.begins hc.uncut
  have lacks : (schemaOf (Reader.statements (stripComments p))).lacks
      (CreatedTable.ofBody (unifyLineEnds name) none body).table := by
    rw [Schema.lacks_iff, CreatedTable.name_ofBody]
    exact fresh
  rw [extract, extract, statements_closedScript closed, statements_closedScript closed,
    stripComments_createText clean whole, statements_created spells.unifyLineEnds whole, created,
    stripComments_addText clean hb hc.toClosed, statements_added spells.unifyLineEnds hb hc]
  have same := schemaOf_add (' ' :: clause) (Reader.isCreate_statements alterFree) lacks
  rwa [CreatedTable.name_ofBody] at same

def shopScript : Text := Text.ofString "CREATE TABLE shop (id INT)" ++ [';']

theorem closedScript_shopScript : ClosedScript shopScript :=
  .ended (by decide +kernel) (by decide +kernel) (by decide +kernel) (by decide +kernel)

/-- A backslash that takes no quote with it. -/
def oldOrder : Text := Text.ofString "old\\order"

def orderBody : Text := Text.ofString "shop INT"

def shopKey : Text := Text.ofString "FOREIGN KEY (shop) REFERENCES Shop (id)"

theorem constraintText_shopKey : ConstraintText shopKey where
  toClosed := by decide +kernel
  begins := by
    have first : firstToken? shopKey = some (.keyword .foreign (Text.ofString "FOREIGN"),
        Text.ofString " KEY (shop) REFERENCES Shop (id)") := by decide +kernel
    exact .of_firstToken? first (by decide)
  uncut := by decide +kernel
  unended := by decide +kernel

theorem extract_shopKey_added :
    extract (shopScript ++ createText (quoted oldOrder) (orderBody ++ ',' :: ' ' :: shopKey)) =
        extract (shopScript ++
          (createText (quoted oldOrder) orderBody ++ ' ' :: addText (quoted oldOrder) shopKey)) ∧
      (extract (shopScript ++
        createText (quoted oldOrder) (orderBody ++ ',' :: ' ' :: shopKey))).relationships.map
          (·.target.table) = [Text.ofString "Shop"] := by
  refine ⟨?_, by decide +kernel⟩
  exact extract_addText closedScript_shopScript (by decide +kernel) (.quoted oldOrder)
    (by decide +kernel) (by decide +kernel) (by decide +kernel) constraintText_shopKey

/-- A backslash that takes the quote at the end with it. -/
def misquoted : Text := ['\'', '\\']

def pairBody : Text := Text.ofString "b TEXT"

def pairKey : Text := Text.ofString "UNIQUE (b, \"--\")"

theorem constraintText_pairKey : ConstraintText pairKey where
  toClosed := by decide +kernel
  begins := by
    have first : firstToken? pairKey = some (.keyword .unique (Text.ofString "UNIQUE"),
        Text.ofString " (b, \"--\")") := by decide +kernel
    exact .of_firstToken? first (by decide)
  uncut := by decide +kernel
  unended := by decide +kernel

/-- Behind a name that is not clean, the scan takes a part of the body for a comment. -/
theorem extract_misquoted_differs :
    (ClosedScript [] ∧ AlterFree (stripComments []) ∧ (extract []).tables = [] ∧
      Spells (quoted misquoted) misquoted ∧ Closed pairBody ∧ ConstraintText pairKey) ∧
      extract ([] ++ createText (quoted misquoted) (pairBody ++ ',' :: ' ' :: pairKey)) ≠
        extract ([] ++ (createText (quoted misquoted) pairBody ++
          ' ' :: addText (quoted misquoted) pairKey)) := by
  refine ⟨⟨.nil, ?_, ?_, .quoted misquoted, ?_, constraintText_pairKey⟩, ?_⟩
  all_goals decide +kernel

end SchemaDiagram.Sql
