import SchemaDiagram.Proofs.Sql.Alterations
import SchemaDiagram.Proofs.Sql.Locality

/-!
# Scripts one behind the other

Behind a script whose last statement has ended, any text is read as it is on its own. What the first
script declares stays, what the other one declares is added, except for tables of the same names.
-/

namespace SchemaDiagram

def Schema.lacks (s : Schema) (t : Table) : Bool := (s.table? t.name).isNone

theorem Schema.lacks_iff {s : Schema} {t : Table} :
    s.lacks t ↔ ∀ u ∈ s.tables, ¬ Text.SameName u.name t.name := by
  simp [lacks, table?]

def Table.outline (t : Table) : Text × List Text := (t.name, t.columns.map (·.name))

theorem Table.Within.outline {t u : Table} (h : t.Within u) : u.outline = t.outline := by
  have columns : u.columns.map (·.name) = t.columns.map (·.name) := by
    have names := h.columns.flip.imp fun d c within => (within.name : d.name = c.name)
    rw [← List.forall₂_eq_eq_eq]
    exact List.forall₂_map_left_iff.2 (List.forall₂_map_right_iff.2 names)
  rw [Table.outline, Table.outline, h.name, columns]

theorem map_outline_of_within {ts us : List Table} (h : List.Forall₂ Table.Within ts us) :
    us.map Table.outline = ts.map Table.outline := by
  have outlines := h.flip.imp fun u t within => (within.outline : u.outline = t.outline)
  rw [← List.forall₂_eq_eq_eq]
  exact List.forall₂_map_left_iff.2 (List.forall₂_map_right_iff.2 outlines)

namespace Sql

variable {a b : List Statement}

theorem lacks_schemaOf {t : Table} :
    (schemaOf a).lacks t ↔
      ∀ created ∈ createdTables a, ¬ Text.SameName created.table.name t.name := by
  rw [Schema.lacks_iff, tables_schemaOf, List.forall_mem_map]
  simp only [name_altered]

theorem createdTables_append (a b : List Statement) :
    createdTables (a ++ b) =
      createdTables a ++
        (createdTables b).filter fun created => (schemaOf a).lacks created.table := by
  unfold createdTables
  rw [List.filterMap_append, Text.firstOfEach_append]
  congr 1
  refine List.filter_congr fun created _ => ?_
  rw [Bool.eq_iff_iff, decide_eq_true_iff, lacks_schemaOf]
  exact Text.forall_mem_firstOfEach (p := fun n => Text.lower created.table.name ≠ n).symm.trans
    (forall₂_congr fun _ _ => ne_comm)

/-- The tables of the first list stay, with what the other list adds to them, and those of the other
list follow unless they are there already. -/
theorem tables_schemaOf_append (a b : List Statement) :
    (schemaOf (a ++ b)).tables =
      (schemaOf a).tables.map (altered b) ++
        ((createdTables b).filter fun created => (schemaOf a).lacks created.table).map
          fun created => altered b (altered a created.table) := by
  rw [tables_schemaOf, createdTables_append, List.map_append, tables_schemaOf, List.map_map]
  simp only [altered_append]
  rfl

theorem filter_lacks_tables (a b : List Statement) :
    (schemaOf b).tables.filter (schemaOf a).lacks =
      ((createdTables b).filter fun created => (schemaOf a).lacks created.table).map
        fun created => altered b created.table := by
  have name (t : Table) : (schemaOf a).lacks (altered b t) = (schemaOf a).lacks t := by
    rw [Schema.lacks, name_altered, Schema.lacks]
  rw [tables_schemaOf b, List.filter_map]
  simp only [Function.comp_def, name]

theorem schemaOf_append_within (a b : List Statement) :
    List.Forall₂ Table.Within
      ((schemaOf a).tables ++ (schemaOf b).tables.filter (schemaOf a).lacks)
      (schemaOf (a ++ b)).tables := by
  rw [tables_schemaOf_append, filter_lacks_tables]
  refine List.rel_append ?_ ?_
  · exact List.forall₂_map_right_iff.2 (List.forall₂_same.2 fun t _ => within_altered b t)
  · refine List.forall₂_map_left_iff.2 (List.forall₂_map_right_iff.2 (List.forall₂_same.2 ?_))
    exact fun created _ => altered_mono (within_altered a created.table) b

theorem tables_schemaOf_append_of_isCreate (ha : ∀ s ∈ a, s.isCreate) (hb : ∀ s ∈ b, s.isCreate) :
    (schemaOf (a ++ b)).tables =
      (schemaOf a).tables ++ (schemaOf b).tables.filter (schemaOf a).lacks := by
  have still {l : List Statement} (h : ∀ s ∈ l, s.isCreate) : altered l = id := by
    funext t
    rw [altered, addedConstraints_of_isCreate h]
    rfl
  rw [tables_schemaOf_append, filter_lacks_tables, still ha, still hb, List.map_id]
  rfl

/-- No table of the schema has the name of the one that the relationship starts from. -/
def lacksSource (s : Schema) (r : Relationship) : Bool := s.lacks { name := r.source.table }

theorem flatMap_filter_lacks (s : Schema) {l : List CreatedTable}
    (own : ∀ created ∈ l, ∀ r ∈ created.relationships, r.source.table = created.table.name) :
    (l.filter fun created => s.lacks created.table).flatMap (·.relationships) =
      (l.flatMap (·.relationships)).filter (lacksSource s) := by
  induction l with
  | nil => rfl
  | cons created l ih =>
    rw [List.forall_mem_cons] at own
    have same : ∀ r ∈ created.relationships, lacksSource s r = s.lacks created.table := by
      intro r hr
      rw [lacksSource, Schema.lacks, own.1 r hr, Schema.lacks]
    rw [List.flatMap_cons, List.filter_append, ← ih own.2, List.filter_cons,
      List.filter_congr same]
    cases s.lacks created.table with
    | true => simp
    | false => simp

theorem lacksSource_congr (s : Schema) {r r' : Relationship}
    (same : Text.SameName r.source.table r'.source.table) : lacksSource s r = lacksSource s r' := by
  rw [Bool.eq_iff_iff, lacksSource, lacksSource, Schema.lacks_iff, Schema.lacks_iff]
  exact forall₂_congr fun u _ => not_congr ⟨fun h => h.trans same, fun h => h.trans same.symm⟩

theorem exists_table_of_mem_flatMap (h : ∀ s ∈ a, s.isCreate)
    (own : ∀ created ∈ createdTables a, ∀ r ∈ created.relationships,
      r.source.table = created.table.name)
    {r : Relationship} (hr : r ∈ (createdTables a).flatMap (·.relationships)) :
    ∃ t ∈ (schemaOf a).tables, r.source.table = t.name := by
  obtain ⟨created, mem, hr⟩ := List.mem_flatMap.1 hr
  rw [schemaOf_of_isCreate h]
  exact ⟨created.table, List.mem_map_of_mem mem, own created mem r hr⟩

/-- Where the names of tables hold no point, relationships of different tables have different
keys. -/
theorem relationships_schemaOf_append (ha : ∀ s ∈ a, s.isCreate) (hb : ∀ s ∈ b, s.isCreate)
    (ownA : ∀ created ∈ createdTables a, ∀ r ∈ created.relationships,
      r.source.table = created.table.name)
    (ownB : ∀ created ∈ createdTables b, ∀ r ∈ created.relationships,
      r.source.table = created.table.name)
    (noPoint : ∀ t ∈ (schemaOf a).tables ++ (schemaOf b).tables, '.' ∉ t.name) :
    (schemaOf (a ++ b)).relationships =
      (schemaOf a).relationships ++
        (schemaOf b).relationships.filter (lacksSource (schemaOf a)) := by
  have pointA : ∀ r ∈ (createdTables a).flatMap (·.relationships), '.' ∉ r.source.table := by
    intro r hr
    obtain ⟨t, ht, source⟩ := exists_table_of_mem_flatMap ha ownA hr
    exact source ▸ noPoint t (List.mem_append_left _ ht)
  have pointB : ∀ r ∈ (createdTables b).flatMap (·.relationships), '.' ∉ r.source.table := by
    intro r hr
    obtain ⟨t, ht, source⟩ := exists_table_of_mem_flatMap hb ownB hr
    exact source ▸ noPoint t (List.mem_append_right _ ht)
  have commutes : Text.firstOfEach Relationship.key
        (((createdTables b).flatMap (·.relationships)).filter (lacksSource (schemaOf a))) =
      (schemaOf b).relationships.filter (lacksSource (schemaOf a)) := by
    rw [schemaOf_of_isCreate hb]
    refine Text.firstOfEach_filter fun r hr s hs eq => lacksSource_congr _ ?_
    exact Relationship.sameName_source_of_key_eq (pointB r hr) (pointB s hs) eq
  have apart : ∀ r ∈ (schemaOf b).relationships.filter (lacksSource (schemaOf a)),
      ∀ s ∈ (createdTables a).flatMap (·.relationships), r.key ≠ s.key := by
    intro r hr s hs eq
    rw [schemaOf_of_isCreate hb] at hr
    obtain ⟨hr, lacks⟩ := List.mem_filter.1 hr
    have same := Relationship.sameName_source_of_key_eq
      (pointB r ((Text.firstOfEach_sublist _).subset hr)) (pointA s hs) eq
    obtain ⟨t, ht, source⟩ := exists_table_of_mem_flatMap ha ownA hs
    exact Schema.lacks_iff.1 lacks t ht (source ▸ same.symm)
  have kept := List.filter_eq_self.2 fun r hr => decide_eq_true (apart r hr)
  have first : (schemaOf a).relationships =
      Text.firstOfEach Relationship.key ((createdTables a).flatMap (·.relationships)) := by
    rw [schemaOf_of_isCreate ha]
  rw [schemaOf_of_isCreate (List.forall_mem_append.2 ⟨ha, hb⟩), createdTables_append,
    List.flatMap_append, flatMap_filter_lacks _ ownB]
  dsimp only
  rw [Text.firstOfEach_append, commutes, kept, first]

/-- A script that is empty or whose last statement has ended: the semicolon stands outside comments
and literals, and no parenthesis is open there. -/
inductive ClosedScript : Text → Prop where
  | nil : ClosedScript []
  | ended {p : Text} : (∀ c ∈ p, c ∉ ['\r', '\x60', '[', '\\']) →
      stripComments (p ++ [';']) = stripComments p ++ [';'] →
      (Scan.start.run (stripComments p)).place = .plain →
      Balanced (stripComments (p ++ [';'])) → ClosedScript (p ++ [';'])

theorem Scan.avoids_opensName_of_not_mem {s : Scan} {t : Text}
    (h : ∀ c ∈ t, c ≠ '\x60' ∧ c ≠ '[') : s.avoids opensName t := by
  induction t generalizing s with
  | nil => rfl
  | cons c t ih =>
    rw [List.forall_mem_cons] at h
    rw [avoids, ih h.2]
    simp [opensName, h.1]

theorem completes_of_ended {p : Text} (marks : ∀ c ∈ p, c ∉ ['\r', '\x60', '[', '\\'])
    (stays : stripComments (p ++ [';']) = stripComments p ++ [';'])
    (plain : (Scan.start.run (stripComments p)).place = .plain)
    (balanced : Balanced (stripComments (p ++ [';']))) :
    Completes .start (stripComments p) := by
  have noReturn : '\r' ∉ p := fun mem => marks '\r' mem (by simp)
  have left : ∀ c ∈ stripComments p, c ∉ ['\x60', '[', '\\'] := by
    intro c hc mark
    rw [stripComments, unifyLineEnds_of_not_mem noReturn] at hc
    rcases Scan.mem_of_mem_uncomment hc with mem | rfl
    · exact marks c mem (List.mem_cons_of_mem _ mark)
    · simp at mark
  have returns := balanced.returns
  have never := balanced.stays
  rw [stays, Scan.run_append, Scan.run_ordinary plain (by decide)] at returns
  rw [stays, Scan.avoids_append, Bool.and_eq_true] at never
  exact {
    plain := rfl
    nonneg := Int.le_refl _
    stays := never.1
    returns
    known := Scan.avoids_opensName_of_not_mem fun c hc => by
      have notMark := left c hc
      simp only [List.mem_cons, List.not_mem_nil, or_false, not_or] at notMark
      exact ⟨notMark.1, notMark.2.1⟩
    noBackslash := fun mem => left '\\' mem (by simp) }

theorem statements_closedScript {p : Text} (h : ClosedScript p) (t : Text) :
    Reader.statements (stripComments (p ++ t)) =
      Reader.statements (stripComments p) ++ Reader.statements (stripComments t) := by
  cases h with
  | nil =>
    have noComment : stripComments [] = [] := by simp [stripComments, unifyLineEnds, Scan.uncomment]
    rw [List.nil_append, noComment, Reader.statements_nil, List.nil_append]
  | @ended p marks stays plain balanced =>
    have completes := completes_of_ended marks stays plain balanced
    have noReturn : '\r' ∉ p := fun mem => marks '\r' mem (by simp)
    have text := stripComments_semicolon noReturn stays completes.returns t
    rw [List.append_assoc, List.singleton_append, text, stays]
    exact Reader.statements_append ⟨_, completes⟩ _

/-- Behind a closed script any text declares what it declares on its own. The tables of the script
stay with all that is known of them, changed by nothing but what the text adds to them; those of the
text follow, without the ones whose name is taken. If nothing is altered, no table changes at all,
and the relationships follow in the same way. -/
theorem extract_append {p t : Text} (closed : ClosedScript p) :
    let before := extract p
    let behind := extract t
    let whole := extract (p ++ t)
    let fresh := behind.tables.filter before.lacks
    whole.tables.map Table.outline = (before.tables ++ fresh).map Table.outline ∧
      List.Forall₂ Table.Within (before.tables ++ fresh) whole.tables ∧
      whole.tables.take before.tables.length =
        before.tables.map (altered (Reader.statements (stripComments t))) ∧
      (AlterFree (stripComments p) → AlterFree (stripComments t) →
        whole.tables = before.tables ++ fresh ∧
          ((∀ u ∈ before.tables ++ behind.tables, '.' ∉ u.name) →
            whole.relationships =
              before.relationships ++ behind.relationships.filter (lacksSource before))) := by
  intro before behind whole fresh
  have both : whole = schemaOf (Reader.statements (stripComments p) ++
      Reader.statements (stripComments t)) :=
    congrArg schemaOf (statements_closedScript closed t)
  have within : List.Forall₂ Table.Within (before.tables ++ fresh) whole.tables :=
    both ▸ schemaOf_append_within _ _
  have taken : whole.tables.take before.tables.length =
      before.tables.map (altered (Reader.statements (stripComments t))) := by
    rw [both, tables_schemaOf_append]
    exact List.take_left' (List.length_map ..)
  refine ⟨map_outline_of_within within, within, taken, fun alterP alterT => ⟨?_, fun noPoint => ?_⟩⟩
  · rw [both]
    exact tables_schemaOf_append_of_isCreate (Reader.isCreate_statements alterP)
      (Reader.isCreate_statements alterT)
  · rw [both]
    exact relationships_schemaOf_append (Reader.isCreate_statements alterP)
      (Reader.isCreate_statements alterT) (fun _ h => source_of_created h)
      (fun _ h => source_of_created h) noPoint

def endedBody : Text :=
  Text.ofString "CREATE TABLE a (id INT PRIMARY KEY, -- it's (one)\n" ++
    Text.ofString "d TEXT DEFAULT ';)' REFERENCES b (id))"

def brokenScript : Text :=
  Text.ofString
    "CREATE TABLE A (x INT); CREATE TABLE c (a INT REFERENCES a (id)); CREATE TABLE e (y 'z"

theorem closedScript_endedBody : ClosedScript (endedBody ++ [';']) :=
  .ended (by decide +kernel) (by decide +kernel) (by decide +kernel)
    (by decide +kernel)

theorem extract_brokenScript_appended :
    ClosedScript (endedBody ++ [';']) ∧ AlterFree (stripComments (endedBody ++ [';'])) ∧
      AlterFree (stripComments brokenScript) ∧
      (extract (endedBody ++ [';'] ++ brokenScript)).tables.map (·.name) = [['a'], ['c']] ∧
      (extract (endedBody ++ [';'] ++ brokenScript)).relationships.map (·.name) =
        [Text.ofString "fk_a_d", Text.ofString "fk_c_a"] := by
  have alterFirst : AlterFree (stripComments (endedBody ++ [';'])) := by decide +kernel
  have alterSecond : AlterFree (stripComments brokenScript) := by decide +kernel
  -- one evaluation of both scripts for all three
  have declared :
      (∀ u ∈ (extract (endedBody ++ [';'])).tables ++ (extract brokenScript).tables,
        '.' ∉ u.name) ∧
      ((extract (endedBody ++ [';'])).tables ++
        (extract brokenScript).tables.filter (extract (endedBody ++ [';'])).lacks).map (·.name) =
          [['a'], ['c']] ∧
      ((extract (endedBody ++ [';'])).relationships ++ (extract brokenScript).relationships.filter
        (lacksSource (extract (endedBody ++ [';'])))).map (·.name) =
          [Text.ofString "fk_a_d", Text.ofString "fk_c_a"] := by
    decide +kernel
  obtain ⟨noPoint, names, sources⟩ := declared
  obtain ⟨-, -, -, exact⟩ := extract_append closedScript_endedBody (t := brokenScript)
  obtain ⟨tables, relationships⟩ := exact alterFirst alterSecond
  refine ⟨closedScript_endedBody, alterFirst, alterSecond, ?_, ?_⟩
  · rw [tables, names]
  · rw [relationships noPoint, sources]

end Sql

end SchemaDiagram
