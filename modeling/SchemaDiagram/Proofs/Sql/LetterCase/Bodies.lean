import SchemaDiagram.Proofs.Sql.LetterCase.Clauses
import SchemaDiagram.Proofs.Sql.LetterCase.ColumnTypes

/-!
# Table bodies and letter case

The body of a table in lower case holds the same segments of the same kinds, and they define the
same columns and constraints in lower case, the types as they were.
-/

namespace SchemaDiagram.Sql

open Text (lower)

theorem SegmentKind.ofToken?_lowered (token : Option Token) :
    ofToken? (token.map Token.lowered) = ofToken? token := by
  cases token with
  | none => rfl
  | some token =>
    cases token with
    | name n =>
      simp only [Option.map_some, Token.lowered, ofToken?, Text.isAmong_lower_left]
    | _ => rfl

theorem SegmentKind.ofText_lower (segment : Text) : ofText (lower segment) = ofText segment := by
  have read : (tokenize (lower segment)).map Lexeme.token =
      ((tokenize segment).map Lexeme.token).map Token.lowered := tokens_lower segment
  rw [ofText, read, ofText]
  rcases (tokenize segment).map Lexeme.token with _ | ⟨token, tokens⟩
  · rfl
  · cases token with
    | keyword k spelled =>
      cases k with
      | constraint =>
        have second : (tokens.map Token.lowered)[1]? = tokens[1]?.map Token.lowered :=
          List.getElem?_map
        exact (congrArg ofToken? second).trans (ofToken?_lowered tokens[1]?)
      | _ => rfl
    | name n => exact ofToken?_lowered (some (.name n))
    | _ => rfl

theorem Clause.contains_lowered {mark : Clause}
    (h : mark ∈ [.primaryKey, .notNull, .unique, .autoIncrement]) (clauses : List Clause) :
    (clauses.map Clause.lowered).contains mark = clauses.contains mark := by
  have same (clause : Clause) : clause.lowered = mark ↔ clause = mark := by
    simp only [List.mem_cons, List.not_mem_nil, or_false] at h
    rcases h with rfl | rfl | rfl | rfl <;> cases clause <;> simp [lowered]
  rw [Bool.eq_iff_iff, List.contains_iff_mem, List.contains_iff_mem, List.mem_map]
  simp [same]

theorem Clause.column_lowered (name : Text) (type : Option ColumnType) (clauses : List Clause) :
    Clause.column (lower name) (type.map ColumnType.lowered) (clauses.map Clause.lowered) =
      (Clause.column name type clauses).lowered id := by
  have last {α : Type} (f : α → α) (part : Clause → Option α)
      (h : ∀ clause, part clause.lowered = (part clause).map f) :
      (clauses.map Clause.lowered).reverse.findSome? part =
        (clauses.reverse.findSome? part).map f := by
    rw [← List.map_reverse, List.findSome?_map, List.map_findSome?]
    exact congrArg (List.findSome? · clauses.reverse) (funext h)
  have names : ((type.map ColumnType.lowered).map ColumnType.name).getD [] =
      (type.map ColumnType.name).getD [] := by
    cases type <;> rfl
  have serial : (type.map ColumnType.lowered).any ColumnType.isSerial =
      type.any ColumnType.isSerial := by
    cases type <;> rfl
  simp only [Clause.column, Column.lowered, names, serial, contains_lowered, List.mem_cons, true_or,
    or_true, id]
  congr 1
  · exact last lower _ fun clause => by cases clause <;> rfl
  · exact last lower _ fun clause => by cases clause <;> rfl
  · refine last ForeignKey.lowered _ fun clause => ?_
    cases clause with
    | references target =>
      simp only [lowered, Reference.lowered, referencedColumn_lower]
      rfl
    | _ => rfl

theorem columnRelationship?_lowered (table : Text) (c : Column) :
    columnRelationship? (lower table) (c.lowered id) =
      (columnRelationship? table c).map Relationship.lowered := by
  rw [columnRelationship?, columnRelationship?, Column.lowered, Option.map_map, Option.map_map]
  congr 1
  funext fk
  simp only [Function.comp_apply, Relationship.lowered, Relationship.lower, Endpoint.lower,
    ForeignKey.lowered, lower_ownName, List.map_cons, List.map_nil]

theorem column?_lower (segment : Text) :
    column? (lower segment) = (column? segment).map (Column.lowered id) := by
  rw [column?, Reader.Folds.name? segment, column?]
  rcases Reader.name? segment with ⟨_ | name, rest⟩
  · rfl
  · have left :
        (((columnType? rest).map ColumnType.lowered).map ColumnType.rest).getD (lower rest) =
          lower (((columnType? rest).map ColumnType.rest).getD rest) := by
      cases columnType? rest <;> rfl
    simp only [Prod.map, Option.map_some, columnType?_lower, left, Reader.clauses_lower,
      Clause.column_lowered]

theorem ofKind_lower (kind : SegmentKind) (body : Text) :
    (segments (lower body)).filter (SegmentKind.ofText · = kind) =
      ((segments body).filter (SegmentKind.ofText · = kind)).map lower := by
  rw [segments_lower, List.filter_map]
  simp only [Function.comp_def, SegmentKind.ofText_lower]

theorem bodyColumns_lower (body : Text) :
    bodyColumns (lower body) = (bodyColumns body).map (Column.lowered id) := by
  have key : (fun c => lower c.name) ∘ Column.lowered id = fun c => lower c.name :=
    funext fun c => Text.lower_lower c.name
  have read (parts : List Text) :
      (parts.map lower).filterMap column? = (parts.filterMap column?).map (Column.lowered id) := by
    rw [List.filterMap_map, List.map_filterMap]
    exact congrArg (List.filterMap · parts) (funext column?_lower)
  rw [bodyColumns, ofKind_lower, read, Text.firstOfEach_map, key, bodyColumns]

theorem bodyConstraints_lower (body : Text) :
    bodyConstraints (lower body) = (bodyConstraints body).map Constraint.lowered := by
  rw [bodyConstraints, ofKind_lower, List.filterMap_map, bodyConstraints, List.map_filterMap]
  congr 1
  funext segment
  exact congrArg Prod.fst (Reader.Folds.tableConstraint? segment)

def CreatedTable.lowered (c : CreatedTable) : CreatedTable :=
  ⟨c.table.lowered id, c.relationships.map Relationship.lowered⟩

theorem CreatedTable.ofBody_lower (name : Text) (schema : Option Text) (body : Text) :
    ofBody (lower name) (schema.map lower) (lower body) = (ofBody name schema body).lowered := by
  have table : (ofBody (lower name) (schema.map lower) (lower body)).table =
      (ofBody name schema body).table.lowered id := by
    rw [table_ofBody, bodyColumns_lower, bodyConstraints_lower, table_ofBody,
      ← Table.foldl_constrain_lowered]
    rfl
  have relationships : (ofBody (lower name) (schema.map lower) (lower body)).relationships =
      (ofBody name schema body).relationships.map Relationship.lowered := by
    rw [relationships_ofBody, bodyColumns_lower, bodyConstraints_lower, relationships_ofBody,
      List.map_append, List.filterMap_map, List.filterMap_map, List.map_filterMap,
      List.map_filterMap]
    simp only [Function.comp_def, columnRelationship?_lowered, Constraint.relationship?_lowered]
  rw [lowered, ← table, ← relationships]

end SchemaDiagram.Sql
