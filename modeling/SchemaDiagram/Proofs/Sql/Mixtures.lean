import SchemaDiagram.Proofs.Sql.Concatenation
import SchemaDiagram.Proofs.Sql.Splitting
import SchemaDiagram.Proofs.Sql.StatementText
import SchemaDiagram.Proofs.Sql.TokenLocality

/-!
# Mixtures of segments

Columns, constraints and index definitions stand in the body of a table in any mixture. What the
table is depends on the columns in their order and on the constraints in theirs, but not on how the
two are mixed, and not on the index definitions at all.
-/

namespace SchemaDiagram.Sql

/-- The table that these columns and constraints make. -/
def CreatedTable.ofParts (name : Text) (schema : Option Text) (columns constraints : List Text) :
    CreatedTable :=
  let columns := Text.firstOfEach (Text.lower ·.name) (columns.filterMap column?)
  let constraints := constraints.filterMap fun s => (Reader.tableConstraint? s).1
  { table := constraints.foldl Table.constrain { name, schema, columns }
    relationships :=
      columns.filterMap (columnRelationship? name) ++
        constraints.filterMap (Constraint.relationship? name) }

/-- The last list is a mixture of the three others, each of them in its order. The kind of a text is
the one that a body finds, without the white space around it. -/
inductive Mixture : List Text → List Text → List Text → List Text → Prop where
  | nil : Mixture [] [] [] []
  | column {s columns constraints indexes mixed} : SegmentKind.ofText (Text.trim s) = .column →
      Mixture columns constraints indexes mixed →
      Mixture (s :: columns) constraints indexes (s :: mixed)
  | constraint {s columns constraints indexes mixed} :
      SegmentKind.ofText (Text.trim s) = .constraint →
      Mixture columns constraints indexes mixed →
      Mixture columns (s :: constraints) indexes (s :: mixed)
  | index {s columns constraints indexes mixed} : SegmentKind.ofText (Text.trim s) = .index →
      Mixture columns constraints indexes mixed →
      Mixture columns constraints (s :: indexes) (s :: mixed)

/-- A text that stands between two commas as a whole: its literals end, its parentheses come in
pairs, and no comma stands outside them. -/
structure BodyPart (s : Text) : Prop where
  balanced : Balanced s
  uncut : Uncut s

instance (s : Text) : Decidable (BodyPart s) :=
  decidable_of_iff (Balanced s ∧ Uncut s)
    ⟨fun ⟨balanced, uncut⟩ => ⟨balanced, uncut⟩, fun ⟨balanced, uncut⟩ => ⟨balanced, uncut⟩⟩

def trimmedParts (ss : List Text) : List Text := (ss.map Text.trim).filter (!·.isEmpty)

theorem trimmedParts_cons (s : Text) (ss : List Text) :
    trimmedParts (s :: ss) = trimmedParts [s] ++ trimmedParts ss :=
  List.filter_append [Text.trim s] (ss.map Text.trim)

theorem segments_parts {ss : List Text} (h : ∀ s ∈ ss, BodyPart s) :
    segments (Text.join [','] ss) = trimmedParts ss := by
  induction ss with
  | nil => rfl
  | cons s ss ih =>
    rw [List.forall_mem_cons] at h
    have alone : segments s = trimmedParts [s] := by
      rw [segments_eq, pieces_of_uncut h.1.uncut]
      rfl
    by_cases last : ss = []
    · rw [last]
      simpa [Text.join] using alone
    · rw [join_comma_cons last, segments_append_comma h.1.balanced, alone, ih h.2,
        ← trimmedParts_cons]

def partsOfKind (kind : SegmentKind) (ss : List Text) : List Text :=
  (trimmedParts ss).filter (SegmentKind.ofText · = kind)

theorem partsOfKind_cons (kind : SegmentKind) (s : Text) (ss : List Text) :
    partsOfKind kind (s :: ss) =
      (if SegmentKind.ofText (Text.trim s) = kind then trimmedParts [s] else []) ++
        partsOfKind kind ss := by
  rw [partsOfKind, trimmedParts_cons, List.filter_append, partsOfKind]
  congr 1
  by_cases blank : (Text.trim s).isEmpty
  · simp [trimmedParts, blank]
  · simp [trimmedParts, blank, List.filter_cons]

theorem Mixture.partsOfKind {columns constraints indexes mixed : List Text}
    (h : Mixture columns constraints indexes mixed) :
    partsOfKind .column mixed = trimmedParts columns ∧
      partsOfKind .constraint mixed = trimmedParts constraints := by
  induction h with
  | nil => exact ⟨rfl, rfl⟩
  | @column s columns _ _ _ kind _ ih =>
    simp [partsOfKind_cons, kind, ih, ← trimmedParts_cons s columns]
  | @constraint s _ constraints _ _ kind _ ih =>
    simp [partsOfKind_cons, kind, ih, ← trimmedParts_cons s constraints]
  | index kind _ ih => simp [partsOfKind_cons, kind, ih]

theorem filterMap_trimmedParts {α : Type} {f : Text → Option α} (hf : f [] = none)
    (ss : List Text) : (trimmedParts ss).filterMap f = (ss.map Text.trim).filterMap f := by
  rw [trimmedParts, List.filterMap_filter]
  refine List.filterMap_congr fun s _ => ?_
  cases s with
  | nil => exact hf.symm
  | cons c s => rfl

/-- A table is made of the columns and the constraints of its mixture. -/
theorem Mixture.ofBody {columns constraints indexes mixed : List Text}
    (h : Mixture columns constraints indexes mixed) (parts : ∀ s ∈ mixed, BodyPart s) (name : Text)
    (schema : Option Text) :
    CreatedTable.ofBody name schema (Text.join [','] mixed) =
      .ofParts name schema (columns.map Text.trim) (constraints.map Text.trim) := by
  obtain ⟨ofColumns, ofConstraints⟩ := h.partsOfKind
  rw [CreatedTable.ofBody, segments_parts parts]
  change CreatedTable.ofParts name schema (Sql.partsOfKind .column mixed)
    (Sql.partsOfKind .constraint mixed) = _
  rw [ofColumns, ofConstraints, CreatedTable.ofParts, filterMap_trimmedParts (by rfl),
    filterMap_trimmedParts (by rfl)]
  rfl

namespace Reader

end Reader

end SchemaDiagram.Sql
