import SchemaDiagram.Proofs.Sql.Declared

/-!
# Which relationships are kept

Relationships are meant to be kept up to the first of each four components. They are kept up to the
first of each key, and a key does not hold its components apart when a name has a point, a comma or
an arrow inside.
-/

namespace SchemaDiagram

namespace Relationship

/-- Whatever has the key of an earlier relationship also agrees with an earlier one. -/
def KeysFaithful (l : List Relationship) : Prop :=
  ∀ before r after, l = before ++ r :: after →
    (∃ s ∈ before, s.key = r.key) → ∃ s ∈ before, s.Same r

theorem keysFaithful_of_separable {l : List Relationship} (columns : ∀ r ∈ l, r.HasColumns)
    (separable : ∀ r ∈ l, r.Separable) : KeysFaithful l := by
  rintro before r after rfl ⟨s, hs, eq⟩
  have hr : r ∈ before ++ r :: after := by simp
  have hs' : s ∈ before ++ r :: after := List.mem_append_left _ hs
  exact ⟨s, hs, (key_eq_iff (separable s hs') (separable r hr) (columns s hs') (columns r hr)).1 eq⟩

end Relationship

namespace Sql

open Relationship

/-- What `extract` keeps of the relationships that a script declares, and when that is what their
components ask for. Keys and components say the same about separable relationships; each other one
has the key of a relationship it does not agree with. -/
theorem extract_relationships_exact (script : Text) :
    let declared := declaredRelationships (Reader.statements (stripComments script))
    let kept := (extract script).relationships
    kept = withoutRepeats (fun r s => r.key = s.key) declared ∧
      (kept = withoutRepeats Same declared ↔ KeysFaithful declared) ∧
      ((∀ r ∈ declared, r.Separable) → kept = withoutRepeats Same declared) ∧
      (∀ r s : Relationship, r.HasColumns → s.HasColumns → r.Separable → s.Separable →
        (r.key = s.key ↔ r.Same s)) ∧
      ∀ r : Relationship, ¬ r.Separable →
        ∃ s : Relationship, s.HasColumns ∧ s.Separable ∧ s.key = r.key ∧ ¬ s.Same r := by
  intro declared kept
  have byKey : kept = withoutRepeats (fun r s => r.key = s.key) declared :=
    Text.firstOfEach_eq_withoutRepeats declared
  have exact : kept = withoutRepeats Same declared ↔ KeysFaithful declared := by
    rw [byKey]
    exact withoutRepeats_eq_iff (fun r s => key_of_same) declared
  refine ⟨byKey, exact, fun separable => ?_, fun r s cr cs hr hs => key_eq_iff hr hs cr cs,
    fun r => exists_collision⟩
  exact exact.2 (keysFaithful_of_separable (fun r hr => hasColumns_declared hr) separable)

/-- A column `b.c` of a table `a` and a column `c` of a table `a.b`, both referring to `t`. -/
def pointedScript : Text :=
  Text.ofString <| "CREATE TABLE a (\"b.c\" INT REFERENCES t (id)); " ++
    "CREATE TABLE \"a.b\" (c INT REFERENCES t (id));"

theorem pointedScript_relationship_lost :
    (extract pointedScript).relationships.length = 1 ∧
      (withoutRepeats Same
        (declaredRelationships (Reader.statements (stripComments pointedScript)))).length = 2 := by
  decide +kernel

end Sql

end SchemaDiagram
