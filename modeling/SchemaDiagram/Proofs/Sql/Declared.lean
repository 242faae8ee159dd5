import SchemaDiagram.Proofs.RelationshipKey
import SchemaDiagram.Proofs.Sql.Assembly

/-!
# Declared relationships

Whatever a script looks like, the tables that it creates are those of the bodies it holds, and a
relationship that it declares has columns at both ends.
-/

namespace SchemaDiagram

namespace Sql.Reader

variable {α β : Type} {P : α → Prop}

/-- Every answer satisfies `P`, on every text. -/
def Yields (P : α → Prop) (r : Reader α) : Prop := ∀ t, P (r t).1

theorem Yields.pure {a : α} (h : P a) : Yields P (Pure.pure a) := fun _ => h

theorem Yields.bind {Q : β → Prop} {r : Reader β} {f : β → Reader α} (h : Yields Q r)
    (k : ∀ b, Q b → Yields P (f b)) : Yields P (r >>= f) :=
  fun t => k _ (h t) _

theorem Yields.next {r : Reader β} {f : β → Reader α} (k : ∀ b, Yields P (f b)) :
    Yields P (r >>= f) :=
  fun _ => k _ _

theorem yields_reference? : Yields (fun o => ∀ r ∈ o, r.columns ≠ []) reference? := by
  refine .next fun name => ?_
  split
  · refine .next fun columns => .next fun clauses => .pure ?_
    simp only [Option.mem_def, Option.some.injEq, forall_eq']
    split
    · simp
    · next some => simpa using some
  · exact .pure (by simp)

end Sql.Reader

/-- A key or a uniqueness that names columns; a foreign key has them at both ends. -/
def Constraint.HasColumns : Constraint → Prop
  | primaryKey _ columns => columns ≠ []
  | unique _ columns => columns ≠ []
  | foreignKey _ columns _ refColumns _ _ => columns ≠ [] ∧ refColumns ≠ []
  | check _ _ => True

theorem Constraint.HasColumns.relationship {c : Constraint} (h : c.HasColumns) {table : Text}
    {r : Relationship} (hr : c.relationship? table = some r) : r.HasColumns := by
  cases c with
  | foreignKey =>
    obtain rfl := Option.some_inj.1 hr
    exact h
  | _ => simp [relationship?] at hr

namespace Sql

theorem columnRelationship?_hasColumns {table : Text} {c : Column} {r : Relationship}
    (h : columnRelationship? table c = some r) : r.HasColumns := by
  obtain ⟨fk, -, rfl⟩ := Option.map_eq_some_iff.1 h
  exact ⟨List.cons_ne_nil _ _, List.cons_ne_nil _ _⟩

namespace Reader

theorem yields_constraintBody? (name : Option Text) :
    Yields (fun o => ∀ c ∈ o, c.HasColumns) (tableConstraint?.constraintBody? name) := by
  refine .next fun primary => ?_
  cases primary
  · refine .next fun unique => ?_
    cases unique
    · refine .next fun foreign => ?_
      cases foreign
      · refine .next fun check => ?_
        cases check
        · exact .pure (by simp)
        · refine .next fun group => .pure ?_
          simp [Constraint.HasColumns]
      · refine .next fun _ => .next fun _ => .next fun columns => ?_
        split
        · exact .pure (by simp)
        · next some =>
          refine .next fun references => ?_
          cases references
          · exact .pure (by simp)
          · refine .bind yields_reference? fun target complete => ?_
            split
            · next target =>
              refine .pure ?_
              have refColumns : target.columns ≠ [] := complete target rfl
              simpa [Constraint.HasColumns, refColumns] using some
            · exact .pure (by simp)
    · have listed : Yields (fun o => ∀ c ∈ o, Constraint.HasColumns c) (do
          advanceToGroup
          let columns ← columnList
          return if columns.isEmpty then none else some (Constraint.unique name columns)) := by
        refine .next fun _ => .next fun columns => .pure ?_
        split
        · simp
        · next some => simpa [Constraint.HasColumns] using some
      refine .next fun key => ?_
      cases key
      · exact .next fun _ => listed
      · exact listed
  · refine .next fun _ => .next fun columns => .pure ?_
    split
    · simp
    · next some => simpa [Constraint.HasColumns] using some

theorem yields_tableConstraint? :
    Yields (fun o => ∀ c ∈ o, c.HasColumns) tableConstraint? := by
  refine .next fun named => ?_
  cases named
  · exact .next fun name => yields_constraintBody? name
  · exact .next fun name => yields_constraintBody? name

end Reader

theorem hasColumns_bodyConstraints {body : Text} {k : Constraint} (h : k ∈ bodyConstraints body) :
    k.HasColumns := by
  obtain ⟨segment, -, parsed⟩ := List.mem_filterMap.1 h
  exact Reader.yields_tableConstraint? segment k parsed

theorem CreatedTable.hasColumns_ofBody {name body : Text} {schema : Option Text}
    {r : Relationship} (h : r ∈ (ofBody name schema body).relationships) : r.HasColumns := by
  rcases List.mem_append.1 h with h | h
  · obtain ⟨c, -, hc⟩ := List.mem_filterMap.1 h
    exact columnRelationship?_hasColumns hc
  · obtain ⟨k, hk, hr⟩ := List.mem_filterMap.1 h
    exact (hasColumns_bodyConstraints hk).relationship hr

def Statement.OfBody : Statement → Prop
  | create created => ∃ name schema body, created = .ofBody name schema body
  | add _ _ => True

namespace Reader

section

variable {P : Statement → Prop}

theorem Yields.newTable? (create : ∀ name schema body, P (.create (.ofBody name schema body))) :
    Yields (fun o => ∀ s ∈ o, P s) newTable? := by
  refine .next fun name => ?_
  split
  · refine .next fun body => ?_
    split
    · refine .pure ?_
      simp only [Option.mem_def, Option.some.injEq, forall_eq']
      exact create _ _ _
    · exact .pure (by simp)
  · exact .pure (by simp)

theorem Yields.createTable? (new : Yields (fun o => ∀ s ∈ o, P s) Reader.newTable?) :
    Yields (fun o => ∀ s ∈ o, P s) createTable? := by
  refine .next fun _ => .next fun table => ?_
  cases table
  · exact .pure (by simp)
  · refine .next fun unlessExists => ?_
    cases unlessExists
    · exact new
    · exact .next fun _ => .next fun _ => new

theorem Yields.addition? (add : ∀ table clause, P (.add table clause)) :
    Yields (fun o => ∀ s ∈ o, P s) addition? := by
  refine .next fun _ => .next fun name => ?_
  split
  · refine .next fun adds => ?_
    cases adds
    · exact .pure (by simp)
    · refine .next fun clause => .pure ?_
      simp only [Option.mem_def, Option.some.injEq, forall_eq']
      exact add _ _
  · exact .pure (by simp)

theorem Yields.alterTable? (add : ∀ table clause, P (.add table clause)) :
    Yields (fun o => ∀ s ∈ o, P s) alterTable? := by
  refine .next fun table => ?_
  cases table
  · exact .pure (by simp)
  · refine .next fun _ => .next fun ifExists => ?_
    cases ifExists
    · exact .addition? add
    · exact .next fun _ => .addition? add

theorem Yields.statement? (new : Yields (fun o => ∀ s ∈ o, P s) Reader.newTable?)
    (add : ∀ table clause, P (.add table clause)) (token : Token) :
    Yields (fun o => ∀ s ∈ o, P s) (statement? token) := by
  unfold Reader.statement?
  split
  · exact .createTable? new
  · exact .alterTable? add
  · exact .pure (by simp)

/-- What holds of every table that is read, and of every addition, holds of all statements. -/
theorem forall_mem_statements (new : Yields (fun o => ∀ s ∈ o, P s) Reader.newTable?)
    (add : ∀ table clause, P (.add table clause)) (t : Text) : ∀ s ∈ statements t, P s := by
  fun_induction statements t with
  | case1 => simp
  | case2 t l rest _ taken ih =>
    intro s hs
    rcases List.mem_append.1 hs with hs | hs
    · exact Yields.statement? new add l.token rest s (Option.mem_toList.1 hs)
    · exact ih s hs

end

theorem ofBody_statements {t : Text} {s : Statement} (h : s ∈ statements t) : s.OfBody :=
  forall_mem_statements (.newTable? fun name schema body => ⟨name, schema, body, rfl⟩)
    (fun _ _ => trivial) t s h

end Reader

theorem ofBody_createdTables {script : Text} {created : CreatedTable}
    (h : created ∈ createdTables (Reader.statements script)) :
    ∃ name schema body, created = .ofBody name schema body := by
  obtain ⟨s, hs, hc⟩ := List.mem_filterMap.1 ((Text.firstOfEach_sublist _).subset h)
  cases s with
  | create created' =>
    obtain rfl := Option.some_inj.1 hc
    exact Reader.ofBody_statements hs
  | add => simp at hc

theorem source_of_created {script : Text} {created : CreatedTable}
    (h : created ∈ createdTables (Reader.statements script)) :
    ∀ r ∈ created.relationships, r.source.table = created.table.name := by
  intro r hr
  obtain ⟨name, schema, body, rfl⟩ := ofBody_createdTables h
  rw [CreatedTable.name_ofBody, CreatedTable.source_ofBody hr]

theorem hasColumns_added {statements : List Statement} {added : Text × Constraint}
    (h : added ∈ addedConstraints statements) : added.2.HasColumns := by
  obtain ⟨s, -, hs⟩ := List.mem_filterMap.1 h
  cases s with
  | create => simp at hs
  | add table clause =>
    obtain ⟨k, parsed, rfl⟩ := Option.map_eq_some_iff.1 hs
    exact Reader.yields_tableConstraint? clause k parsed

theorem hasColumns_declared {script : Text} {r : Relationship}
    (h : r ∈ declaredRelationships (Reader.statements script)) : r.HasColumns := by
  rcases List.mem_append.1 h with h | h
  · obtain ⟨created, hc, hr⟩ := List.mem_flatMap.1 h
    obtain ⟨name, schema, body, rfl⟩ := ofBody_createdTables hc
    exact CreatedTable.hasColumns_ofBody hr
  · obtain ⟨added, ha, hr⟩ := List.mem_filterMap.1 h
    exact (hasColumns_added ha).relationship hr

end Sql

end SchemaDiagram
