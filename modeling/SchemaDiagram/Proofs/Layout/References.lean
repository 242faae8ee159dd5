import SchemaDiagram.Layout.Arrangement

/-!
# The references that count

A layout depends on its relationships only through which table refers to which, in the order in
which these references first come. Everything else about a relationship leaves no trace: its name,
its columns, the case of the names it gives, and the relationship as a whole if it makes no edge or
only one that is there already.
-/

namespace SchemaDiagram

namespace Relationship

/-- Both run between tables of the same names, whatever the case of these. -/
def SameTables (r q : Relationship) : Prop :=
  Text.SameName r.source.table q.source.table ∧ Text.SameName r.target.table q.target.table

/-- One of its tables is unknown, or it refers to the table it starts from. -/
def Idle (tables : List Table) (r : Relationship) : Prop :=
  (∀ t ∈ tables, ¬ Text.SameName t.name r.source.table) ∨
    (∀ t ∈ tables, ¬ Text.SameName t.name r.target.table) ∨
      Text.SameName r.source.table r.target.table

instance (r q : Relationship) : Decidable (r.SameTables q) := by
  unfold SameTables; infer_instance

instance (tables : List Table) (r : Relationship) : Decidable (r.Idle tables) := by
  unfold Idle; infer_instance

end Relationship

/-- The second list goes through the relationships of the first one in their order, each between
the same tables as there but otherwise as it likes. Between them come idle ones, and ones between
tables that were related before, by one of `seen` or further up in the list. -/
inductive SameReferences (tables : List Table) :
    List Relationship → List Relationship → List Relationship → Prop
  | nil {seen : List Relationship} : SameReferences tables seen [] []
  | same {seen rs qs : List Relationship} {r q : Relationship} (tied : r.SameTables q)
      (rest : SameReferences tables (r :: seen) rs qs) :
      SameReferences tables seen (r :: rs) (q :: qs)
  | idle {seen rs qs : List Relationship} {q : Relationship} (idle : q.Idle tables)
      (rest : SameReferences tables seen rs qs) : SameReferences tables seen rs (q :: qs)
  | again {seen rs qs : List Relationship} {r q : Relationship} (earlier : r ∈ seen)
      (tied : r.SameTables q) (rest : SameReferences tables seen rs qs) :
      SameReferences tables seen rs (q :: qs)

namespace Graph

/-- What is in front already adds nothing further on. -/
theorem eraseDups_append_of_subset {β : Type} [BEq β] [LawfulBEq β] {l m : List β} (n : List β)
    (h : ∀ a ∈ m, a ∈ l) : (l ++ m ++ n).eraseDups = (l ++ n).eraseDups := by
  have nothing : m.removeAll l = [] := List.filter_eq_nil_iff.2 fun a ha => by simpa using h a ha
  have front : (l ++ m).eraseDups = l.eraseDups := by
    rw [List.eraseDups_append, nothing]
    exact List.append_nil _
  have behind : n.removeAll (l ++ m) = n.removeAll l := by
    refine List.filter_congr fun a _ => ?_
    have new : a ∉ l → a ∉ m := fun absent ha => absent (h a ha)
    simpa using new
  rw [List.eraseDups_append, front, behind, List.eraseDups_append]

variable {tables : List Table}

/-- The references between different tables that are known, repeats included. -/
def references (tables : List Table) (relationships : List Relationship) :
    List (Fin tables.length × Fin tables.length) :=
  (relationships.filterMap (·.ends? tables)).filter fun e => e.1 ≠ e.2

theorem edges_ofRelationships (relationships : List Relationship) :
    (ofRelationships tables relationships).edges = (references tables relationships).eraseDups :=
  rfl

theorem references_cons (r : Relationship) (rs : List Relationship) :
    references tables (r :: rs) = references tables [r] ++ references tables rs := by
  rw [references, references, references, ← List.filter_append, ← List.filterMap_append]
  rfl

theorem tableIndex?_of_sameName {a b : Text} (h : Text.SameName a b) :
    tableIndex? tables a = tableIndex? tables b := by
  have lower : Text.lower a = Text.lower b := h
  have matching : (fun t : Table => decide (Text.SameName t.name a)) =
      fun t : Table => decide (Text.SameName t.name b) := by
    funext t
    rw [decide_eq_decide, Text.SameName, Text.SameName, lower]
  rw [tableIndex?, tableIndex?, matching]

theorem references_of_sameTables {r q : Relationship} (h : r.SameTables q) :
    references tables [r] = references tables [q] := by
  have ends : r.ends? tables = q.ends? tables := by
    rw [Relationship.ends?, Relationship.ends?, tableIndex?_of_sameName h.1,
      tableIndex?_of_sameName h.2]
  rw [references, references, List.filterMap_cons, List.filterMap_cons, ends]

theorem tableIndex?_of_unknown {name : Text} (h : ∀ t ∈ tables, ¬ Text.SameName t.name name) :
    tableIndex? tables name = none := by
  refine List.findFinIdx?_eq_none_iff.2 fun t ht => ?_
  simpa using h t ht

theorem references_of_idle {r : Relationship} (h : r.Idle tables) : references tables [r] = [] := by
  rcases h with source | target | self
  · have ends : r.ends? tables = none := by simp [Relationship.ends?, tableIndex?_of_unknown source]
    simp [references, ends]
  · have ends : r.ends? tables = none := by simp [Relationship.ends?, tableIndex?_of_unknown target]
    simp [references, ends]
  · cases known : tableIndex? tables r.target.table with
    | none =>
      have ends : r.ends? tables = none := by simp [Relationship.ends?, known]
      simp [references, ends]
    | some t =>
      have ends : r.ends? tables = some (t, t) := by
        simp [Relationship.ends?, tableIndex?_of_sameName self, known]
      simp [references, ends]

/-- The references that the list begins with hold all of those seen, so none of the further ones
adds to them unless the first list has it too. -/
theorem eraseDups_references {seen rs qs : List Relationship}
    (h : SameReferences tables seen rs qs) {first : List (Fin tables.length × Fin tables.length)}
    (known : ∀ r ∈ seen, ∀ e ∈ references tables [r], e ∈ first) :
    (first ++ references tables qs).eraseDups = (first ++ references tables rs).eraseDups := by
  induction h generalizing first with
  | nil => rfl
  | @same seen rs qs r q tied rest ih =>
    rw [references_cons q, references_cons r, ← references_of_sameTables tied, ← List.append_assoc,
      ← List.append_assoc]
    refine ih fun s hs e he => List.mem_append.2 ?_
    rcases List.mem_cons.1 hs with rfl | hs
    · exact Or.inr he
    · exact Or.inl (known s hs e he)
  | @idle seen rs qs q idle rest ih =>
    rw [references_cons q, references_of_idle idle, List.nil_append]
    exact ih known
  | @again seen rs qs r q earlier tied rest ih =>
    rw [references_cons q, ← references_of_sameTables tied, ← List.append_assoc,
      eraseDups_append_of_subset _ (known r earlier)]
    exact ih known

theorem ofRelationships_of_sameReferences {rs qs : List Relationship}
    (h : SameReferences tables [] rs qs) :
    ofRelationships tables qs = ofRelationships tables rs := by
  have none : ∀ r ∈ ([] : List Relationship), ∀ e ∈ references tables [r],
      e ∈ ([] : List (Fin tables.length × Fin tables.length)) := by simp
  have edges := eraseDups_references h none
  rw [List.nil_append, List.nil_append] at edges
  exact congrArg Graph.mk edges

end Graph

namespace Layout

variable {α : Type} [Scalar α]

/-- Relationships that make the same references give the same layout: every box, every layer and
the size of the canvas. -/
theorem ofTables_of_sameReferences (config : Config α) (measure : Measurer α) {tables : List Table}
    {rs qs : List Relationship} (h : SameReferences tables [] rs qs) :
    ofTables config measure tables qs = ofTables config measure tables rs := by
  rw [ofTables, Graph.ofRelationships_of_sameReferences h]
  rfl

/-- Orders refer to customers. The longer list says so in capitals and again behind that; it also
has an unknown table at either end, and a table that refers to itself. -/
theorem ofTables_orderReferences :
    let tables : List Table := [⟨['c'], none, [], []⟩, ⟨['o'], none, [], []⟩]
    let refers (source target : Char) (column : Text) : Relationship :=
      ⟨column, ⟨[source], [column]⟩, ⟨[target], [['i', 'd']]⟩⟩
    let references := [refers 'o' 'c' ['x']]
    let longer := [refers 'C' 'c' ['p'], refers 'o' 'z' ['y'], refers 'O' 'C' ['k', 'x'],
      refers 'z' 'c' ['x'], refers 'o' 'c' ['y']]
    SameReferences tables [] references longer ∧
      ofTables (.standard : Config Rat) (fun _ t => Scalar.ofNat t.length) tables longer =
        ofTables .standard (fun _ t => Scalar.ofNat t.length) tables references := by
  intro tables refers references longer
  have same : SameReferences tables [] references longer := by
    refine .idle (by decide) (.idle (by decide) (.same (by decide) ?_))
    exact .idle (by decide) (.again List.mem_cons_self (by decide) .nil)
  exact ⟨same, ofTables_of_sameReferences _ _ same⟩

end Layout

end SchemaDiagram
