import Mathlib.Data.List.Nodup
import SchemaDiagram.Proofs.NameMap
import SchemaDiagram.Proofs.Layout.Layering
import SchemaDiagram.Proofs.Layout.References

/-!
# Tables found by name

A schema searches its tables one after the other for a name. The reference graph can be built
without that: the numbers of the tables are kept under their lower-case names, and the lists of
parents and children grow along with the relationships. Both ways meet the same tables.
-/

namespace SchemaDiagram

/-- `t` is the number of the table that the schema finds, the first one of that name. -/
def Schema.IsFirst (s : Schema) (name : Text) (t : Fin s.tables.length) : Prop :=
  s.table? name = some (s.tables.get t) ∧ ∀ u < t, ¬ Text.SameName (s.tables.get u).name name

def firstTables (tables : List Table) : NameMap (Fin tables.length) :=
  (List.finRange tables.length).foldl
    (fun m t => m.insertIfNew (Text.lower (tables.get t).name) t) .empty

theorem tableIndex?_eq_some_iff {tables : List Table} {name : Text} {t : Fin tables.length} :
    tableIndex? tables name = some t ↔ Text.SameName (tables.get t).name name ∧
      ∀ u < t, ¬ Text.SameName (tables.get u).name name := by
  rw [tableIndex?, List.findFinIdx?_eq_some_iff]
  simp only [decide_eq_true_eq]
  rfl

theorem find?_finRange_eq_some_iff {n : Nat} {p : Fin n → Bool} {t : Fin n} :
    (List.finRange n).find? p = some t ↔ p t ∧ ∀ u < t, ¬ p u := by
  rw [List.find?_eq_some_iff_getElem]
  simp only [List.getElem_finRange, List.length_finRange]
  refine and_congr_right fun _ => ⟨?_, fun before => ?_⟩
  · rintro ⟨i, hi, rfl, before⟩ u lt
    simpa using before u lt
  · exact ⟨t, t.isLt, rfl, fun j lt => by simpa using before ⟨j, lt.trans t.isLt⟩ lt⟩

theorem find?_firstTables (tables : List Table) (name : Text) :
    (firstTables tables).find? (Text.lower name) = tableIndex? tables name := by
  apply Option.ext
  intro t
  rw [tableIndex?_eq_some_iff, firstTables, NameMap.find?_foldl_insertIfNew]
  have empty : (NameMap.empty : NameMap (Fin tables.length)).find? (Text.lower name) = none := rfl
  rw [empty, Option.none_or, Option.map_id', find?_finRange_eq_some_iff]
  simp only [decide_eq_true_eq]
  rfl

theorem Schema.isFirst_iff {s : Schema} {name : Text} {t : Fin s.tables.length} :
    s.IsFirst name t ↔ tableIndex? s.tables name = some t := by
  have found : s.table? name = (tableIndex? s.tables name).map s.tables.get :=
    List.find?_eq_map_findFinIdx?_getElem
  rw [IsFirst, found]
  constructor
  · rintro ⟨isTable, first⟩
    obtain ⟨u, hu, same⟩ := Option.map_eq_some_iff.1 isTable
    -- the search ended at `u`, and no table of that name stands before either of the two
    obtain ⟨named, before⟩ := tableIndex?_eq_some_iff.1 hu
    rw [tableIndex?_eq_some_iff]
    exact ⟨same ▸ named, first⟩
  · intro h
    exact ⟨by rw [h, Option.map_some], (tableIndex?_eq_some_iff.1 h).2⟩

namespace Relationship

variable {tables : List Table} {r : Relationship} {child parent : Fin tables.length}

theorem ends?_eq_some_iff : r.ends? tables = some (child, parent) ↔
    tableIndex? tables r.source.table = some child ∧
      tableIndex? tables r.target.table = some parent := by
  simp [ends?, Option.bind_eq_some_iff]

theorem isSelfReference_iff (source : tableIndex? tables r.source.table = some child)
    (target : tableIndex? tables r.target.table = some parent) :
    child = parent ↔ r.isSelfReference := by
  rw [isSelfReference, decide_eq_true_eq]
  constructor
  · rintro rfl
    exact (tableIndex?_eq_some_iff.1 source).1.symm.trans (tableIndex?_eq_some_iff.1 target).1
  · intro same
    rw [Graph.tableIndex?_of_sameName same, target] at source
    exact (Option.some_inj.1 source).symm

end Relationship

namespace Graph

theorem parents_nodup {n : Nat} {g : Graph n} (edges : g.edges.Nodup) (t : Fin n) :
    (g.parents t).Nodup := by
  refine edges.filterMap fun e f p he hf => ?_
  obtain ⟨rfl, rfl⟩ : e.1 = t ∧ e.2 = p := by simpa using he
  obtain ⟨child, parent⟩ : f.1 = e.1 ∧ f.2 = e.2 := by simpa using hf
  exact Prod.ext child.symm parent.symm

theorem children_nodup {n : Nat} {g : Graph n} (edges : g.edges.Nodup) (t : Fin n) :
    (g.children t).Nodup := by
  refine edges.filterMap fun e f c he hf => ?_
  obtain ⟨rfl, rfl⟩ : e.2 = t ∧ e.1 = c := by simpa using he
  obtain ⟨parent, child⟩ : f.2 = e.2 ∧ f.1 = e.1 := by simpa using hf
  exact Prod.ext child.symm parent.symm

theorem mem_edges_ofRelationships {tables : List Table} {relationships : List Relationship}
    {child parent : Fin tables.length} :
    (child, parent) ∈ (ofRelationships tables relationships).edges ↔ child ≠ parent ∧
      ∃ r ∈ relationships, r.ends? tables = some (child, parent) := by
  simp [edges_ofRelationships, references, and_comm]

end Graph

structure Adjacency (n : Nat) where
  parents : Vector (List (Fin n)) n
  children : Vector (List (Fin n)) n

namespace Adjacency

variable {n : Nat}

def empty : Adjacency n := ⟨.replicate n [], .replicate n []⟩

/-- Only the child's list is searched for an earlier reference. -/
def refer (a : Adjacency n) (child parent : Fin n) : Adjacency n :=
  if child = parent ∨ (a.parents.get child).contains parent then a
  else
    { parents := a.parents.set child (a.parents.get child ++ [parent]) child.isLt
      children := a.children.set parent (a.children.get parent ++ [child]) parent.isLt }

def relate (tables : List Table) (a : Adjacency tables.length) (r : Relationship) :
    Adjacency tables.length :=
  match (firstTables tables).find? (Text.lower r.source.table),
    (firstTables tables).find? (Text.lower r.target.table) with
  | some child, some parent => a.refer child parent
  | _, _ => a

def ofRelationships (tables : List Table) (relationships : List Relationship) :
    Adjacency tables.length :=
  relationships.foldl (relate tables) empty

/-- The lists are those of the graph that has these edges. -/
def Lists (a : Adjacency n) (edges : List (Fin n × Fin n)) : Prop :=
  ∀ t, a.parents.get t = (Graph.mk edges).parents t ∧
    a.children.get t = (Graph.mk edges).children t

theorem get_set (lists : Vector (List (Fin n)) n) (t u : Fin n) (l : List (Fin n)) :
    (lists.set t l t.isLt).get u = if t = u then l else lists.get u := by
  change (lists.set t l t.isLt)[u.val] = if t = u then l else lists[u.val]
  simp only [Vector.getElem_set, Fin.ext_iff]

theorem lists_empty : (empty : Adjacency n).Lists [] := by
  intro t
  constructor
  · exact Vector.getElem_replicate t.isLt
  · exact Vector.getElem_replicate t.isLt

variable {a : Adjacency n} {edges : List (Fin n × Fin n)}

theorem Lists.contains_iff (h : a.Lists edges) {child parent : Fin n} :
    (a.parents.get child).contains parent ↔ (child, parent) ∈ edges := by
  rw [(h child).1, List.contains_iff_mem, Graph.mem_parents]

theorem Lists.refer_of_known (h : a.Lists edges) {child parent : Fin n}
    (known : child = parent ∨ (child, parent) ∈ edges) : a.refer child parent = a := by
  rw [refer, if_pos (known.imp_right h.contains_iff.2)]

/-- One side is searched and both sides grow, so each side keeps saying what the other one says. -/
theorem Lists.refer_of_new (h : a.Lists edges) {child parent : Fin n} (other : child ≠ parent)
    (new : (child, parent) ∉ edges) :
    (a.refer child parent).Lists (edges ++ [(child, parent)]) := by
  rw [refer, if_neg (not_or.2 ⟨other, mt h.contains_iff.1 new⟩)]
  intro t
  obtain ⟨parents, children⟩ := h t
  simp only [get_set, Graph.parents, Graph.children, List.filterMap_append] at parents children ⊢
  constructor
  · by_cases eq : child = t
    · subst eq; simp [parents]
    · simp [parents, eq]
  · by_cases eq : parent = t
    · subst eq; simp [children]
    · simp [children, eq]

variable {tables : List Table}

theorem relate_eq (a : Adjacency tables.length) (r : Relationship) :
    a.relate tables r = match r.ends? tables with
      | some (child, parent) => a.refer child parent
      | none => a := by
  rw [relate, find?_firstTables, find?_firstTables, Relationship.ends?]
  cases tableIndex? tables r.source.table <;> cases tableIndex? tables r.target.table <;> rfl

theorem Lists.relate {a : Adjacency tables.length} {seen : List Relationship}
    (h : a.Lists (Graph.references tables seen).eraseDups) (r : Relationship) :
    (a.relate tables r).Lists (Graph.references tables (seen ++ [r])).eraseDups := by
  have split : Graph.references tables (seen ++ [r]) =
      Graph.references tables seen ++ Graph.references tables [r] := by
    simp [Graph.references]
  rw [relate_eq, split, List.eraseDups_append]
  cases ends : r.ends? tables with
  | none => simpa [Graph.references, ends, List.removeAll] using h
  | some e =>
    obtain ⟨child, parent⟩ := e
    change (a.refer child parent).Lists _
    by_cases self : child = parent
    · rw [h.refer_of_known (.inl self)]
      simpa [Graph.references, ends, self, List.removeAll] using h
    · have more : Graph.references tables [r] = [(child, parent)] := by
        simp [Graph.references, ends, self]
      rw [more]
      by_cases known : (child, parent) ∈ Graph.references tables seen
      · rw [h.refer_of_known (.inr (List.mem_eraseDups.2 known))]
        simpa [List.removeAll, known] using h
      · have grown := h.refer_of_new self (mt List.mem_eraseDups.1 known)
        simpa [List.removeAll, known, List.eraseDups_cons] using grown

/-- Relationship by relationship the lists come to be those of the reference graph. -/
theorem lists_ofRelationships (tables : List Table) (relationships : List Relationship) :
    (ofRelationships tables relationships).Lists
      (Graph.ofRelationships tables relationships).edges := by
  have run : ∀ (rest seen : List Relationship) (a : Adjacency tables.length),
      a.Lists (Graph.references tables seen).eraseDups →
        (rest.foldl (relate tables) a).Lists (Graph.references tables (seen ++ rest)).eraseDups := by
    intro rest
    induction rest with
    | nil => exact fun seen a h => by rwa [List.append_nil]
    | cons r rest ih =>
      intro seen a h
      have next := ih (seen ++ [r]) (a.relate tables r) (h.relate r)
      rwa [List.append_assoc] at next
  exact run relationships [] empty lists_empty

end Adjacency

namespace Graph

def Refers (s : Schema) (child parent : Fin s.tables.length) : Prop :=
  child ≠ parent ∧
    ∃ r ∈ s.relationships, s.IsFirst r.source.table child ∧ s.IsFirst r.target.table parent

/-- Both lists of every table hold exactly what relationships lead to and from it, each once. -/
structure IsReferenceGraph (s : Schema) (g : Graph s.tables.length) : Prop where
  parents : ∀ child parent, parent ∈ g.parents child ↔ Refers s child parent
  children : ∀ child parent, child ∈ g.children parent ↔ Refers s child parent
  parentsOnce : ∀ t, (g.parents t).Nodup
  childrenOnce : ∀ t, (g.children t).Nodup
  other : ∀ t, t ∉ g.parents t ∧ t ∉ g.children t

theorem ofRelationships_isReferenceGraph (s : Schema) :
    IsReferenceGraph s (ofRelationships s.tables s.relationships) := by
  have once : (ofRelationships s.tables s.relationships).edges.Nodup := eraseDups_nodup _
  have refers : ∀ child parent, (child, parent) ∈ (ofRelationships s.tables s.relationships).edges ↔
      Refers s child parent := by
    intro child parent
    rw [mem_edges_ofRelationships]
    simp only [Refers, Schema.isFirst_iff, Relationship.ends?_eq_some_iff]
  have parents : ∀ child parent, parent ∈ (ofRelationships s.tables s.relationships).parents child ↔
      Refers s child parent := fun child parent => mem_parents.trans (refers child parent)
  have children : ∀ child parent, child ∈ (ofRelationships s.tables s.relationships).children parent ↔
      Refers s child parent := fun child parent => mem_children.trans (parents child parent)
  exact ⟨parents, children, parents_nodup once, children_nodup once, fun t =>
    ⟨fun h => ((parents t t).1 h).1 rfl, fun h => ((children t t).1 h).1 rfl⟩⟩

/-- All look-ups of names agree, also where tables share a name or differ in its case only. The ends
of a relationship are at the tables that the schema finds, and at one table exactly if the
relationship is a self reference. The graph joins these tables, and its lists are those that grow
along with the relationships while the tables are known by their lower-case names. -/
theorem ofRelationships_lookups (s : Schema) :
    let g := ofRelationships s.tables s.relationships
    let a := Adjacency.ofRelationships s.tables s.relationships
    (∀ name t, (tableIndex? s.tables name = some t ↔ s.IsFirst name t) ∧
      ((firstTables s.tables).find? (Text.lower name) = some t ↔ s.IsFirst name t)) ∧
    (∀ (r : Relationship) (child parent), s.IsFirst r.source.table child →
      s.IsFirst r.target.table parent → (child = parent ↔ r.isSelfReference)) ∧
    IsReferenceGraph s g ∧
    ∀ t, a.parents.get t = g.parents t ∧ a.children.get t = g.children t := by
  intro g a
  refine ⟨fun name t => ?_, fun r child parent source target => ?_,
    ofRelationships_isReferenceGraph s, Adjacency.lists_ofRelationships _ _⟩
  · rw [find?_firstTables]
    exact ⟨Schema.isFirst_iff.symm, Schema.isFirst_iff.symm⟩
  · rw [Schema.isFirst_iff] at source target
    exact Relationship.isSelfReference_iff source target

end Graph

end SchemaDiagram
