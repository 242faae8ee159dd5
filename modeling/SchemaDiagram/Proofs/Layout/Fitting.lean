import SchemaDiagram.Proofs.Layout.Apart

/-!
# What a layout holds

A layout of tables with different names gives each of them a box that is as high as its rows, and
the boxes of two tables have no point in common, their borders included.
-/

namespace SchemaDiagram

/-- Settings that give every row a height and leave room between boxes. -/
structure Config.Roomy (config : Config ℚ) : Prop where
  minGap : 0 < config.minGap
  minWidth : 0 ≤ config.minWidth
  gapY : 1 < config.gapY
  headerHeight : 0 ≤ config.headerHeight
  rowHeight : 0 < config.rowHeight
  tablePadding : 0 ≤ config.tablePadding

namespace Box

/-- One of the boxes ends left of where the other one begins, or above. -/
def Clear (a b : Box ℚ) : Prop :=
  a.right < b.x ∨ b.right < a.x ∨ a.bottom < b.y ∨ b.bottom < a.y

theorem Clear.not_contains {a b : Box ℚ} (h : a.Clear b) {x y : ℚ} (inside : b.Contains x y) :
    ¬ a.Contains x y := by
  rintro ⟨left, right, top, bottom⟩
  obtain ⟨left', right', top', bottom'⟩ := inside
  rcases h with h | h | h | h
  · exact absurd (h.trans_le left') (not_lt.2 right)
  · exact absurd (h.trans_le left) (not_lt.2 right')
  · exact absurd (h.trans_le top') (not_lt.2 bottom)
  · exact absurd (h.trans_le top) (not_lt.2 bottom')

end Box

namespace Boxes

variable {n : Nat} {layers : List (List (Fin n))} {boxes : Boxes ℚ n}

/-- Boxes of one layer are clear of each other sidewards, those of two layers upwards. -/
theorem clear_of_spaced {gapX gapY : ℚ} (wideX : 0 < gapX) (wideY : 0 < gapY)
    (spaced : ∀ layer ∈ layers, Spaced gapX layer boxes) (stacked : Stacked gapY layers boxes)
    {t u : Fin n} (ht : t ∈ layers.flatten) (hu : u ∈ layers.flatten) (ne : t ≠ u) :
    (boxes.get t).Clear (boxes.get u) := by
  obtain ⟨upper, hupper, ht⟩ := List.mem_flatten.1 ht
  obtain ⟨lower, hlower, hu⟩ := List.mem_flatten.1 hu
  obtain ⟨i, hi, rfl⟩ := List.getElem_of_mem hupper
  obtain ⟨j, hj, rfl⟩ := List.getElem_of_mem hlower
  have ordered := List.pairwise_iff_getElem.1 stacked
  rcases Nat.lt_trichotomy i j with before | rfl | behind
  · have above := ordered i j hi hj before t ht u hu
    exact Or.inr (Or.inr (Or.inl (by linarith)))
  · rcases spaced _ hupper t ht u hu ne with left | left
    · unfold IsLeftOf at left
      exact Or.inl (by linarith)
    · unfold IsLeftOf at left
      exact Or.inr (Or.inl (by linarith))
  · have above := ordered j i hj hi behind u hu t ht
    exact Or.inr (Or.inr (Or.inr (by linarith)))

end Boxes

namespace Graph

variable {n : Nat} (g : Graph n)

theorem sizes_arrange (config : Config ℚ) (sizes : Vector (Size ℚ) n)
    (layers : List (List (Fin n))) (t : Fin n) :
    ((g.arrange config sizes layers).get t).width = (sizes.get t).width ∧
      ((g.arrange config sizes layers).get t).height = (sizes.get t).height := by
  let placed := (Boxes.ofSizes sizes).placeLayers config layers
  obtain ⟨dx, dy, -, -, aligned⟩ := Boxes.get_alignToPadding config
    ((g.relax config layers placed).separate config layers)
  obtain ⟨-, width, height⟩ := g.sameRows_separated config layers placed t
  obtain ⟨width', height'⟩ := sizes_placeLayers config sizes layers t
  constructor
  · rw [arrange, aligned]
    exact width.trans width'
  · rw [arrange, aligned]
    exact height.trans height'

end Graph

namespace Layout

/-- Each table has a box, high enough for exactly its rows, and no two boxes meet. -/
structure Fits (config : Config ℚ) (tables : List Table) (l : Layout ℚ) : Prop where
  box : ∀ t ∈ tables, ∃ b, l.box? t.name = some b ∧ 0 ≤ b.width ∧
    b.height = config.headerHeight + t.columns.length * config.rowHeight + config.tablePadding
  clear : ∀ t ∈ tables, ∀ u ∈ tables, t.name ≠ u.name → ∀ a b, l.box? t.name = some a →
    l.box? u.name = some b → a.Clear b

variable {config : Config ℚ} {tables : List Table}

theorem get_sizes (config : Config ℚ) (measure : Measurer ℚ) (t : Fin tables.length) :
    (Vector.ofFn fun t => (tables.get t).size config measure).get t =
      (tables.get t).size config measure :=
  Vector.getElem_ofFn t.isLt

theorem size_boxesOf (config : Config ℚ) (measure : Measurer ℚ) (relationships : List Relationship)
    (t : Fin tables.length) :
    let b := (boxesOf config measure tables relationships).get t
    b.width = ((tables.get t).size config measure).width ∧
      b.height = ((tables.get t).size config measure).height := by
  rw [← get_sizes]
  exact Graph.sizes_arrange _ config _ _ t

theorem boxesOf_clear (room : config.Roomy) (measure : Measurer ℚ)
    (relationships : List Relationship) {t u : Fin tables.length} (ne : t ≠ u) :
    ((boxesOf config measure tables relationships).get t).Clear
      ((boxesOf config measure tables relationships).get u) := by
  have partition := layersOf_partition tables relationships
  have apart := partition.nodup_iff.2 (List.nodup_finRange _)
  have listed : ∀ t, t ∈ (layersOf tables relationships).flatten := fun t =>
    partition.mem_iff.2 (List.mem_finRange t)
  have widths : ∀ t : Fin tables.length,
      IsWhole ((Vector.ofFn fun t => (tables.get t).size config measure).get t).width ∧
        0 ≤ ((Vector.ofFn fun t => (tables.get t).size config measure).get t).width := by
    intro t
    rw [get_sizes]
    exact Table.size_width config measure _ room.minWidth
  exact Boxes.clear_of_spaced room.minGap (sub_pos.2 room.gapY)
    (Graph.arrange_spaced _ room.minGap.le widths apart)
    (Graph.arrange_stacked _ (zero_le_one.trans room.gapY.le) apart) (listed t) (listed u) ne

theorem fits_ofTables (room : config.Roomy) (distinct : (tables.map (·.name)).Nodup)
    (measure : Measurer ℚ) (relationships : List Relationship) :
    (ofTables config measure tables relationships).Fits config tables := by
  have found := box?_ofTables config measure tables relationships distinct
  constructor
  · intro t ht
    obtain ⟨i, rfl⟩ := List.mem_iff_get.1 ht
    obtain ⟨width, height⟩ := size_boxesOf config measure relationships i
    refine ⟨_, found i, ?_, height⟩
    rw [width]
    exact (Table.size_width config measure _ room.minWidth).2
  · intro t ht u hu ne a b ha hb
    obtain ⟨i, rfl⟩ := List.mem_iff_get.1 ht
    obtain ⟨j, rfl⟩ := List.mem_iff_get.1 hu
    rw [found, Option.some_inj] at ha hb
    subst ha hb
    exact boxesOf_clear room measure relationships fun eq => ne (by rw [eq])

end Layout

end SchemaDiagram
