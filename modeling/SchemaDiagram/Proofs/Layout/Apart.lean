import Mathlib.Tactic.Linarith
import SchemaDiagram.Layout.Arrangement
import SchemaDiagram.Proofs.NameMap
import SchemaDiagram.Proofs.Layout.Layering
import SchemaDiagram.Proofs.Layout.Spacing
import SchemaDiagram.Proofs.Layout.Stacking

/-!
# Boxes stand apart

No two boxes of a layout overlap: within a layer the least gap lies between them, and layers clear
each other by their gap, up to what rounding to whole places can take from it.
-/

namespace SchemaDiagram

/-- Everything that decides the height of a place in the diagram is an integer. -/
structure Config.WholeRows (config : Config ℚ) : Prop where
  paddingY : IsWhole config.paddingY
  gapY : IsWhole config.gapY
  headerHeight : IsWhole config.headerHeight
  rowHeight : IsWhole config.rowHeight
  tablePadding : IsWhole config.tablePadding

namespace Layout

def LeftOf (gap : ℚ) (l : Layout ℚ) (a b : Text) : Prop :=
  ∃ boxA boxB, l.box? a = some boxA ∧ l.box? b = some boxB ∧ boxA.right + gap ≤ boxB.x

def Above (gap : ℚ) (l : Layout ℚ) (a b : Text) : Prop :=
  ∃ boxA boxB, l.box? a = some boxA ∧ l.box? b = some boxB ∧ boxA.bottom + gap ≤ boxB.y

def LayersAbove (gap : ℚ) (l : Layout ℚ) : Prop :=
  l.layers.Pairwise fun upper lower => ∀ a ∈ upper, ∀ b ∈ lower, l.Above gap a b

structure BoxesApart (config : Config ℚ) (l : Layout ℚ) : Prop where
  beside : ∀ layer ∈ l.layers, ∀ a ∈ layer, ∀ b ∈ layer, a ≠ b →
    l.LeftOf config.minGap a b ∨ l.LeftOf config.minGap b a
  below : l.LayersAbove (config.gapY - 1)
  clear : l.LayersAbove 0
  belowWhole : config.WholeRows → l.LayersAbove config.gapY

end Layout

namespace Table

theorem size_width (config : Config ℚ) (measure : Measurer ℚ) (t : Table)
    (nonneg : 0 ≤ config.minWidth) :
    IsWhole (t.size config measure).width ∧ 0 ≤ (t.size config measure).width :=
  ⟨Scalar.ceil_whole _, nonneg.trans ((Scalar.right_le_max _ _).trans (Scalar.le_ceil _))⟩

theorem size_height_whole {config : Config ℚ} (whole : config.WholeRows) (measure : Measurer ℚ)
    (t : Table) : IsWhole (t.size config measure).height :=
  (whole.headerHeight.add ((IsWhole.natCast _).mul whole.rowHeight)).add whole.tablePadding

end Table

namespace Boxes

variable {n : Nat}

theorem get_ofSizes (sizes : Vector (Size ℚ) n) (t : Fin n) :
    (ofSizes sizes).get t = ⟨0, 0, (sizes.get t).width, (sizes.get t).height⟩ := by
  rw [get_eq_getElem]
  simp only [ofSizes, Vector.getElem_map]
  rfl

theorem get_shift (boxes : Boxes ℚ n) (dx dy : ℚ) (t : Fin n) :
    (boxes.shift dx dy).get t = { boxes.get t with
      x := Scalar.round ((boxes.get t).x + dx), y := Scalar.round ((boxes.get t).y + dy) } := by
  rw [get_eq_getElem]
  simp only [shift, Vector.getElem_map]
  rfl

theorem get_alignToPadding (config : Config ℚ) (boxes : Boxes ℚ n) :
    ∃ dx dy : ℚ, IsWhole dx ∧ IsWhole dy ∧ ∀ t, (boxes.alignToPadding config).get t =
      { boxes.get t with
        x := Scalar.round ((boxes.get t).x + dx), y := Scalar.round ((boxes.get t).y + dy) } := by
  unfold alignToPadding
  split
  · exact ⟨_, _, Scalar.round_whole _, Scalar.round_whole _, get_shift _ _ _⟩
  · next missing =>
    -- only a diagram without boxes has no bounds
    refine ⟨0, 0, .zero, .zero, fun t => ?_⟩
    have some : ∀ f : Box ℚ → ℚ, ∃ x, Scalar.least? (boxes.toList.map f) = some x := by
      intro f
      have ne : boxes.toList.map f ≠ [] :=
        List.ne_nil_of_length_pos (by simpa using Nat.zero_lt_of_lt t.isLt)
      obtain ⟨x, l, eq⟩ := List.exists_cons_of_ne_nil ne
      exact ⟨_, by rw [eq]; rfl⟩
    obtain ⟨left, hleft⟩ := some (·.x)
    obtain ⟨top, htop⟩ := some (·.y)
    exact (missing left top hleft htop).elim

theorem Stacked.congr {gap : ℚ} {layers : List (List (Fin n))} {a b : Boxes ℚ n}
    (h : a.SameRows b) (k : Stacked gap layers b) : Stacked gap layers a := by
  apply k.imp
  intro upper lower above t ht u hu
  unfold Box.bottom
  rw [(h t).1, (h t).2.2, (h u).1]
  exact above t ht u hu

variable {layer : List (Fin n)} {layers : List (List (Fin n))} {boxes : Boxes ℚ n}

theorem exists_shift_x (config : Config ℚ) (places : ∀ t ∈ layer, IsWhole (boxes.get t).x) :
    ∃ dx : ℚ, ∀ t ∈ layer, ((boxes.alignToPadding config).get t).x = (boxes.get t).x + dx := by
  obtain ⟨dx, dy, wholeX, -, aligned⟩ := get_alignToPadding config boxes
  refine ⟨dx, fun t ht => ?_⟩
  rw [aligned]
  exact Scalar.round_of_whole ((places t ht).add wholeX)

theorem Spaced.align (config : Config ℚ) {gap wide : ℚ} (enough : gap ≤ wide)
    (places : ∀ t ∈ layer, IsWhole (boxes.get t).x) (h : Spaced wide layer boxes) :
    Spaced gap layer (boxes.alignToPadding config) := by
  obtain ⟨dx, shifted⟩ := exists_shift_x config places
  obtain ⟨_, _, -, -, aligned⟩ := get_alignToPadding config boxes
  have keep : ∀ a ∈ layer, ∀ b ∈ layer, IsLeftOf wide boxes a b →
      IsLeftOf gap (boxes.alignToPadding config) a b := by
    intro a ha b hb left
    unfold IsLeftOf Box.right at left ⊢
    have width : ((boxes.alignToPadding config).get a).width = (boxes.get a).width := by
      rw [aligned]
    rw [shifted a ha, shifted b hb, width]
    linarith
  intro a ha b hb ne
  exact (h a ha b hb ne).imp (keep a ha b hb) (keep b hb a ha)

theorem Stacked.align (config : Config ℚ) {gap : ℚ} (h : Stacked gap layers boxes) :
    Stacked (gap - 1) layers (boxes.alignToPadding config) := by
  obtain ⟨dx, dy, -, -, aligned⟩ := get_alignToPadding config boxes
  apply h.imp
  intro upper lower above a ha b hb
  have room := above a ha b hb
  have down := (Scalar.round_near ((boxes.get a).y + dy)).2
  have up := (Scalar.round_near ((boxes.get b).y + dy)).1
  rw [aligned, aligned]
  unfold Box.bottom at room ⊢
  dsimp only
  linarith

theorem Stacked.align_whole (config : Config ℚ) {gap : ℚ}
    (places : ∀ t ∈ layers.flatten, IsWhole (boxes.get t).y) (h : Stacked gap layers boxes) :
    Stacked gap layers (boxes.alignToPadding config) := by
  obtain ⟨dx, dy, -, wholeY, aligned⟩ := get_alignToPadding config boxes
  have shifted : ∀ t ∈ layers.flatten,
      ((boxes.alignToPadding config).get t).y = (boxes.get t).y + dy := by
    intro t ht
    rw [aligned]
    exact Scalar.round_of_whole ((places t ht).add wholeY)
  refine h.imp_of_mem fun {upper lower} hu hl above a ha b hb => ?_
  have room := above a ha b hb
  have height : ((boxes.alignToPadding config).get a).height = (boxes.get a).height := by
    rw [aligned]
  unfold Box.bottom at room ⊢
  rw [shifted a (List.mem_flatten.2 ⟨upper, hu, ha⟩), height,
    shifted b (List.mem_flatten.2 ⟨lower, hl, hb⟩)]
  linarith

end Boxes

namespace Graph

variable {n : Nat} (g : Graph n) {config : Config ℚ} {sizes : Vector (Size ℚ) n}
  {layers : List (List (Fin n))}

theorem sizes_placeLayers (config : Config ℚ) (sizes : Vector (Size ℚ) n)
    (layers : List (List (Fin n))) (t : Fin n) :
    (((Boxes.ofSizes sizes).placeLayers config layers).get t).width = (sizes.get t).width ∧
      (((Boxes.ofSizes sizes).placeLayers config layers).get t).height = (sizes.get t).height := by
  have same := Boxes.sameSizes_placeLayersFrom config
    ((layers.map ((Boxes.ofSizes sizes).layerWidth config.gapX)).foldl Scalar.max (Scalar.ofNat 0))
    (Boxes.ofSizes sizes) config.paddingY layers t
  rwa [Boxes.get_ofSizes] at same

theorem sameRows_separated (config : Config ℚ) (layers : List (List (Fin n)))
    (boxes : Boxes ℚ n) : ((g.relax config layers boxes).separate config layers).SameRows boxes :=
  (Boxes.sameRows_separate config layers _).trans (Boxes.sameRows_relax g config layers boxes)

theorem arrange_spaced (minGap : 0 ≤ config.minGap)
    (widths : ∀ t, IsWhole (sizes.get t).width ∧ 0 ≤ (sizes.get t).width)
    (apart : layers.flatten.Nodup) :
    ∀ layer ∈ layers, Boxes.Spaced config.minGap layer (g.arrange config sizes layers) := by
  have relaxedWidths : (g.relax config layers
      ((Boxes.ofSizes sizes).placeLayers config layers)).WholeWidths := by
    intro t
    rw [(Boxes.sameRows_relax g config layers _ t).2.1, (sizes_placeLayers config sizes layers t).1]
    exact widths t
  have spaced := Boxes.foldl_separateLayer_spaced (minGap.trans (Scalar.le_ceil _)) apart
    relaxedWidths
  have places := Boxes.foldl_separateLayer_whole (Scalar.ceil_whole config.minGap) apart
    fun t => (relaxedWidths t).1
  intro layer hl
  exact (spaced layer hl).align config (Scalar.le_ceil _)
    fun t ht => places t (List.mem_flatten.2 ⟨layer, hl, ht⟩)

theorem placed_stacked (gapY : 0 ≤ config.gapY) (apart : layers.flatten.Nodup) :
    Boxes.Stacked config.gapY layers ((Boxes.ofSizes sizes).placeLayers config layers) :=
  (Boxes.placeLayersFrom_stacked gapY _ _ _ apart).2

theorem arrange_stacked (gapY : 0 ≤ config.gapY) (apart : layers.flatten.Nodup) :
    Boxes.Stacked (config.gapY - 1) layers (g.arrange config sizes layers) :=
  ((placed_stacked gapY apart).congr (g.sameRows_separated config layers _)).align config

theorem arrange_stacked_whole (rows : config.WholeRows) (gapY : 0 ≤ config.gapY)
    (heights : ∀ t, IsWhole (sizes.get t).height) (apart : layers.flatten.Nodup) :
    Boxes.Stacked config.gapY layers (g.arrange config sizes layers) := by
  refine Boxes.Stacked.align_whole config (fun t ht => ?_)
    ((placed_stacked gapY apart).congr (g.sameRows_separated config layers _))
  rw [(g.sameRows_separated config layers _ t).1]
  refine Boxes.placeLayersFrom_whole rows.gapY _ (fun u => ?_) rows.paddingY t ht
  rw [Boxes.get_ofSizes]
  exact heights u

end Graph

namespace Layout

variable (config : Config ℚ) (measure : Measurer ℚ) (tables : List Table)
  (relationships : List Relationship)

def graphOf : Graph tables.length := Graph.ofRelationships tables relationships

def layersOf : List (List (Fin tables.length)) :=
  (graphOf tables relationships).orderLayers (graphOf tables relationships).layers

def boxesOf : Boxes ℚ tables.length :=
  (graphOf tables relationships).arrange config
    (Vector.ofFn fun t => (tables.get t).size config measure) (layersOf tables relationships)

theorem layers_ofTables : (ofTables config measure tables relationships).layers =
    (layersOf tables relationships).map (·.map fun t => (tables.get t).name) := by
  simp only [ofTables, ofBoxes]
  split <;> rfl

theorem boxes_ofTables : (ofTables config measure tables relationships).boxes =
    (tables.zip (boxesOf config measure tables relationships).toList).foldl
      (fun m c => m.insertIfNew c.1.name c.2) .empty := by
  simp only [ofTables, ofBoxes]
  split <;> rfl

theorem box?_of_find? {α : Type} {l : Layout α} {name : Text} {b : Box α}
    (h : l.boxes.find? name = some b) : l.box? name = some b := by
  have known : l.boxes.contains name := NameMap.contains_iff.2 (by simp [h])
  simp [box?, key?, known, h]

theorem map_name_zip (tables : List Table) (boxes : Boxes ℚ tables.length) :
    ((tables.zip boxes.toList).map fun c => c.1.name) = tables.map (·.name) := by
  change (tables.zip boxes.toList).map (Table.name ∘ Prod.fst) = _
  rw [← List.map_map, List.map_fst_zip (by simp)]

theorem box?_ofTables (distinct : (tables.map (·.name)).Nodup) (t : Fin tables.length) :
    (ofTables config measure tables relationships).box? (tables.get t).name =
      some ((boxesOf config measure tables relationships).get t) := by
  let boxes := boxesOf config measure tables relationships
  have names := map_name_zip tables boxes
  have member : (tables.get t, boxes.get t) ∈ tables.zip boxes.toList := by
    refine List.mem_iff_getElem.2 ⟨t, by simp, ?_⟩
    simp [Boxes.get_eq_getElem]
  have found := NameMap.find?_key_of_nodup (fun c : Table × Box ℚ => c.1.name) (names ▸ distinct) member
  apply box?_of_find?
  rw [boxes_ofTables, NameMap.find?_foldl_insertIfNew, found]
  rfl

theorem layersOf_partition :
    (layersOf tables relationships).flatten.Perm (List.finRange tables.length) :=
  (Graph.flatten_perm (Graph.orderLayers_perm _)).trans Graph.layers_partition

/-- What holds of the boxes of two tables holds of the boxes found under their names. -/
theorem above_of_boxesOf (distinct : (tables.map (·.name)).Nodup) {gap : ℚ}
    (h : Boxes.Stacked gap (layersOf tables relationships)
      (boxesOf config measure tables relationships)) :
    (ofTables config measure tables relationships).LayersAbove gap := by
  unfold LayersAbove
  rw [layers_ofTables, List.pairwise_map]
  apply h.imp
  intro upper lower above a ha b hb
  obtain ⟨t, ht, rfl⟩ := List.mem_map.1 ha
  obtain ⟨u, hu, rfl⟩ := List.mem_map.1 hb
  exact ⟨_, _, box?_ofTables _ _ _ _ distinct t, box?_ofTables _ _ _ _ distinct u, above t ht u hu⟩

/-- In the layout of any tables of different names the boxes stand apart, whatever the relaxation
did to them, and the layers list all tables. -/
theorem ofTables_boxes_apart (minGap : 0 ≤ config.minGap) (minWidth : 0 ≤ config.minWidth)
    (gapY : 1 ≤ config.gapY) (distinct : (tables.map (·.name)).Nodup) :
    (ofTables config measure tables relationships).BoxesApart config ∧
      (ofTables config measure tables relationships).layers.flatten.Perm (tables.map (·.name)) := by
  have partition := layersOf_partition tables relationships
  have apart := partition.nodup_iff.2 (List.nodup_finRange _)
  have gapY' : 0 ≤ config.gapY := zero_le_one.trans gapY
  have stacked : Boxes.Stacked (config.gapY - 1) (layersOf tables relationships)
      (boxesOf config measure tables relationships) := Graph.arrange_stacked _ gapY' apart
  constructor
  · constructor
    · intro layer hl a ha b hb ne
      rw [layers_ofTables] at hl
      obtain ⟨numbers, hn, rfl⟩ := List.mem_map.1 hl
      obtain ⟨t, ht, rfl⟩ := List.mem_map.1 ha
      obtain ⟨u, hu, rfl⟩ := List.mem_map.1 hb
      have spaced : Boxes.Spaced config.minGap numbers (boxesOf config measure tables relationships) :=
        Graph.arrange_spaced _ minGap
          (fun t => by simpa [Vector.get] using Table.size_width config measure _ minWidth) apart
          numbers hn
      exact (spaced t ht u hu fun eq => ne (by rw [eq])).imp
        (fun left => ⟨_, _, box?_ofTables _ _ _ _ distinct t, box?_ofTables _ _ _ _ distinct u, left⟩)
        (fun left => ⟨_, _, box?_ofTables _ _ _ _ distinct u, box?_ofTables _ _ _ _ distinct t, left⟩)
    · exact above_of_boxesOf _ _ _ _ distinct stacked
    · refine above_of_boxesOf _ _ _ _ distinct (stacked.imp fun above a ha b hb => ?_)
      have := above a ha b hb
      linarith
    · intro rows
      refine above_of_boxesOf _ _ _ _ distinct (Graph.arrange_stacked_whole _ rows gapY' ?_ apart)
      intro t
      simpa [Vector.get] using Table.size_height_whole rows measure _
  · have names : (List.finRange tables.length).map (fun t => (tables.get t).name) =
        tables.map (·.name) := by
      conv_rhs => rw [← List.map_get_finRange tables, List.map_map]
      rfl
    rw [layers_ofTables, ← List.map_flatten, ← names]
    exact partition.map _

/-- Two tables that refer to a third one, under the standard settings. -/
theorem standard_boxes_apart :
    let config : Config ℚ := .standard
    let tables : List Table := [⟨['a'], none, [], []⟩, ⟨['b'], none, [], []⟩, ⟨['c'], none, [], []⟩]
    let references : List Relationship :=
      [⟨[], ⟨['b'], [['x']]⟩, ⟨['a'], [['y']]⟩⟩, ⟨[], ⟨['c'], [['x']]⟩, ⟨['a'], [['y']]⟩⟩]
    let l := ofTables config (fun _ t => (t.length : ℚ)) tables references
    0 ≤ config.minGap ∧ 0 ≤ config.minWidth ∧ 1 ≤ config.gapY ∧ (tables.map (·.name)).Nodup ∧
      l.BoxesApart config ∧ l.layers.flatten.Perm (tables.map (·.name)) := by
  intro config tables references l
  have minGap : 0 ≤ config.minGap := by
    change (0 : ℚ) ≤ ((50 : ℕ) : ℚ)
    norm_num
  have minWidth : 0 ≤ config.minWidth := by
    change (0 : ℚ) ≤ ((240 : ℕ) : ℚ)
    norm_num
  have gapY : 1 ≤ config.gapY := by
    change (1 : ℚ) ≤ ((90 : ℕ) : ℚ)
    norm_num
  have distinct : (tables.map (·.name)).Nodup := by decide
  exact ⟨minGap, minWidth, gapY, distinct,
    ofTables_boxes_apart config _ tables references minGap minWidth gapY distinct⟩

end Layout

end SchemaDiagram
