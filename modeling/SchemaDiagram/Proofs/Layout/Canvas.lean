import Mathlib.Data.Fintype.EquivFin
import Mathlib.Data.Fintype.Lattice
import SchemaDiagram.Proofs.Layout.Bounds
import SchemaDiagram.Proofs.Layout.Fitting

/-!
# The canvas

The finished boxes stand at whole places, and the padding around them is kept exactly. To the left
that is because separation leaves whole places, which the way to the origin does not round; above
it is because the first layer is placed at the padding already.
-/

namespace SchemaDiagram

namespace Boxes

variable {n : Nat}

theorem mem_toList_map {boxes : Boxes ℚ n} (f : Box ℚ → ℚ) {x : ℚ} :
    x ∈ boxes.toList.map f ↔ x ∈ Set.range fun t => f (boxes.get t) := by
  rw [List.mem_map, Set.mem_range]
  constructor
  · rintro ⟨b, hb, rfl⟩
    obtain ⟨i, hi, rfl⟩ := Vector.mem_iff_getElem.1 (Vector.mem_toList_iff.1 hb)
    exact ⟨⟨i, hi⟩, rfl⟩
  · rintro ⟨t, rfl⟩
    exact ⟨boxes.get t, Vector.mem_toList_iff.2 (Vector.getElem_mem t.isLt), rfl⟩

theorem least?_eq_some {boxes : Boxes ℚ n} {f : Box ℚ → ℚ} {least : ℚ}
    (h : IsLeast (Set.range fun t => f (boxes.get t)) least) :
    Scalar.least? (boxes.toList.map f) = some least := by
  have some : boxes.toList.map f ≠ [] := List.ne_nil_of_mem ((mem_toList_map f).2 h.1)
  obtain ⟨m, found, isLeast⟩ := Scalar.exists_least some
  have same : {x | x ∈ boxes.toList.map f} = Set.range fun t => f (boxes.get t) :=
    Set.ext fun x => mem_toList_map f
  rw [same] at isLeast
  rw [found, isLeast.unique h]

theorem alignToPadding_eq (config : Config ℚ) {boxes : Boxes ℚ n} {left top : ℚ}
    (hleft : IsLeast (Set.range fun t => (boxes.get t).x) left)
    (htop : IsLeast (Set.range fun t => (boxes.get t).y) top) :
    boxes.alignToPadding config =
      boxes.shift (Scalar.round (config.paddingX - left)) (Scalar.round (config.paddingY - top)) := by
  rw [alignToPadding, least?_eq_some hleft, least?_eq_some htop]
  rfl

theorem isLeast_x_aligned {config : Config ℚ} (whole : IsWhole config.paddingX) {boxes : Boxes ℚ n}
    (places : ∀ t, IsWhole (boxes.get t).x) {left top : ℚ}
    (hleft : IsLeast (Set.range fun t => (boxes.get t).x) left)
    (htop : IsLeast (Set.range fun t => (boxes.get t).y) top) :
    IsLeast (Set.range fun t => ((boxes.alignToPadding config).get t).x) config.paddingX := by
  obtain ⟨⟨first, isFirst⟩, leftmost⟩ := hleft
  have distance : IsWhole (config.paddingX - left) := whole.sub (isFirst ▸ places first)
  have moved : ∀ t, ((boxes.alignToPadding config).get t).x =
      (boxes.get t).x + (config.paddingX - left) := by
    intro t
    rw [alignToPadding_eq config ⟨⟨first, isFirst⟩, leftmost⟩ htop, get_shift,
      Scalar.round_of_whole distance]
    exact Scalar.round_of_whole ((places t).add distance)
  constructor
  · refine ⟨first, ?_⟩
    dsimp only at isFirst ⊢
    rw [moved, isFirst]
    ring
  · rintro _ ⟨t, rfl⟩
    have right : left ≤ (boxes.get t).x := leftmost ⟨t, rfl⟩
    dsimp only
    rw [moved]
    linarith

/-- Where the topmost table is at the padding, rounding leaves it there and takes none above it. -/
theorem isLeast_y_aligned {config : Config ℚ} (whole : IsWhole config.paddingY) {boxes : Boxes ℚ n}
    {left : ℚ} (hleft : IsLeast (Set.range fun t => (boxes.get t).x) left)
    (htop : IsLeast (Set.range fun t => (boxes.get t).y) config.paddingY) :
    IsLeast (Set.range fun t => ((boxes.alignToPadding config).get t).y) config.paddingY := by
  have moved : ∀ t, ((boxes.alignToPadding config).get t).y = Scalar.round (boxes.get t).y := by
    intro t
    rw [alignToPadding_eq config hleft htop, get_shift, sub_self, Scalar.round_of_whole .zero]
    dsimp only
    rw [add_zero]
  obtain ⟨⟨first, isFirst⟩, topmost⟩ := htop
  constructor
  · refine ⟨first, ?_⟩
    dsimp only at isFirst ⊢
    rw [moved, isFirst, Scalar.round_of_whole whole]
  · rintro _ ⟨t, rfl⟩
    have below : config.paddingY ≤ (boxes.get t).y := topmost ⟨t, rfl⟩
    dsimp only
    rw [moved, ← Scalar.round_of_whole whole]
    exact Scalar.round_mono below

end Boxes

namespace Graph

variable {n : Nat} (g : Graph n) {config : Config ℚ} {sizes : Vector (Size ℚ) n}
  {layers : List (List (Fin n))}

/-- The boxes as they are separated, before they go to the origin. -/
def separated (config : Config ℚ) (sizes : Vector (Size ℚ) n) (layers : List (List (Fin n))) :
    Boxes ℚ n :=
  (g.relax config layers ((Boxes.ofSizes sizes).placeLayers config layers)).separate config layers

theorem separated_whole (widths : ∀ t, IsWhole (sizes.get t).width) (apart : layers.flatten.Nodup)
    (all : ∀ t, t ∈ layers.flatten) (t : Fin n) :
    IsWhole ((g.separated config sizes layers).get t).x := by
  refine Boxes.foldl_separateLayer_whole (Scalar.ceil_whole config.minGap) apart (fun u => ?_) t
    (all t)
  rw [(Boxes.sameRows_relax g config layers _ u).2.1, (sizes_placeLayers config sizes layers u).1]
  exact widths u

/-- The first layer is placed at the padding and every other one below it. -/
theorem isLeast_y_separated {first : List (Fin n)} {below : List (List (Fin n))}
    (gapY : 0 ≤ config.gapY) (apart : (first :: below).flatten.Nodup)
    (all : ∀ t, t ∈ (first :: below).flatten) (some : first ≠ []) :
    IsLeast (Set.range fun t => ((g.separated config sizes (first :: below)).get t).y)
      config.paddingY := by
  have unmoved : ∀ t, ((g.separated config sizes (first :: below)).get t).y =
      (((Boxes.ofSizes sizes).placeLayers config (first :: below)).get t).y := fun t =>
    (g.sameRows_separated config (first :: below) _ t).1
  simp only [unmoved]
  constructor
  · obtain ⟨t, ht⟩ := List.exists_mem_of_ne_nil first some
    have alone : t ∉ below.flatten := fun later =>
      (List.nodup_append.1 apart).2.2 t ht t later rfl
    exact ⟨t, Boxes.placeLayersFrom_first _ _ _ ht alone⟩
  · rintro _ ⟨t, rfl⟩
    exact (Boxes.placeLayersFrom_stacked gapY _ _ _ apart).1 t (all t)

end Graph

namespace Layout

/-- The boxes of exactly the tables stand at whole places, and the canvas leaves exactly the padding
around them. -/
structure InCanvas (config : Config ℚ) (tables : List Table) (l : Layout ℚ) : Prop where
  keys : l.boxes.keys.Perm (tables.map (·.name))
  whole : ∀ b ∈ l.boxes.values, IsWhole b.x ∧ IsWhole b.y
  left : IsLeast {x | x ∈ l.boxes.values.map (·.x)} config.paddingX
  top : IsLeast {y | y ∈ l.boxes.values.map (·.y)} config.paddingY
  width : ∃ right, IsGreatest {x | x ∈ l.boxes.values.map (·.right)} right ∧
    l.width = right + config.paddingX
  height : ∃ bottom, IsGreatest {y | y ∈ l.boxes.values.map (·.bottom)} bottom ∧
    l.height = bottom + config.paddingY

section

variable (config : Config ℚ) (measure : Measurer ℚ) {tables : List Table}
  (relationships : List Relationship) (distinct : (tables.map (·.name)).Nodup)

include distinct

theorem entries_ofTables :
    (ofTables config measure tables relationships).boxes.entries.Perm
      ((tables.zip (boxesOf config measure tables relationships).toList).map
        fun c => (c.1.name, c.2)) := by
  rw [boxes_ofTables]
  have named := NameMap.entries_foldl_insertIfNew (fun c : Table × Box ℚ => c.1.name) (·.2)
    (m := .empty) (map_name_zip tables (boxesOf config measure tables relationships) ▸ distinct)
    fun _ _ => List.not_mem_nil
  rwa [show (NameMap.empty : NameMap (Box ℚ)).entries = [] from rfl, List.append_nil] at named

theorem keys_ofTables :
    (ofTables config measure tables relationships).boxes.keys.Perm (tables.map (·.name)) := by
  have names := (entries_ofTables config measure relationships distinct).map Prod.fst
  rw [List.map_map] at names
  rwa [← map_name_zip tables (boxesOf config measure tables relationships)]

theorem values_ofTables :
    (ofTables config measure tables relationships).boxes.values.Perm
      (boxesOf config measure tables relationships).toList := by
  have boxes := (entries_ofTables config measure relationships distinct).map Prod.snd
  rw [List.map_map] at boxes
  change List.Perm _ ((tables.zip _).map Prod.snd) at boxes
  rwa [List.map_snd_zip (by simp)] at boxes

theorem mem_values_map (f : Box ℚ → ℚ) :
    {x | x ∈ (ofTables config measure tables relationships).boxes.values.map f} =
      Set.range fun t => f ((boxesOf config measure tables relationships).get t) := by
  ext x
  rw [← Boxes.mem_toList_map f]
  exact ((values_ofTables config measure relationships distinct).map f).mem_iff

end

variable {config : Config ℚ} {tables : List Table}

theorem layersOf_eq_cons (relationships : List Relationship) (some : tables ≠ []) :
    ∃ first below, layersOf tables relationships = first :: below ∧ first ≠ [] := by
  have layering : (graphOf tables relationships).IsLayering (layersOf tables relationships) :=
    Graph.layers_isLayering.permute (Graph.orderLayers_perm _)
  cases layers : layersOf tables relationships with
  | nil =>
    have none := layering.partition
    rw [layers, List.flatten_nil, List.nil_perm, List.finRange_eq_nil_iff] at none
    exact (some (List.length_eq_zero_iff.1 none)).elim
  | cons first below =>
    have first_ne := layering.nonempty first (by rw [layers]; exact List.mem_cons_self)
    exact ⟨first, below, rfl, first_ne⟩

/-- All boxes of a layout are separated to whole places and then taken to the padding. -/
theorem boxesOf_aligned (paddingX : IsWhole config.paddingX) (paddingY : IsWhole config.paddingY)
    (gapY : 0 ≤ config.gapY) (some : tables ≠ []) (measure : Measurer ℚ)
    (relationships : List Relationship) :
    let boxes := boxesOf config measure tables relationships
    (∀ t, IsWhole (boxes.get t).x ∧ IsWhole (boxes.get t).y) ∧
      IsLeast (Set.range fun t => (boxes.get t).x) config.paddingX ∧
      IsLeast (Set.range fun t => (boxes.get t).y) config.paddingY := by
  let sizes := Vector.ofFn fun t : Fin tables.length => (tables.get t).size config measure
  let separated := (graphOf tables relationships).separated config sizes
    (layersOf tables relationships)
  have partition := layersOf_partition tables relationships
  have apart : (layersOf tables relationships).flatten.Nodup :=
    partition.nodup_iff.2 (List.nodup_finRange _)
  have all : ∀ t, t ∈ (layersOf tables relationships).flatten := fun t =>
    partition.mem_iff.2 (List.mem_finRange t)
  have widths : ∀ t, IsWhole (sizes.get t).width := fun t => by
    rw [get_sizes]
    exact Scalar.ceil_whole _
  have places : ∀ t, IsWhole (separated.get t).x := Graph.separated_whole _ widths apart all
  obtain ⟨left, leftmost⟩ : ∃ left, IsLeast (Set.range fun t => (separated.get t).x) left := by
    have : Nonempty (Fin tables.length) := ⟨⟨0, List.length_pos_iff.2 some⟩⟩
    obtain ⟨t, least⟩ := Finite.exists_min fun t => (separated.get t).x
    exact ⟨_, ⟨t, rfl⟩, by rintro _ ⟨u, rfl⟩; exact least u⟩
  have topmost : IsLeast (Set.range fun t => (separated.get t).y) config.paddingY := by
    obtain ⟨first, below, layers, first_ne⟩ := layersOf_eq_cons relationships some
    rw [layers] at apart all
    have top : IsLeast (Set.range fun t =>
        (((graphOf tables relationships).separated config sizes (first :: below)).get t).y)
        config.paddingY := Graph.isLeast_y_separated _ gapY apart all first_ne
    rwa [← layers] at top
  intro boxes
  refine ⟨fun t => ?_, Boxes.isLeast_x_aligned paddingX places leftmost topmost,
    Boxes.isLeast_y_aligned paddingY leftmost topmost⟩
  obtain ⟨dx, dy, -, -, aligned⟩ := Boxes.get_alignToPadding config separated
  have here : boxes.get t = { separated.get t with
      x := Scalar.round ((separated.get t).x + dx), y := Scalar.round ((separated.get t).y + dy) } :=
    aligned t
  rw [here]
  exact ⟨Scalar.round_whole _, Scalar.round_whole _⟩

theorem size_ofBoxes {boxes : NameMap (Box ℚ)} {layers : List (List Text)} {bounds : Bounds ℚ}
    (found : (ofBoxes config boxes layers).bounds? = some bounds) :
    (ofBoxes config boxes layers).width = bounds.right + config.paddingX ∧
      (ofBoxes config boxes layers).height = bounds.bottom + config.paddingY := by
  let bare : Layout ℚ := { Layout.empty with boxes, layers }
  have same : (ofBoxes config boxes layers).boxes = bare.boxes := by
    unfold ofBoxes
    dsimp only
    split <;> rfl
  -- the bounds were taken before the canvas had a size, of the same boxes
  have bareFound : bare.bounds? = some bounds := by
    rw [← found, bounds?, bounds?, same]
  have sized : ofBoxes config boxes layers = { bare with
      width := bounds.right + config.paddingX, height := bounds.bottom + config.paddingY } := by
    unfold ofBoxes
    dsimp only
    rw [show ({ Layout.empty with boxes, layers } : Layout ℚ).bounds? = some bounds from bareFound]
  rw [sized]
  exact ⟨rfl, rfl⟩

/-- A layout of any tables with different names sits exactly in its canvas. -/
theorem ofTables_inCanvas (paddingX : IsWhole config.paddingX) (paddingY : IsWhole config.paddingY)
    (gapY : 0 ≤ config.gapY) (some : tables ≠ []) (distinct : (tables.map (·.name)).Nodup)
    (measure : Measurer ℚ) (relationships : List Relationship) :
    (ofTables config measure tables relationships).InCanvas config tables := by
  obtain ⟨whole, left, top⟩ := boxesOf_aligned paddingX paddingY gapY some measure relationships
  have keys := keys_ofTables config measure relationships distinct
  have values := values_ofTables config measure relationships distinct
  have places := mem_values_map config measure relationships distinct
  have boxes_ne : (ofTables config measure tables relationships).boxes.values ≠ [] := by
    intro none
    have lengths := values.length_eq
    rw [none] at lengths
    simp only [List.length_nil, Vector.length_toList] at lengths
    exact some (List.length_eq_zero_iff.1 lengths.symm)
  obtain ⟨bounds, found, tight⟩ := exists_bounds boxes_ne
  obtain ⟨width, height⟩ := size_ofBoxes found
  refine ⟨keys, fun b hb => ?_, ?_, ?_, ⟨_, tight.right, width⟩, ⟨_, tight.bottom, height⟩⟩
  · obtain ⟨i, hi, rfl⟩ := Vector.mem_iff_getElem.1 (Vector.mem_toList_iff.1 (values.mem_iff.1 hb))
    exact whole ⟨i, hi⟩
  · rw [places]
    exact left
  · rw [places]
    exact top

/-- Two tables that refer to a third one, with rows of a height that is not whole. -/
theorem halfRows_inCanvas :
    let config : Config ℚ := { Config.standard with rowHeight := 51 / 2 }
    let rows : List Column := [{ name := ['x'] }]
    let tables : List Table :=
      [⟨['a'], none, rows, []⟩, ⟨['b'], none, rows, []⟩, ⟨['c'], none, rows, []⟩]
    let references : List Relationship :=
      [⟨[], ⟨['b'], [['x']]⟩, ⟨['a'], [['x']]⟩⟩, ⟨[], ⟨['c'], [['x']]⟩, ⟨['a'], [['x']]⟩⟩]
    let l := ofTables config (fun _ t => (t.length : ℚ)) tables references
    IsWhole config.paddingX ∧ IsWhole config.paddingY ∧ 0 ≤ config.gapY ∧ tables ≠ [] ∧
      (tables.map (·.name)).Nodup ∧ l.InCanvas config tables := by
  intro config rows tables references l
  have paddingX : IsWhole config.paddingX := .natCast 80
  have paddingY : IsWhole config.paddingY := .natCast 70
  have gapY : 0 ≤ config.gapY := by
    change (0 : ℚ) ≤ ((90 : ℕ) : ℚ)
    norm_num
  have some : tables ≠ [] := List.cons_ne_nil _ _
  have distinct : (tables.map (·.name)).Nodup := by decide
  exact ⟨paddingX, paddingY, gapY, some, distinct,
    ofTables_inCanvas paddingX paddingY gapY some distinct _ references⟩

end Layout

end SchemaDiagram
