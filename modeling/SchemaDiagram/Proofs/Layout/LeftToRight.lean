import Mathlib
import SchemaDiagram.Proofs.Layout.Apart

/-!
# From left to right

A layout lists the tables of a layer in the order in which they were first placed. Separation keeps
the order of the whole places that relaxation leaves the tables at. So the listed order is that of
the finished boxes exactly if relaxation took no table past another one of its layer.
-/

namespace SchemaDiagram

namespace Boxes

variable {n : Nat} {layer : List (Fin n)} {layers : List (List (Fin n))} {a b boxes : Boxes ℚ n}

def Ascending (boxes : Boxes ℚ n) (layer : List (Fin n)) : Prop :=
  layer.Pairwise fun t u => (boxes.get t).x < (boxes.get u).x

/-- No table's nearest whole place lies right of that of a table listed behind it. -/
def RoughlyAscending (boxes : Boxes ℚ n) (layer : List (Fin n)) : Prop :=
  layer.Pairwise fun t u => Scalar.round (boxes.get t).x ≤ Scalar.round (boxes.get u).x

theorem Ascending.congr_iff (h : ∀ t ∈ layer, a.get t = b.get t) :
    a.Ascending layer ↔ b.Ascending layer :=
  List.Pairwise.iff_of_mem fun ht hu => by rw [h _ ht, h _ hu]

theorem RoughlyAscending.congr_iff (h : ∀ t ∈ layer, a.get t = b.get t) :
    a.RoughlyAscending layer ↔ b.RoughlyAscending layer :=
  List.Pairwise.iff_of_mem fun ht hu => by rw [h _ ht, h _ hu]

theorem Ascending.roughly (h : boxes.Ascending layer) : boxes.RoughlyAscending layer :=
  h.imp fun lt => Scalar.round_mono lt.le

def Wide (boxes : Boxes ℚ n) : Prop := ∀ t, 0 < (boxes.get t).width

theorem Wide.congr (h : a.SameRows b) (k : b.Wide) : a.Wide := by
  intro t
  rw [(h t).2.1]
  exact k t

theorem IsLeftOf.x_lt {gap : ℚ} (nonneg : 0 ≤ gap) (wide : boxes.Wide) {t u : Fin n}
    (h : IsLeftOf gap boxes t u) : (boxes.get t).x < (boxes.get u).x := by
  have := wide t
  unfold IsLeftOf Box.right at h
  linarith

theorem leftToRight_roughly (boxes : Boxes ℚ n) (nodup : layer.Nodup) :
    boxes.RoughlyAscending ((boxes.roundLayer layer).leftToRight layer) := by
  refine (leftToRight_sorted (boxes.roundLayer layer) layer).imp_of_mem fun {t u} ht hu le => ?_
  rwa [get_roundLayer nodup (mem_leftToRight.1 ht), get_roundLayer nodup (mem_leftToRight.1 hu)]
    at le

/-- A layer that is in order already is separated in the order it is listed in. -/
theorem leftToRight_eq_self (nodup : layer.Nodup) (h : boxes.RoughlyAscending layer) :
    (boxes.roundLayer layer).leftToRight layer = layer := by
  refine List.mergeSort_of_pairwise (h.imp_of_mem fun {t u} ht hu le => decide_eq_true ?_)
  rwa [get_roundLayer nodup ht, get_roundLayer nodup hu]

section

variable {gap : ℚ}

theorem separateLayer_ascending_iff (nonneg : 0 ≤ gap) (widths : boxes.WholeWidths)
    (wide : boxes.Wide) (nodup : layer.Nodup) :
    (boxes.separateLayer gap layer).Ascending layer ↔ boxes.RoughlyAscending layer := by
  have ascending : (boxes.separateLayer gap layer).Ascending
      ((boxes.roundLayer layer).leftToRight layer) :=
    (separateLayer_pairwise nonneg widths nodup).imp
      (IsLeftOf.x_lt nonneg (wide.congr (sameRows_separateLayer gap boxes layer)))
  constructor
  · intro listed
    -- two ascending lists of the same tables are one list
    have perm : ((boxes.roundLayer layer).leftToRight layer).Perm layer := List.mergeSort_perm _ _
    have same : (boxes.roundLayer layer).leftToRight layer = layer :=
      perm.eq_of_pairwise (fun t u _ _ tu ut => (lt_asymm tu ut).elim) ascending listed
    rw [← same]
    exact leftToRight_roughly boxes nodup
  · intro roughly
    rwa [leftToRight_eq_self nodup roughly] at ascending

theorem foldl_separateLayer_ascending_iff (nonneg : 0 ≤ gap) (apart : layers.flatten.Nodup)
    (widths : boxes.WholeWidths) (wide : boxes.Wide) : ∀ layer ∈ layers,
      (layers.foldl (separateLayer gap) boxes).Ascending layer ↔ boxes.RoughlyAscending layer := by
  intro layer hl
  obtain ⟨before, rows, same, after⟩ := exists_separateLayer gap apart boxes layer hl
  have nodup := (List.nodup_flatten.1 apart).1 layer hl
  rw [Ascending.congr_iff after, ← RoughlyAscending.congr_iff same]
  exact separateLayer_ascending_iff nonneg (widths.congr rows) (wide.congr rows) nodup

theorem align_ascending_iff (config : Config ℚ) (places : ∀ t ∈ layer, IsWhole (boxes.get t).x) :
    (boxes.alignToPadding config).Ascending layer ↔ boxes.Ascending layer := by
  obtain ⟨dx, shifted⟩ := exists_shift_x config places
  refine List.Pairwise.iff_of_mem fun {t u} ht hu => ?_
  rw [shifted t ht, shifted u hu]
  exact add_lt_add_iff_right dx

theorem placeLayer_ascending (nonneg : 0 ≤ gap) (y x : ℚ) (wide : boxes.Wide)
    (nodup : layer.Nodup) :
    (boxes.placeLayer gap y x layer).Ascending layer ∧
      ∀ t ∈ layer, x ≤ ((boxes.placeLayer gap y x layer).get t).x := by
  induction layer generalizing boxes x with
  | nil => exact ⟨.nil, by simp⟩
  | cons t layer ih =>
    obtain ⟨fresh, nodup⟩ := List.nodup_cons.1 nodup
    have wide' : (boxes.moveTo t x y).Wide := by
      intro u
      rw [get_moveTo]
      split
      · exact wide t
      · exact wide u
    obtain ⟨ascending, right⟩ := ih (x + ((boxes.get t).width + gap)) wide' nodup
    rw [placeLayer]
    generalize placed : (boxes.moveTo t x y).placeLayer gap y (x + ((boxes.get t).width + gap))
      layer = behind at ascending right ⊢
    have first : (behind.get t).x = x := by
      rw [← placed, placeLayer_agreeOff _ _ _ _ layer t fresh, get_moveTo, if_pos rfl]
    have width := wide t
    constructor
    · refine List.pairwise_cons.2 ⟨fun u hu => ?_, ascending⟩
      have := right u hu
      linarith
    · intro u hu
      rcases List.mem_cons.1 hu with rfl | hu
      · exact first.ge
      · have := right u hu
        linarith

theorem placeLayersFrom_ascending {config : Config ℚ} (nonneg : 0 ≤ config.gapX) (widest y : ℚ)
    (wide : boxes.Wide) (apart : layers.flatten.Nodup) :
    ∀ layer ∈ layers, (boxes.placeLayersFrom config widest y layers).Ascending layer := by
  induction layers generalizing boxes y with
  | nil => simp
  | cons first layers ih =>
    rw [List.flatten_cons, List.nodup_append] at apart
    obtain ⟨nodup, apart, disjoint⟩ := apart
    intro layer hl
    rw [placeLayersFrom]
    rcases List.mem_cons.1 hl with rfl | hl
    · have placed := (placeLayer_ascending nonneg y
        (config.paddingX + Scalar.half (widest - boxes.layerWidth config.gapX layer)) wide nodup).1
      refine (Ascending.congr_iff fun t ht => ?_).2 placed
      exact placeLayersFrom_agreeOff _ _ _ _ layers t fun k => disjoint t ht t k rfl
    · refine ih _ (fun t => ?_) apart layer hl
      rw [(sameSizes_placeLayer _ _ _ _ _ t).1]
      exact wide t

end

end Boxes

theorem Table.size_width_pos {config : Config ℚ} (pos : 0 < config.minWidth) (measure : Measurer ℚ)
    (t : Table) : 0 < (t.size config measure).width :=
  pos.trans_le ((Scalar.right_le_max _ _).trans (Scalar.le_ceil _))

namespace Layout

/-- Each layer lists its tables in the order in which their boxes begin, from left to right. -/
def ListedLeftToRight (l : Layout ℚ) : Prop :=
  ∀ layer ∈ l.layers, layer.Pairwise fun a b =>
    ∃ boxA boxB, l.box? a = some boxA ∧ l.box? b = some boxB ∧ boxA.x < boxB.x

section

variable (config : Config ℚ) (measure : Measurer ℚ) (tables : List Table)
  (relationships : List Relationship)

/-- The boxes of a layout as they are first placed. -/
def placedOf : Boxes ℚ tables.length :=
  (Boxes.ofSizes (Vector.ofFn fun t => (tables.get t).size config measure)).placeLayers config
    (layersOf tables relationships)

/-- The boxes of a layout after relaxation. -/
def relaxedOf : Boxes ℚ tables.length :=
  (graphOf tables relationships).relax config (layersOf tables relationships)
    (placedOf config measure tables relationships)

end

variable {config : Config ℚ} {measure : Measurer ℚ} {tables : List Table}
  {relationships : List Relationship}

theorem listedLeftToRight_iff (distinct : (tables.map (·.name)).Nodup) :
    (ofTables config measure tables relationships).ListedLeftToRight ↔
      ∀ layer ∈ layersOf tables relationships,
        (boxesOf config measure tables relationships).Ascending layer := by
  have boxes := box?_ofTables config measure tables relationships distinct
  unfold ListedLeftToRight
  rw [layers_ofTables, List.forall_mem_map]
  refine forall₂_congr fun layer _ => ?_
  rw [List.pairwise_map]
  refine List.Pairwise.iff_of_mem fun {t u} _ _ => ?_
  rw [boxes t, boxes u]
  simp

theorem width_placedOf (t : Fin tables.length) :
    ((placedOf config measure tables relationships).get t).width =
      ((tables.get t).size config measure).width := by
  rw [placedOf, (Graph.sizes_placeLayers _ _ _ t).1]
  simp only [Vector.get, Vector.toArray_ofFn, Array.getElem_ofFn]
  rfl

theorem layersOf_apart (tables : List Table) (relationships : List Relationship) :
    (layersOf tables relationships).flatten.Nodup :=
  (layersOf_partition tables relationships).nodup_iff.2 (List.nodup_finRange _)

theorem boxesOf_ascending_iff (minGap : 0 ≤ config.minGap) (minWidth : 0 < config.minWidth) :
    ∀ layer ∈ layersOf tables relationships,
      (boxesOf config measure tables relationships).Ascending layer ↔
        (relaxedOf config measure tables relationships).RoughlyAscending layer := by
  have rows : (relaxedOf config measure tables relationships).SameRows
      (placedOf config measure tables relationships) := Boxes.sameRows_relax _ _ _ _
  have widths : (relaxedOf config measure tables relationships).WholeWidths := by
    intro t
    rw [(rows t).2.1, width_placedOf]
    exact Table.size_width config measure _ minWidth.le
  have wide : (relaxedOf config measure tables relationships).Wide := by
    intro t
    rw [(rows t).2.1, width_placedOf]
    exact Table.size_width_pos minWidth measure _
  have gap : 0 ≤ Scalar.ceil config.minGap := minGap.trans (Scalar.le_ceil _)
  have whole : IsWhole (Scalar.ceil config.minGap) := Scalar.ceil_whole _
  have apart := layersOf_apart tables relationships
  intro layer hl
  have places := Boxes.foldl_separateLayer_whole whole apart fun t => (widths t).1
  have aligned := Boxes.align_ascending_iff config fun t ht =>
    places t (List.mem_flatten.2 ⟨layer, hl, ht⟩)
  exact aligned.trans
    (Boxes.foldl_separateLayer_ascending_iff gap apart widths wide layer hl)

/-- The layers of a layout are listed from left to right exactly if relaxation keeps the tables of
each layer in the listed order, up to ties at one whole place. Without relaxation they are. -/
theorem ofTables_listed_iff (minGap : 0 ≤ config.minGap) (minWidth : 0 < config.minWidth)
    (distinct : (tables.map (·.name)).Nodup) :
    ((ofTables config measure tables relationships).ListedLeftToRight ↔
      ∀ layer ∈ layersOf tables relationships,
        (relaxedOf config measure tables relationships).RoughlyAscending layer) ∧
    (config.relaxationPasses = 0 → 0 ≤ config.gapX →
      (ofTables config measure tables relationships).ListedLeftToRight) := by
  have exact : (ofTables config measure tables relationships).ListedLeftToRight ↔
      ∀ layer ∈ layersOf tables relationships,
        (relaxedOf config measure tables relationships).RoughlyAscending layer := by
    rw [listedLeftToRight_iff distinct]
    exact forall₂_congr (boxesOf_ascending_iff minGap minWidth)
  refine ⟨exact, fun passes gapX => exact.2 fun layer hl => ?_⟩
  have unmoved : relaxedOf config measure tables relationships =
      placedOf config measure tables relationships := by
    rw [relaxedOf, Graph.relax_eq_repeat, passes, Nat.repeat]
  have sizes : (Boxes.ofSizes (Vector.ofFn fun t =>
      (tables.get t).size config measure)).Wide := by
    intro t
    rw [Boxes.get_ofSizes]
    simpa [Vector.get] using Table.size_width_pos minWidth measure _
  rw [unmoved]
  exact (Boxes.placeLayersFrom_ascending gapX _ _ sizes
    (layersOf_apart tables relationships) layer hl).roughly

/-- `d` and `c` are placed side by side below `b`, and `e`, below `d`, refers to the far `a` too. -/
def crossing : List Table :=
  [⟨['a'], none, [], []⟩, ⟨['b'], none, [], []⟩, ⟨['c'], none, [], []⟩, ⟨['d'], none, [], []⟩,
    ⟨['e'], none, [], []⟩]

def crossingReferences : List Relationship :=
  let refers (source target : Char) : Relationship :=
    ⟨[], ⟨[source], [['x']]⟩, ⟨[target], [['y']]⟩⟩
  [refers 'd' 'b', refers 'e' 'd', refers 'e' 'a', refers 'c' 'b']

theorem standard_gaps : 0 ≤ (Config.standard : Config ℚ).minGap ∧
    0 < (Config.standard : Config ℚ).minWidth ∧ 0 ≤ (Config.standard : Config ℚ).gapX := by
  refine ⟨?_, ?_, ?_⟩
  · change (0 : ℚ) ≤ ((50 : ℕ) : ℚ)
    norm_num
  · change (0 : ℚ) < ((240 : ℕ) : ℚ)
    norm_num
  · change (0 : ℚ) ≤ ((120 : ℕ) : ℚ)
    norm_num

/-- As they are placed the tables are listed from left to right. -/
theorem unrelaxed_crossing_listed :
    let config : Config ℚ := { Config.standard with relaxationPasses := 0 }
    0 ≤ config.minGap ∧ 0 < config.minWidth ∧ (crossing.map (·.name)).Nodup ∧
      config.relaxationPasses = 0 ∧ 0 ≤ config.gapX ∧
      (ofTables config (fun _ _ => 0) crossing crossingReferences).ListedLeftToRight := by
  intro config
  obtain ⟨minGap, minWidth, gapX⟩ := standard_gaps
  have distinct : (crossing.map (·.name)).Nodup := by decide
  have listed :=
    (@ofTables_listed_iff config (fun _ _ => 0) crossing crossingReferences minGap minWidth
      distinct).2 rfl gapX
  exact ⟨minGap, minWidth, distinct, rfl, gapX, listed⟩

def crossingLayout : Layout ℚ :=
  ofTables Config.standard (fun _ _ => 0) crossing crossingReferences

theorem crossingLayout_layer : crossingLayout.layers[1]? = some [['d'], ['c']] := by
  cbv

theorem crossingLayout_places : (crossingLayout.box? ['d']).map (·.x) = some 370 ∧
    (crossingLayout.box? ['c']).map (·.x) = some 80 := by
  constructor
  · cbv
  · cbv

/-- Under the standard settings relaxation takes `d` past `c`. -/
theorem standard_crossing_not_listed :
    0 ≤ (Config.standard : Config ℚ).minGap ∧ 0 < (Config.standard : Config ℚ).minWidth ∧
      (crossing.map (·.name)).Nodup ∧ ¬ crossingLayout.ListedLeftToRight := by
  refine ⟨standard_gaps.1, standard_gaps.2.1, by decide, fun listed => ?_⟩
  have pair := listed _ (List.mem_of_getElem? crossingLayout_layer)
  obtain ⟨boxD, boxC, hd, hc, lt⟩ := (List.pairwise_cons.1 pair).1 ['c'] (by simp)
  obtain ⟨placeD, placeC⟩ := crossingLayout_places
  rw [hd, Option.map_some, Option.some_inj] at placeD
  rw [hc, Option.map_some, Option.some_inj] at placeC
  rw [placeD, placeC] at lt
  norm_num at lt

end Layout

end SchemaDiagram
