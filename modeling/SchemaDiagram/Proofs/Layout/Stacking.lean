import Mathlib.Tactic.Linarith
import SchemaDiagram.Proofs.Scalar
import SchemaDiagram.Proofs.Layout.Frame

/-!
# Stacking

The first arrangement puts each layer below the tallest table of the layer above.
-/

namespace SchemaDiagram.Boxes

variable {n : Nat}

def SameSizes {α : Type} (a b : Boxes α n) : Prop :=
  ∀ t, (a.get t).width = (b.get t).width ∧ (a.get t).height = (b.get t).height

/-- Every table of a layer ends at least `gap` above every table of a later one. -/
def Stacked (gap : ℚ) (layers : List (List (Fin n))) (boxes : Boxes ℚ n) : Prop :=
  layers.Pairwise fun upper lower =>
    ∀ a ∈ upper, ∀ b ∈ lower, (boxes.get a).bottom + gap ≤ (boxes.get b).y

theorem SameSizes.trans {α : Type} {a b c : Boxes α n} (h : a.SameSizes b) (k : b.SameSizes c) :
    a.SameSizes c :=
  fun t => ⟨(h t).1.trans (k t).1, (h t).2.trans (k t).2⟩

section

variable {α : Type} [Scalar α]

theorem sameSizes_placeLayer (gap y : α) (boxes : Boxes α n) (x : α) (layer : List (Fin n)) :
    (boxes.placeLayer gap y x layer).SameSizes boxes := by
  induction layer generalizing boxes x with
  | nil => exact fun _ => ⟨rfl, rfl⟩
  | cons t layer ih =>
    refine (ih _ _).trans fun u => ?_
    rw [get_moveTo]
    split
    · next eq => subst eq; exact ⟨rfl, rfl⟩
    · exact ⟨rfl, rfl⟩

theorem placeLayer_agreeOff (gap y : α) (boxes : Boxes α n) (x : α) (layer : List (Fin n)) :
    AgreeOff layer (boxes.placeLayer gap y x layer) boxes := by
  induction layer generalizing boxes x with
  | nil => exact fun _ _ => rfl
  | cons t layer ih =>
    intro u hu
    rw [List.mem_cons, not_or] at hu
    rw [placeLayer, ih _ _ u hu.2, get_moveTo, if_neg (Ne.symm hu.1)]

theorem placeLayer_y (gap y : α) (boxes : Boxes α n) (x : α) {layer : List (Fin n)} {t : Fin n}
    (ht : t ∈ layer) : ((boxes.placeLayer gap y x layer).get t).y = y := by
  induction layer generalizing boxes x with
  | nil => simp at ht
  | cons u layer ih =>
    rw [placeLayer]
    by_cases h : t ∈ layer
    · exact ih _ _ h
    · obtain rfl : t = u := (List.mem_cons.1 ht).resolve_right h
      rw [placeLayer_agreeOff _ _ _ _ layer t h, get_moveTo, if_pos rfl]

theorem placeLayersFrom_agreeOff (config : Config α) (widest : α) (boxes : Boxes α n) (y : α)
    (layers : List (List (Fin n))) :
    AgreeOff layers.flatten (boxes.placeLayersFrom config widest y layers) boxes := by
  induction layers generalizing boxes y with
  | nil => exact fun _ _ => rfl
  | cons layer layers ih =>
    intro t ht
    rw [List.flatten_cons, List.mem_append, not_or] at ht
    rw [placeLayersFrom, ih _ _ t ht.2, placeLayer_agreeOff _ _ _ _ layer t ht.1]

theorem sameSizes_placeLayersFrom (config : Config α) (widest : α) (boxes : Boxes α n) (y : α)
    (layers : List (List (Fin n))) :
    (boxes.placeLayersFrom config widest y layers).SameSizes boxes := by
  induction layers generalizing boxes y with
  | nil => exact fun _ => ⟨rfl, rfl⟩
  | cons layer layers ih => exact (ih _ _).trans (sameSizes_placeLayer _ _ _ _ _)

end

theorem height_le_layerHeight (boxes : Boxes ℚ n) {layer : List (Fin n)} {t : Fin n}
    (ht : t ∈ layer) : (boxes.get t).height ≤ boxes.layerHeight layer :=
  Scalar.le_foldl_max (List.mem_cons_of_mem _ (List.mem_map_of_mem ht))

theorem layerHeight_nonneg (boxes : Boxes ℚ n) (layer : List (Fin n)) :
    0 ≤ boxes.layerHeight layer :=
  Scalar.le_foldl_max List.mem_cons_self

theorem layerHeight_whole {boxes : Boxes ℚ n} (whole : ∀ t, IsWhole (boxes.get t).height)
    (layer : List (Fin n)) : IsWhole (boxes.layerHeight layer) := by
  rcases List.mem_cons.1 (Scalar.foldl_max_mem (layer.map fun t => (boxes.get t).height) 0) with
    eq | mem
  · rw [show boxes.layerHeight layer = 0 from eq]
    exact .zero
  · obtain ⟨t, -, eq⟩ := List.mem_map.1 mem
    rw [show boxes.layerHeight layer = (boxes.get t).height from eq.symm]
    exact whole t

variable {config : Config ℚ} {layer : List (Fin n)} {layers : List (List (Fin n))}

/-- The first layer stays where it is put while the later ones are placed. -/
theorem placeLayersFrom_first (widest : ℚ) (boxes : Boxes ℚ n) (y : ℚ) {t : Fin n}
    (ht : t ∈ layer) (alone : t ∉ layers.flatten) :
    ((boxes.placeLayersFrom config widest y (layer :: layers)).get t).y = y := by
  rw [placeLayersFrom, placeLayersFrom_agreeOff _ _ _ _ layers t alone, placeLayer_y _ _ _ _ ht]

theorem placeLayersFrom_stacked (gap : 0 ≤ config.gapY) (widest : ℚ) (boxes : Boxes ℚ n) (y : ℚ)
    (apart : layers.flatten.Nodup) :
    (∀ t ∈ layers.flatten, y ≤ ((boxes.placeLayersFrom config widest y layers).get t).y) ∧
      Stacked config.gapY layers (boxes.placeLayersFrom config widest y layers) := by
  induction layers generalizing boxes y with
  | nil => simp [Stacked]
  | cons layer layers ih =>
    rw [List.flatten_cons, List.nodup_append] at apart
    obtain ⟨-, apart, disjoint⟩ := apart
    have first : ∀ t ∈ layer,
        ((boxes.placeLayersFrom config widest y (layer :: layers)).get t).y = y :=
      fun t ht => placeLayersFrom_first widest boxes y ht fun k => disjoint t ht t k rfl
    have sizes := sameSizes_placeLayersFrom config widest boxes y (layer :: layers)
    have room := layerHeight_nonneg boxes layer
    rw [placeLayersFrom] at first sizes ⊢
    obtain ⟨below, stacked⟩ := ih (boxes.placeLayer config.gapX y _ layer)
      (y + (boxes.layerHeight layer + config.gapY)) apart
    constructor
    · intro t ht
      rcases List.mem_append.1 ht with ht | ht
      · exact le_of_eq (first t ht).symm
      · have := below t ht
        linarith
    · refine List.pairwise_cons.2 ⟨fun lower hl a ha b hb => ?_, stacked⟩
      have low := below b (List.mem_flatten.2 ⟨lower, hl, hb⟩)
      have tall := height_le_layerHeight boxes ha
      unfold Box.bottom
      rw [first a ha, (sizes a).2]
      linarith

theorem placeLayersFrom_whole (gap : IsWhole config.gapY) (widest : ℚ) {boxes : Boxes ℚ n}
    (heights : ∀ t, IsWhole (boxes.get t).height) {y : ℚ} (start : IsWhole y) :
    ∀ t ∈ layers.flatten, IsWhole ((boxes.placeLayersFrom config widest y layers).get t).y := by
  induction layers generalizing boxes y with
  | nil => simp
  | cons layer layers ih =>
    intro t ht
    by_cases h : t ∈ layers.flatten
    · rw [placeLayersFrom]
      refine ih (fun u => ?_) (start.add ((layerHeight_whole heights layer).add gap)) t h
      rw [(sameSizes_placeLayer _ _ _ _ _ u).2]
      exact heights u
    · rw [placeLayersFrom_first widest boxes y ((List.mem_append.1 ht).resolve_right h) h]
      exact start

end SchemaDiagram.Boxes
