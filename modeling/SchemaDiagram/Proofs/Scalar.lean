import Mathlib.Data.Rat.Floor
import Mathlib.Tactic.Linarith
import SchemaDiagram.Scalar

/-!
# Exact scalars

What the arithmetic of layouts does over rational numbers.
-/

namespace SchemaDiagram

def IsWhole (x : ℚ) : Prop := ∃ k : ℤ, x = k

namespace IsWhole

theorem intCast (k : ℤ) : IsWhole k := ⟨k, rfl⟩

theorem natCast (k : ℕ) : IsWhole k := ⟨k, by simp⟩

theorem zero : IsWhole 0 := ⟨0, by simp⟩

theorem add {x y : ℚ} (hx : IsWhole x) (hy : IsWhole y) : IsWhole (x + y) := by
  obtain ⟨k, rfl⟩ := hx
  obtain ⟨l, rfl⟩ := hy
  exact ⟨k + l, by push_cast; rfl⟩

theorem sub {x y : ℚ} (hx : IsWhole x) (hy : IsWhole y) : IsWhole (x - y) := by
  obtain ⟨k, rfl⟩ := hx
  obtain ⟨l, rfl⟩ := hy
  exact ⟨k - l, by push_cast; rfl⟩

theorem mul {x y : ℚ} (hx : IsWhole x) (hy : IsWhole y) : IsWhole (x * y) := by
  obtain ⟨k, rfl⟩ := hx
  obtain ⟨l, rfl⟩ := hy
  exact ⟨k * l, by push_cast; rfl⟩

end IsWhole

namespace Scalar

theorem round_whole (x : ℚ) : IsWhole (round x) := by
  change IsWhole (if 0 ≤ x then ((x + 1 / 2).floor : ℚ) else ((x - 1 / 2).ceil : ℚ))
  split <;> exact .intCast _

theorem ceil_whole (x : ℚ) : IsWhole (ceil x) := .intCast _

theorem le_ceil (x : ℚ) : x ≤ ceil x := Rat.le_ceil

theorem round_near (x : ℚ) : x - 1 / 2 ≤ round x ∧ round x ≤ x + 1 / 2 := by
  change x - 1 / 2 ≤ (if 0 ≤ x then ((x + 1 / 2).floor : ℚ) else ((x - 1 / 2).ceil : ℚ)) ∧
    (if 0 ≤ x then ((x + 1 / 2).floor : ℚ) else ((x - 1 / 2).ceil : ℚ)) ≤ x + 1 / 2
  split
  · have low : x + 1 / 2 - 1 < _ := Rat.lt_floor
    have high := Rat.floor_le (x + 1 / 2)
    constructor <;> linarith
  · have low : x - 1 / 2 ≤ _ := Rat.le_ceil
    have high : _ < x - 1 / 2 + 1 := Rat.ceil_lt
    constructor <;> linarith

theorem round_of_whole {x : ℚ} (h : IsWhole x) : round x = x := by
  obtain ⟨k, rfl⟩ := h
  obtain ⟨l, hl⟩ := round_whole k
  obtain ⟨low, high⟩ := round_near k
  rw [hl] at low high ⊢
  have below : k - 1 < l := by
    have : ((k - 1 : ℤ) : ℚ) < l := by push_cast; linarith
    exact_mod_cast this
  have above : l < k + 1 := by
    have : (l : ℚ) < (k + 1 : ℤ) := by push_cast; linarith
    exact_mod_cast this
  have : l = k := by omega
  rw [this]

theorem round_mono {x y : ℚ} (h : x ≤ y) : round x ≤ round y := by
  change (if 0 ≤ x then ((x + 1 / 2).floor : ℚ) else ((x - 1 / 2).ceil : ℚ)) ≤
    (if 0 ≤ y then ((y + 1 / 2).floor : ℚ) else ((y - 1 / 2).ceil : ℚ))
  split
  · next hx =>
    rw [if_pos (hx.trans h)]
    exact_mod_cast Rat.floor_monotone (by linarith)
  · next hx =>
    split
    · next hy =>
      have low : (x - 1 / 2).ceil ≤ 0 := Rat.ceil_le_iff.2 (by push_cast; linarith)
      have high : 0 ≤ (y + 1 / 2).floor := Rat.le_floor_iff.2 (by push_cast; linarith)
      exact_mod_cast low.trans high
    · have low : x - 1 / 2 ≤ (y - 1 / 2).ceil := le_trans (by linarith) Rat.le_ceil
      exact_mod_cast Rat.ceil_le_iff.2 low

theorem precedes_trans {x y z : ℚ} (hxy : precedes x y) (hyz : precedes y z) : precedes x z :=
  decide_eq_true ((of_decide_eq_true hxy).trans (of_decide_eq_true hyz))

theorem precedes_total (x y : ℚ) : precedes x y || precedes y x := by
  simpa [precedes] using le_total x y

theorem max_rat (x y : ℚ) : (max x y : ℚ) = Max.max x y := by
  change (if x < y then y else x) = _
  split
  · next h => exact (max_eq_right (le_of_lt h)).symm
  · next h => exact (max_eq_left (not_lt.1 h)).symm

theorem left_le_max (x y : ℚ) : x ≤ max x y := by
  rw [max_rat]; exact le_max_left x y

theorem right_le_max (x y : ℚ) : y ≤ max x y := by
  rw [max_rat]; exact le_max_right x y

theorem min_rat (x y : ℚ) : (min x y : ℚ) = Min.min x y := by
  change (if y < x then y else x) = _
  split
  · next h => exact (min_eq_right (le_of_lt h)).symm
  · next h => exact (min_eq_left (not_lt.1 h)).symm

theorem foldl_min_le {l : List ℚ} {x y : ℚ} (h : y ∈ x :: l) : l.foldl min x ≤ y := by
  induction l generalizing x y with
  | nil => exact le_of_eq (List.mem_singleton.1 h).symm
  | cons z l ih =>
    rw [List.foldl_cons]
    have first : l.foldl min (min x z) ≤ min x z := ih List.mem_cons_self
    rw [min_rat] at first
    rw [min_rat]
    rcases List.mem_cons.1 h with rfl | h
    · exact first.trans (min_le_left y z)
    rcases List.mem_cons.1 h with rfl | h
    · exact first.trans (min_le_right x y)
    · exact ih (List.mem_cons_of_mem _ h)

theorem foldl_min_mem (l : List ℚ) (x : ℚ) : l.foldl min x ∈ x :: l := by
  induction l generalizing x with
  | nil => exact List.mem_cons_self
  | cons y l ih =>
    rw [List.foldl_cons]
    rcases List.mem_cons.1 (ih (min x y)) with eq | mem
    · rw [eq, min_rat]
      rcases min_choice x y with eq | eq <;> simp [eq]
    · exact List.mem_cons_of_mem x (List.mem_cons_of_mem y mem)

theorem foldl_max_mem (l : List ℚ) (x : ℚ) : l.foldl max x ∈ x :: l := by
  induction l generalizing x with
  | nil => exact List.mem_cons_self
  | cons y l ih =>
    rw [List.foldl_cons]
    rcases List.mem_cons.1 (ih (max x y)) with eq | mem
    · rw [eq, max_rat]
      rcases max_choice x y with eq | eq <;> simp [eq]
    · exact List.mem_cons_of_mem x (List.mem_cons_of_mem y mem)

theorem le_foldl_max {l : List ℚ} {x y : ℚ} (h : y ∈ x :: l) : y ≤ l.foldl max x := by
  induction l generalizing x y with
  | nil => exact le_of_eq (List.mem_singleton.1 h)
  | cons z l ih =>
    rw [List.foldl_cons]
    have first : max x z ≤ l.foldl max (max x z) := ih List.mem_cons_self
    rcases List.mem_cons.1 h with rfl | h
    · exact (left_le_max y z).trans first
    rcases List.mem_cons.1 h with rfl | h
    · exact (right_le_max x y).trans first
    · exact ih (List.mem_cons_of_mem _ h)

end Scalar

end SchemaDiagram
