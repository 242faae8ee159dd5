import Mathlib.Order.Bounds.Basic
import SchemaDiagram.Layout.Basic
import SchemaDiagram.Proofs.Scalar

/-!
# The bounds of a layout

A layout with boxes has bounds. None of its boxes reaches over them, and each of them is the edge of
some box.
-/

namespace SchemaDiagram

namespace Scalar

theorem exists_least {l : List ℚ} (some : l ≠ []) :
    ∃ m, least? l = .some m ∧ IsLeast {x | x ∈ l} m := by
  obtain ⟨x, l, rfl⟩ := List.exists_cons_of_ne_nil some
  exact ⟨l.foldl min x, rfl, foldl_min_mem l x, fun y hy => foldl_min_le hy⟩

theorem exists_greatest {l : List ℚ} (some : l ≠ []) :
    ∃ m, greatest? l = .some m ∧ IsGreatest {x | x ∈ l} m := by
  obtain ⟨x, l, rfl⟩ := List.exists_cons_of_ne_nil some
  exact ⟨l.foldl max x, rfl, foldl_max_mem l x, fun y hy => le_foldl_max hy⟩

end Scalar

structure Bounds.Covers (bounds : Bounds ℚ) (b : Box ℚ) : Prop where
  left : bounds.left ≤ b.x
  top : bounds.top ≤ b.y
  right : b.right ≤ bounds.right
  bottom : b.bottom ≤ bounds.bottom

structure Bounds.IsTight (bounds : Bounds ℚ) (boxes : List (Box ℚ)) : Prop where
  left : IsLeast {x | x ∈ boxes.map (·.x)} bounds.left
  top : IsLeast {y | y ∈ boxes.map (·.y)} bounds.top
  right : IsGreatest {x | x ∈ boxes.map (·.right)} bounds.right
  bottom : IsGreatest {y | y ∈ boxes.map (·.bottom)} bounds.bottom

theorem Bounds.IsTight.covers {bounds : Bounds ℚ} {boxes : List (Box ℚ)} (h : bounds.IsTight boxes)
    {b : Box ℚ} (hb : b ∈ boxes) : bounds.Covers b where
  left := h.left.2 (List.mem_map_of_mem hb)
  top := h.top.2 (List.mem_map_of_mem hb)
  right := h.right.2 (List.mem_map_of_mem hb)
  bottom := h.bottom.2 (List.mem_map_of_mem hb)

namespace Layout

variable {l : Layout ℚ}

theorem exists_bounds (some : l.boxes.values ≠ []) :
    ∃ bounds, l.bounds? = .some bounds ∧ bounds.IsTight l.boxes.values := by
  obtain ⟨left, isLeft, leftmost⟩ :=
    Scalar.exists_least (l := l.boxes.values.map (·.x)) (by simpa using some)
  obtain ⟨top, isTop, topmost⟩ :=
    Scalar.exists_least (l := l.boxes.values.map (·.y)) (by simpa using some)
  obtain ⟨right, isRight, rightmost⟩ :=
    Scalar.exists_greatest (l := l.boxes.values.map (·.right)) (by simpa using some)
  obtain ⟨bottom, isBottom, lowest⟩ :=
    Scalar.exists_greatest (l := l.boxes.values.map (·.bottom)) (by simpa using some)
  refine ⟨⟨left, top, right, bottom⟩, ?_, leftmost, topmost, rightmost, lowest⟩
  simp only [bounds?, isLeft, isTop, isRight, isBottom]
  rfl

def Sized (l : Layout ℚ) : Prop := ∀ b ∈ l.boxes.values, 0 ≤ b.width ∧ 0 ≤ b.height

/-- Around boxes without negative sizes the bounds have no negative extent either. -/
theorem Sized.exists_bounds (sized : l.Sized) (some : l.boxes.values ≠ []) :
    ∃ bounds, l.bounds? = .some bounds ∧ bounds.left ≤ bounds.right ∧
      bounds.top ≤ bounds.bottom := by
  obtain ⟨bounds, found, tight⟩ := Layout.exists_bounds some
  obtain ⟨b, hb⟩ := List.exists_mem_of_ne_nil _ some
  obtain ⟨width, height⟩ := sized b hb
  obtain ⟨left, top, right, bottom⟩ := tight.covers hb
  have across : b.x ≤ b.right := le_add_of_nonneg_right width
  have down : b.y ≤ b.bottom := le_add_of_nonneg_right height
  exact ⟨bounds, found, left.trans (across.trans right), top.trans (down.trans bottom)⟩

end Layout

end SchemaDiagram
