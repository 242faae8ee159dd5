import Mathlib.Data.List.Nodup
import Mathlib.Data.List.Pairwise
import Mathlib.Tactic.Linarith
import SchemaDiagram.Proofs.ListOrder
import SchemaDiagram.Proofs.Scalar
import SchemaDiagram.Proofs.Layout.Frame

/-!
# Spacing

After separation every two tables of a layer stand apart, at whole places. Later layers do not
touch the earlier ones, so this holds of all layers in the end.
-/

namespace SchemaDiagram.Boxes

variable {n : Nat}

def WholeWidths (boxes : Boxes ℚ n) : Prop :=
  ∀ t, IsWhole (boxes.get t).width ∧ 0 ≤ (boxes.get t).width

def IsLeftOf (gap : ℚ) (boxes : Boxes ℚ n) (a b : Fin n) : Prop :=
  (boxes.get a).right + gap ≤ (boxes.get b).x

/-- Between any two tables of the layer lies at least `gap`. -/
def Spaced (gap : ℚ) (layer : List (Fin n)) (boxes : Boxes ℚ n) : Prop :=
  ∀ a ∈ layer, ∀ b ∈ layer, a ≠ b → IsLeftOf gap boxes a b ∨ IsLeftOf gap boxes b a

theorem WholeWidths.congr {a b : Boxes ℚ n} (h : a.SameRows b) (k : b.WholeWidths) :
    a.WholeWidths := by
  intro t
  rw [(h t).2.1]
  exact k t

theorem Spaced.congr {gap : ℚ} {layer : List (Fin n)} {a b : Boxes ℚ n}
    (h : ∀ t ∈ layer, a.get t = b.get t) (k : Spaced gap layer b) : Spaced gap layer a := by
  intro t ht u hu ne
  unfold IsLeftOf
  rw [h t ht, h u hu]
  exact k t ht u hu ne

/-- The step of the sweep: `t` makes room for what ends at `least`, and nothing else moves. -/
theorem get_pushed (boxes : Boxes ℚ n) (t u : Fin n) (least : ℚ) :
    (if (boxes.get t).x < least then boxes.moveToX t least else boxes).get u =
      if t = u then { boxes.get t with x := Max.max (boxes.get t).x least } else boxes.get u := by
  by_cases h : (boxes.get t).x < least
  · rw [if_pos h, get_moveToX, max_eq_right h.le]
  · rw [if_neg h, max_eq_left (not_lt.1 h)]
    split
    · next eq => subst eq; rfl
    · rfl

/-- A gap between neighbours is a gap between any two, since no box reaches back over another. -/
theorem pushRight_pairwise {gap : ℚ} (nonneg : 0 ≤ gap) {boxes : Boxes ℚ n}
    (widths : boxes.WholeWidths) {prev : Fin n} {rest : List (Fin n)}
    (nodup : (prev :: rest).Nodup) :
    (prev :: rest).Pairwise (IsLeftOf gap (boxes.pushRight gap prev rest)) := by
  induction rest generalizing boxes prev with
  | nil => exact List.pairwise_singleton _ _
  | cons t rest ih =>
    obtain ⟨hprev, nodup'⟩ := List.nodup_cons.1 nodup
    rw [List.mem_cons, not_or] at hprev
    rw [pushRight]
    generalize hpushed : (if (boxes.get t).x < (boxes.get prev).right + gap
      then boxes.moveToX t ((boxes.get prev).right + gap) else boxes) = pushed
    have rows : pushed.SameRows boxes := hpushed ▸ .ite_moveToX _ boxes t _
    have keep : pushed.get prev = boxes.get prev := by
      rw [← hpushed, get_pushed, if_neg (Ne.symm hprev.1)]
    have apart : (boxes.get prev).right + gap ≤ (pushed.get t).x := by
      rw [← hpushed, get_pushed, if_pos rfl]
      exact le_max_right _ _
    have sorted := ih (widths.congr rows) nodup'
    refine List.pairwise_cons.2 ⟨fun u hu => ?_, sorted⟩
    have off := pushRight_agreeOff gap pushed t rest
    unfold IsLeftOf
    rw [off prev hprev.2, keep]
    -- `u` is `t`, or it stands right of `t`, and `t` has a width
    have first : (boxes.get prev).right + gap ≤ ((pushed.pushRight gap t rest).get t).x := by
      rw [off t (List.nodup_cons.1 nodup').1]
      exact apart
    rcases List.mem_cons.1 hu with rfl | hu
    · exact first
    · have next := (List.pairwise_cons.1 sorted).1 u hu
      have width := (widths t).2
      rw [← (rows t).2.1, ← (sameRows_pushRight gap pushed t rest t).2.1] at width
      unfold IsLeftOf Box.right at next
      linarith

theorem pushRight_whole {gap : ℚ} (whole : IsWhole gap) {boxes : Boxes ℚ n}
    (widths : ∀ t, IsWhole (boxes.get t).width) {prev : Fin n} {rest : List (Fin n)}
    (places : ∀ t ∈ prev :: rest, IsWhole (boxes.get t).x) :
    ∀ t ∈ prev :: rest, IsWhole ((boxes.pushRight gap prev rest).get t).x := by
  induction rest generalizing boxes prev with
  | nil => exact places
  | cons t rest ih =>
    have least : IsWhole ((boxes.get prev).right + gap) :=
      ((places prev List.mem_cons_self).add (widths prev)).add whole
    rw [pushRight]
    generalize hpushed : (if (boxes.get t).x < (boxes.get prev).right + gap
      then boxes.moveToX t ((boxes.get prev).right + gap) else boxes) = pushed
    have rows : pushed.SameRows boxes := hpushed ▸ .ite_moveToX _ boxes t _
    have pushedWidths : ∀ u, IsWhole (pushed.get u).width := fun u => (rows u).2.1 ▸ widths u
    have moved : ∀ u ∈ prev :: t :: rest, IsWhole (pushed.get u).x := by
      intro u hu
      rw [← hpushed, get_pushed]
      split
      · dsimp only
        rcases max_choice (boxes.get t).x ((boxes.get prev).right + gap) with own | forced
        · rw [own]
          exact places t (List.mem_cons_of_mem prev List.mem_cons_self)
        · rw [forced]
          exact least
      · exact places u hu
    have rest' : ∀ u ∈ t :: rest, IsWhole ((pushed.pushRight gap t rest).get u).x :=
      ih pushedWidths fun u hu => moved u (List.mem_cons_of_mem _ hu)
    intro u hu
    by_cases h : u ∈ t :: rest
    · exact rest' u h
    · rw [List.mem_cons, not_or] at h
      rw [pushRight_agreeOff gap pushed t rest u h.2]
      exact moved u hu

theorem precedes_trans (boxes : Boxes ℚ n) (t u v : Fin n)
    (tu : Scalar.precedes (boxes.get t).x (boxes.get u).x)
    (uv : Scalar.precedes (boxes.get u).x (boxes.get v).x) :
    Scalar.precedes (boxes.get t).x (boxes.get v).x :=
  Scalar.precedes_trans tu uv

theorem precedes_total (boxes : Boxes ℚ n) (t u : Fin n) :
    Scalar.precedes (boxes.get t).x (boxes.get u).x ||
      Scalar.precedes (boxes.get u).x (boxes.get t).x :=
  Scalar.precedes_total _ _

theorem leftToRight_sorted (boxes : Boxes ℚ n) (layer : List (Fin n)) :
    (boxes.leftToRight layer).Pairwise fun t u => (boxes.get t).x ≤ (boxes.get u).x := by
  have sorted := List.pairwise_mergeSort boxes.precedes_trans boxes.precedes_total layer
  exact sorted.imp fun precedes => of_decide_eq_true precedes

theorem leftToRight_stable (boxes : Boxes ℚ n) (layer : List (Fin n)) (x : ℚ) :
    (boxes.leftToRight layer).filter (fun t => (boxes.get t).x = x) =
      layer.filter fun t => (boxes.get t).x = x := by
  refine filter_mergeSort boxes.precedes_trans boxes.precedes_total (fun t u ht hu => ?_) layer
  exact decide_eq_true ((of_decide_eq_true ht).trans (of_decide_eq_true hu).symm).le

variable {gap : ℚ} {layer : List (Fin n)} {boxes : Boxes ℚ n}

theorem separateLayer_pairwise (nonneg : 0 ≤ gap) (widths : boxes.WholeWidths)
    (nodup : layer.Nodup) :
    ((boxes.roundLayer layer).leftToRight layer).Pairwise
      (IsLeftOf gap (boxes.separateLayer gap layer)) := by
  have widths := widths.congr (sameRows_roundLayer boxes layer)
  have perm : ((boxes.roundLayer layer).leftToRight layer).Perm layer := List.mergeSort_perm _ _
  unfold separateLayer
  dsimp only
  split
  · next order =>
    rw [order]
    exact .nil
  · next first rest order =>
    rw [order] at perm ⊢
    exact pushRight_pairwise nonneg widths (perm.nodup_iff.2 nodup)

theorem separateLayer_spaced (nonneg : 0 ≤ gap) (widths : boxes.WholeWidths)
    (nodup : layer.Nodup) : Spaced gap layer (boxes.separateLayer gap layer) := by
  -- the sweep goes from left to right, the claim is about both directions
  let clear (a b : Fin n) : Prop := IsLeftOf gap (boxes.separateLayer gap layer) a b ∨
    IsLeftOf gap (boxes.separateLayer gap layer) b a
  have either : ((boxes.roundLayer layer).leftToRight layer).Pairwise clear :=
    (separateLayer_pairwise nonneg widths nodup).imp Or.inl
  have : Std.Symm clear := ⟨fun _ _ => Or.symm⟩
  intro a ha b hb ne
  exact either.forall (mem_leftToRight.2 ha) (mem_leftToRight.2 hb) ne

theorem separateLayer_whole (whole : IsWhole gap) (widths : ∀ t, IsWhole (boxes.get t).width)
    (nodup : layer.Nodup) : ∀ t ∈ layer, IsWhole ((boxes.separateLayer gap layer).get t).x := by
  have roundedWidths : ∀ t, IsWhole ((boxes.roundLayer layer).get t).width := fun t =>
    (sameRows_roundLayer boxes layer t).2.1 ▸ widths t
  have rounded : ∀ t ∈ layer, IsWhole ((boxes.roundLayer layer).get t).x := by
    intro t ht
    rw [get_roundLayer nodup ht]
    exact Scalar.round_whole _
  unfold separateLayer
  dsimp only
  split
  · exact rounded
  · next first rest order =>
    have perm : (first :: rest).Perm layer := order ▸ List.mergeSort_perm _ _
    intro t ht
    exact pushRight_whole whole roundedWidths (fun u hu => rounded u (perm.mem_iff.1 hu)) t
      (perm.mem_iff.2 ht)

variable {layers : List (List (Fin n))}

theorem foldl_separateLayer_spaced (nonneg : 0 ≤ gap) (apart : layers.flatten.Nodup)
    (widths : boxes.WholeWidths) :
    ∀ layer ∈ layers, Spaced gap layer (layers.foldl (separateLayer gap) boxes) := by
  intro layer hl
  obtain ⟨before, rows, -, after⟩ := exists_separateLayer gap apart boxes layer hl
  have nodup := (List.nodup_flatten.1 apart).1 layer hl
  exact .congr after (separateLayer_spaced nonneg (widths.congr rows) nodup)

theorem foldl_separateLayer_whole (whole : IsWhole gap) (apart : layers.flatten.Nodup)
    (widths : ∀ t, IsWhole (boxes.get t).width) :
    ∀ t ∈ layers.flatten, IsWhole ((layers.foldl (separateLayer gap) boxes).get t).x := by
  intro t ht
  obtain ⟨layer, hl, ht⟩ := List.mem_flatten.1 ht
  obtain ⟨before, rows, -, after⟩ := exists_separateLayer gap apart boxes layer hl
  have nodup := (List.nodup_flatten.1 apart).1 layer hl
  rw [after t ht]
  exact separateLayer_whole whole (fun u => (rows u).2.1 ▸ widths u) nodup t ht

end SchemaDiagram.Boxes
