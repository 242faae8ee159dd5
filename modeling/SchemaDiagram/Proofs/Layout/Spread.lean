import Mathlib
import SchemaDiagram.Proofs.Scalar
import SchemaDiagram.Proofs.Layout.Frame

/-!
# The spread of a diagram

A pull by a part of the way puts a table between its old place and the mean of its neighbours. So
relaxation never takes a centre out of the range in which the centres stood at first, in whichever
order the tables are pulled and however often.
-/

namespace SchemaDiagram

namespace Scalar

theorem sum_rat (l : List ℚ) : sum l = l.sum := List.sum_eq_foldl.symm

theorem mean?_between {l : List ℚ} {mean low high : ℚ} (h : mean? l = some mean)
    (within : ∀ x ∈ l, low ≤ x ∧ x ≤ high) : low ≤ mean ∧ mean ≤ high := by
  cases l with
  | nil => simp [mean?] at h
  | cons x l =>
    have mean_eq : (x :: l).sum / (x :: l).length = mean := by
      rw [← sum_rat]
      exact Option.some_inj.1 h
    have some : (0 : ℚ) < (x :: l).length := by exact_mod_cast List.length_pos_of_mem List.mem_cons_self
    have above := List.card_nsmul_le_sum (x :: l) low fun y hy => (within y hy).1
    have below := List.sum_le_card_nsmul (x :: l) high fun y hy => (within y hy).2
    rw [nsmul_eq_mul] at above below
    rw [← mean_eq, le_div_iff₀' some, div_le_iff₀' some]
    exact ⟨above, below⟩

theorem part_between {x y low high part : ℚ} (hx : low ≤ x ∧ x ≤ high) (hy : low ≤ y ∧ y ≤ high)
    (forth : 0 ≤ part) (part_le : part ≤ 1) :
    low ≤ x + (y - x) * part ∧ x + (y - x) * part ≤ high := by
  have stay : 0 ≤ 1 - part := sub_nonneg.2 part_le
  have mixed : x + (y - x) * part = (1 - part) * x + part * y := by ring
  rw [mixed]
  constructor
  · have left := mul_le_mul_of_nonneg_left hx.1 stay
    have right := mul_le_mul_of_nonneg_left hy.1 forth
    linarith
  · have left := mul_le_mul_of_nonneg_left hx.2 stay
    have right := mul_le_mul_of_nonneg_left hy.2 forth
    linarith

end Scalar

namespace Boxes

variable {n : Nat}

def CentersWithin (low high : ℚ) (boxes : Boxes ℚ n) : Prop :=
  ∀ t, low ≤ (boxes.get t).centerX ∧ (boxes.get t).centerX ≤ high

theorem centerX_move (b : Box ℚ) (distance : ℚ) :
    Box.centerX { b with x := b.x + distance } = b.centerX + distance := by
  change b.x + distance + b.width / 2 = b.x + b.width / 2 + distance
  ring

/-- The step: a table goes towards the mean of centres that are in the range as well. -/
theorem CentersWithin.pull {low high strength : ℚ} {boxes : Boxes ℚ n}
    (h : boxes.CentersWithin low high) (forth : 0 ≤ strength) (part : strength ≤ 1)
    (neighbours : Fin n → List (Fin n)) (t : Fin n) :
    (boxes.pull strength neighbours t).CentersWithin low high := by
  unfold Boxes.pull
  split
  · exact h
  · next center found =>
    have mean : low ≤ center ∧ center ≤ high := by
      refine Scalar.mean?_between found fun x hx => ?_
      obtain ⟨u, -, rfl⟩ := List.mem_map.1 hx
      exact h u
    intro u
    rw [get_moveToX]
    split
    · rw [centerX_move]
      exact Scalar.part_between (h t) mean forth part
    · exact h u

theorem get_pull_of_alone {α : Type} [Scalar α] (strength : α) {neighbours : Fin n → List (Fin n)}
    (boxes : Boxes α n) {t : Fin n} (alone : neighbours t = []) (u : Fin n) :
    (boxes.pull strength neighbours u).get t = boxes.get t := by
  by_cases same : u = t
  · subst same
    simp [pull, meanCenter?, alone, Scalar.mean?]
  · unfold pull
    split
    · rfl
    · exact get_moveToX_of_ne boxes same _

/-- Relaxation brings no centre further out, moves nothing up or down and leaves alone the tables
that no relationship ties to another one. -/
theorem relax_spread (g : Graph n) {config : Config ℚ}
    (forward : 0 ≤ config.forwardPull ∧ config.forwardPull ≤ 1)
    (backward : 0 ≤ config.backwardPull ∧ config.backwardPull ≤ 1)
    (layers : List (List (Fin n))) (boxes : Boxes ℚ n) :
    let relaxed := g.relax config layers boxes
    (∀ t, ∃ low high, (boxes.get low).centerX ≤ (relaxed.get t).centerX ∧
      (relaxed.get t).centerX ≤ (boxes.get high).centerX) ∧
    relaxed.SameRows boxes ∧
    ∀ t, g.parents t = [] → g.children t = [] → relaxed.get t = boxes.get t := by
  intro relaxed
  refine ⟨fun t => ?_, sameRows_relax g config layers boxes, fun t roots leaves => ?_⟩
  · have : Nonempty (Fin n) := ⟨t⟩
    obtain ⟨low, leftmost⟩ := Finite.exists_min fun u => (boxes.get u).centerX
    obtain ⟨high, rightmost⟩ := Finite.exists_max fun u => (boxes.get u).centerX
    have start : boxes.CentersWithin (boxes.get low).centerX (boxes.get high).centerX :=
      fun u => ⟨leftmost u, rightmost u⟩
    have within : relaxed.CentersWithin (boxes.get low).centerX (boxes.get high).centerX :=
      relax_induction (fun b u h => h.pull forward.1 forward.2 _ u)
        (fun b u h => h.pull backward.1 backward.2 _ u) layers start
    exact ⟨low, high, within t⟩
  · refine relax_induction (P := fun b => b.get t = boxes.get t) (fun b u h => ?_) (fun b u h => ?_)
      layers rfl
    · exact (get_pull_of_alone _ b roots u).trans h
    · exact (get_pull_of_alone _ b leaves u).trans h

/-- The first two tables refer to each other across a distance of 400; the third one is alone. -/
theorem relax_facing :
    let config : Config ℚ := { Config.standard with relaxationPasses := 1 }
    let g : Graph 3 := ⟨[(0, 1), (1, 0)]⟩
    let layers : List (List (Fin 3)) := [[0], [1, 2]]
    let boxes : Boxes ℚ 3 := #v[⟨0, 0, 240, 70⟩, ⟨400, 160, 240, 70⟩, ⟨720, 160, 240, 70⟩]
    let relaxed := g.relax config layers boxes
    0 ≤ config.forwardPull ∧ config.forwardPull ≤ 1 ∧ 0 ≤ config.backwardPull ∧
      config.backwardPull ≤ 1 ∧ relaxed.toList.map (·.x) = [60, 200, 720] ∧
      (∀ t, ∃ low high, (boxes.get low).centerX ≤ (relaxed.get t).centerX ∧
        (relaxed.get t).centerX ≤ (boxes.get high).centerX) ∧
      relaxed.SameRows boxes ∧
      ∀ t, g.parents t = [] → g.children t = [] → relaxed.get t = boxes.get t := by
  intro config g layers boxes relaxed
  have forward : 0 ≤ config.forwardPull ∧ config.forwardPull ≤ 1 := by
    change (0 : ℚ) ≤ (1 : ℕ) / (2 : ℕ) ∧ ((1 : ℕ) / (2 : ℕ) : ℚ) ≤ 1
    norm_num
  have backward : 0 ≤ config.backwardPull ∧ config.backwardPull ≤ 1 := by
    change (0 : ℚ) ≤ (3 : ℕ) / (10 : ℕ) ∧ ((3 : ℕ) / (10 : ℕ) : ℚ) ≤ 1
    norm_num
  exact ⟨forward.1, forward.2, backward.1, backward.2, by cbv,
    relax_spread g forward backward layers boxes⟩

end Boxes

end SchemaDiagram
