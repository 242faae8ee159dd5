import Mathlib.Data.List.Pairwise
import SchemaDiagram.Layout.Relaxation
import SchemaDiagram.Layout.Separation

/-!
# What each phase leaves alone

Relaxation and separation move boxes sideways only, and whatever works on a layer touches no box of
another one.
-/

namespace SchemaDiagram.Boxes

variable {α : Type} {n : Nat}

theorem get_eq_getElem (boxes : Boxes α n) (t : Fin n) : boxes.get t = boxes[t.val] := rfl

theorem get_moveTo (boxes : Boxes α n) (t u : Fin n) (x y : α) :
    (boxes.moveTo t x y).get u = if t = u then { boxes.get t with x, y } else boxes.get u := by
  simp only [moveTo, get_eq_getElem, Vector.getElem_set, Fin.ext_iff]

theorem get_moveToX (boxes : Boxes α n) (t u : Fin n) (x : α) :
    (boxes.moveToX t x).get u = if t = u then { boxes.get t with x } else boxes.get u := by
  simp only [moveToX, get_eq_getElem, Vector.getElem_set, Fin.ext_iff]

theorem get_moveToX_self (boxes : Boxes α n) (t : Fin n) (x : α) :
    (boxes.moveToX t x).get t = { boxes.get t with x } := by
  rw [get_moveToX, if_pos rfl]

theorem get_moveToX_of_ne (boxes : Boxes α n) {t u : Fin n} (ne : t ≠ u) (x : α) :
    (boxes.moveToX t x).get u = boxes.get u := by
  rw [get_moveToX, if_neg ne]

/-- Boxes of the same sizes at the same heights. -/
def SameRows (a b : Boxes α n) : Prop :=
  ∀ t, (a.get t).y = (b.get t).y ∧ (a.get t).width = (b.get t).width ∧
    (a.get t).height = (b.get t).height

namespace SameRows

theorem refl (a : Boxes α n) : a.SameRows a := fun _ => ⟨rfl, rfl, rfl⟩

theorem trans {a b c : Boxes α n} (h : a.SameRows b) (k : b.SameRows c) : a.SameRows c :=
  fun t => ⟨(h t).1.trans (k t).1, (h t).2.1.trans (k t).2.1, (h t).2.2.trans (k t).2.2⟩

theorem moveToX (boxes : Boxes α n) (t : Fin n) (x : α) : (boxes.moveToX t x).SameRows boxes := by
  intro u
  rw [get_moveToX]
  split
  · next eq => subst eq; exact ⟨rfl, rfl, rfl⟩
  · exact ⟨rfl, rfl, rfl⟩

theorem ite_moveToX (p : Prop) [Decidable p] (boxes : Boxes α n) (t : Fin n) (x : α) :
    (if p then boxes.moveToX t x else boxes).SameRows boxes := by
  split
  · exact moveToX boxes t x
  · exact refl boxes

theorem foldl {β : Type} {f : Boxes α n → β → Boxes α n}
    (step : ∀ boxes b, (f boxes b).SameRows boxes) (l : List β) (boxes : Boxes α n) :
    (l.foldl f boxes).SameRows boxes := by
  induction l generalizing boxes with
  | nil => exact refl boxes
  | cons b l ih => exact (ih _).trans (step boxes b)

end SameRows

/-- Boxes that differ at most for the tables of `layer`. -/
def AgreeOff (layer : List (Fin n)) (a b : Boxes α n) : Prop := ∀ t ∉ layer, a.get t = b.get t

variable [Scalar α]

theorem sameRows_pull (strength : α) (neighbours : Fin n → List (Fin n)) (boxes : Boxes α n)
    (t : Fin n) : (boxes.pull strength neighbours t).SameRows boxes := by
  unfold pull
  split
  · exact .refl boxes
  · exact .moveToX boxes t _

/-- What every single pull keeps is kept by all passes, whatever their number. -/
theorem relax_induction {P : Boxes α n → Prop} {g : Graph n} {config : Config α}
    (down : ∀ boxes t, P boxes → P (boxes.pull config.forwardPull g.parents t))
    (up : ∀ boxes t, P boxes → P (boxes.pull config.backwardPull g.children t))
    (layers : List (List (Fin n))) {boxes : Boxes α n} (start : P boxes) :
    P (g.relax config layers boxes) := by
  have pass : ∀ boxes, P boxes → P (g.pass config layers boxes) := by
    intro boxes h
    have pulledDown : P (g.pullDown config layers boxes) :=
      List.foldlRecOn _ _ h fun b hb t _ => down b t hb
    exact List.foldlRecOn _ _ pulledDown fun b hb t _ => up b t hb
  rw [Graph.relax_eq_repeat]
  induction config.relaxationPasses with
  | zero => exact start
  | succ k ih => exact pass _ ih

theorem sameRows_relax (g : Graph n) (config : Config α) (layers : List (List (Fin n)))
    (boxes : Boxes α n) : (g.relax config layers boxes).SameRows boxes := by
  refine relax_induction (P := (SameRows · boxes)) (fun b t h => ?_) (fun b t h => ?_) layers ?_
  · exact (sameRows_pull _ _ b t).trans h
  · exact (sameRows_pull _ _ b t).trans h
  · exact .refl boxes

theorem sameRows_roundLayer (boxes : Boxes α n) (layer : List (Fin n)) :
    (boxes.roundLayer layer).SameRows boxes :=
  SameRows.foldl (fun boxes t => .moveToX boxes t _) layer boxes

theorem roundLayer_agreeOff (boxes : Boxes α n) (layer : List (Fin n)) :
    AgreeOff layer (boxes.roundLayer layer) boxes := by
  unfold roundLayer
  induction layer generalizing boxes with
  | nil => exact fun _ _ => rfl
  | cons t layer ih =>
    intro u hu
    rw [List.mem_cons, not_or] at hu
    rw [List.foldl_cons, ih _ u hu.2, get_moveToX_of_ne _ (Ne.symm hu.1)]

theorem get_roundLayer {boxes : Boxes α n} {layer : List (Fin n)} (nodup : layer.Nodup) {t : Fin n}
    (ht : t ∈ layer) : ((boxes.roundLayer layer).get t).x = Scalar.round (boxes.get t).x := by
  induction layer generalizing boxes with
  | nil => simp at ht
  | cons u layer ih =>
    obtain ⟨hu, nodup⟩ := List.nodup_cons.1 nodup
    change (((boxes.moveToX u _).roundLayer layer).get t).x = _
    rcases List.mem_cons.1 ht with rfl | ht
    · rw [roundLayer_agreeOff _ layer t hu, get_moveToX_self]
    · have ne : u ≠ t := fun eq => hu (eq ▸ ht)
      rw [ih nodup ht, get_moveToX_of_ne _ ne]

theorem sameRows_pushRight (gap : α) (boxes : Boxes α n) (prev : Fin n) (rest : List (Fin n)) :
    (boxes.pushRight gap prev rest).SameRows boxes := by
  induction rest generalizing boxes prev with
  | nil => exact .refl boxes
  | cons t rest ih => exact (ih _ t).trans (.ite_moveToX _ boxes t _)

theorem pushRight_agreeOff (gap : α) (boxes : Boxes α n) (prev : Fin n) (rest : List (Fin n)) :
    AgreeOff rest (boxes.pushRight gap prev rest) boxes := by
  induction rest generalizing boxes prev with
  | nil => exact fun _ _ => rfl
  | cons t rest ih =>
    intro u hu
    rw [List.mem_cons, not_or] at hu
    rw [pushRight, ih _ t u hu.2]
    split
    · exact get_moveToX_of_ne _ (Ne.symm hu.1) _
    · rfl

theorem mem_leftToRight {boxes : Boxes α n} {layer : List (Fin n)} {t : Fin n} :
    t ∈ boxes.leftToRight layer ↔ t ∈ layer := by
  simp [leftToRight]

theorem sameRows_separateLayer (gap : α) (boxes : Boxes α n) (layer : List (Fin n)) :
    (boxes.separateLayer gap layer).SameRows boxes := by
  unfold separateLayer
  dsimp only
  split
  · exact sameRows_roundLayer boxes layer
  · exact (sameRows_pushRight _ _ _ _).trans (sameRows_roundLayer boxes layer)

theorem separateLayer_agreeOff (gap : α) (boxes : Boxes α n) (layer : List (Fin n)) :
    AgreeOff layer (boxes.separateLayer gap layer) boxes := by
  intro t ht
  unfold separateLayer
  dsimp only
  split
  · exact roundLayer_agreeOff boxes layer t ht
  · next first rest order =>
    have off : t ∉ rest := fun h =>
      ht (mem_leftToRight.1 (order ▸ List.mem_cons_of_mem first h))
    rw [pushRight_agreeOff _ _ _ _ t off, roundLayer_agreeOff boxes layer t ht]

theorem foldl_separateLayer_agreeOff (gap : α) (layers : List (List (Fin n)))
    (boxes : Boxes α n) :
    AgreeOff layers.flatten (layers.foldl (separateLayer gap) boxes) boxes := by
  induction layers generalizing boxes with
  | nil => exact fun _ _ => rfl
  | cons layer layers ih =>
    intro t ht
    rw [List.flatten_cons, List.mem_append, not_or] at ht
    rw [List.foldl_cons, ih _ t ht.2, separateLayer_agreeOff gap boxes layer t ht.1]

/-- A layer is separated as if there were no others: its turn finds its boxes as they were at first,
and no later turn moves them. -/
theorem exists_separateLayer (gap : α) {layers : List (List (Fin n))}
    (apart : layers.flatten.Nodup) (boxes : Boxes α n) :
    ∀ layer ∈ layers, ∃ before : Boxes α n, before.SameRows boxes ∧
      (∀ t ∈ layer, before.get t = boxes.get t) ∧ ∀ t ∈ layer,
        (layers.foldl (separateLayer gap) boxes).get t = (before.separateLayer gap layer).get t := by
  induction layers generalizing boxes with
  | nil => simp
  | cons first layers ih =>
    rw [List.flatten_cons, List.nodup_append] at apart
    obtain ⟨-, apart, disjoint⟩ := apart
    intro layer hl
    rw [List.foldl_cons]
    rcases List.mem_cons.1 hl with rfl | hl
    · have later := foldl_separateLayer_agreeOff gap layers (boxes.separateLayer gap layer)
      exact ⟨boxes, .refl boxes, fun _ _ => rfl, fun t ht =>
        later t fun k => disjoint t ht t k rfl⟩
    · obtain ⟨before, rows, same, after⟩ := ih apart (boxes.separateLayer gap first) layer hl
      have outside : ∀ t ∈ layer, t ∉ first := fun t ht k =>
        disjoint t k t (List.mem_flatten.2 ⟨layer, hl, ht⟩) rfl
      refine ⟨before, rows.trans (sameRows_separateLayer gap boxes first), fun t ht => ?_, after⟩
      rw [same t ht, separateLayer_agreeOff gap boxes first t (outside t ht)]

theorem sameRows_separate (config : Config α) (layers : List (List (Fin n))) (boxes : Boxes α n) :
    (boxes.separate config layers).SameRows boxes :=
  SameRows.foldl (sameRows_separateLayer _) layers boxes

end SchemaDiagram.Boxes
