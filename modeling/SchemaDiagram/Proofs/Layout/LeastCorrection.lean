import Mathlib
import SchemaDiagram.Proofs.Layout.Spacing

/-!
# The least correction

Separation moves a table only where the one before it leaves no room. The places that it gives to a
layer are the leftmost ones that keep every table right of its whole place and clear of its left
neighbour. This holds for boxes of any widths and also for a gap that lets neighbours overlap.
-/

namespace SchemaDiagram.Boxes

variable {n : Nat}

/-- The layer by whole places; tables at one of them are in the order they are listed in. -/
structure InRoundedOrder (boxes : Boxes ℚ n) (layer order : List (Fin n)) : Prop where
  perm : order.Perm layer
  sorted : order.Pairwise fun t u =>
    Scalar.round (boxes.get t).x < Scalar.round (boxes.get u).x ∨
      Scalar.round (boxes.get t).x = Scalar.round (boxes.get u).x ∧ [t, u].Sublist layer

/-- Places `x` for the tables of `order`: none is left of the table's `least` place, and neighbours
have `gap` between them. -/
structure Clears (gap : ℚ) (least width : Fin n → ℚ) (order : List (Fin n)) (x : Fin n → ℚ) :
    Prop where
  right : ∀ t ∈ order, least t ≤ x t
  apart : ∀ t u, [t, u] <:+: order → x t + width t + gap ≤ x u

/-- Each place is the least that is clear, and one right of the table's own `least` place is forced
upon it by its left neighbour. -/
structure LeastClear (gap : ℚ) (least width : Fin n → ℚ) (order : List (Fin n)) (x : Fin n → ℚ) :
    Prop extends Clears gap least width order x where
  minimal : ∀ y, Clears gap least width order y → ∀ t ∈ order, x t ≤ y t
  forced : ∀ t ∈ order, x t = least t ∨ ∃ u, [u, t] <:+: order ∧ x t = x u + width u + gap

theorem InRoundedOrder.congr {a b : Boxes ℚ n} {layer order : List (Fin n)}
    (same : ∀ t ∈ layer, a.get t = b.get t) (h : a.InRoundedOrder layer order) :
    b.InRoundedOrder layer order where
  perm := h.perm
  sorted := h.sorted.imp_of_mem fun {t u} ht hu place => by
    rwa [same t (h.perm.mem_iff.1 ht), same u (h.perm.mem_iff.1 hu)] at place

variable {gap : ℚ} {least least' width width' x x' : Fin n → ℚ} {order : List (Fin n)}

theorem Clears.congr (hl : ∀ t ∈ order, least' t = least t) (hw : ∀ t ∈ order, width' t = width t)
    (hx : ∀ t ∈ order, x' t = x t) (h : Clears gap least width order x) :
    Clears gap least' width' order x' where
  right t ht := by rw [hl t ht, hx t ht]; exact h.right t ht
  apart t u next := by
    have ht : t ∈ order := next.subset List.mem_cons_self
    have hu : u ∈ order := next.subset (List.mem_cons_of_mem _ List.mem_cons_self)
    rw [hx t ht, hw t ht, hx u hu]
    exact h.apart t u next

theorem LeastClear.congr (hl : ∀ t ∈ order, least' t = least t)
    (hw : ∀ t ∈ order, width' t = width t) (hx : ∀ t ∈ order, x' t = x t)
    (h : LeastClear gap least width order x) : LeastClear gap least' width' order x' where
  toClears := h.toClears.congr hl hw hx
  minimal y clears t ht := by
    rw [hx t ht]
    exact h.minimal y (clears.congr (fun u hu => (hl u hu).symm) (fun u hu => (hw u hu).symm)
      fun _ _ => rfl) t ht
  forced t ht := by
    rw [hl t ht, hx t ht]
    refine (h.forced t ht).imp_right ?_
    rintro ⟨u, next, eq⟩
    have hu : u ∈ order := next.subset List.mem_cons_self
    exact ⟨u, next, by rw [hx u hu, hw u hu, eq]⟩

theorem pair_infix_cons_cons {t u a b : Fin n} {rest : List (Fin n)} :
    [t, u] <:+: a :: b :: rest ↔ t = a ∧ u = b ∨ [t, u] <:+: b :: rest := by
  rw [List.infix_cons_iff]
  simp

theorem LeastClear.singleton (gap : ℚ) (least width : Fin n → ℚ) (t : Fin n) :
    LeastClear gap least width [t] least := by
  have alone : ∀ u v, ¬ [u, v] <:+: [t] := fun u v next => by simpa using next.length_le
  refine ⟨⟨fun _ _ => le_refl _, fun u v next => (alone u v next).elim⟩, ?_, fun _ _ => .inl rfl⟩
  exact fun y clears => clears.right

/-- `a` stays at its least place, and `b` goes to the least one that is clear of it. Places for the
rest are the least ones behind `b` as soon as they are so for `b` standing there. -/
theorem LeastClear.cons {a b : Fin n} {rest : List (Fin n)} (stays : x a = least a)
    (follows : x b = max (least b) (x a + width a + gap)) (start : least' b = x b)
    (same : ∀ t ∈ rest, least' t = least t) (h : LeastClear gap least' width (b :: rest) x) :
    LeastClear gap least width (a :: b :: rest) x where
  right t ht := by
    rcases List.mem_cons.1 ht with rfl | ht
    · exact stays.ge
    rcases List.mem_cons.1 ht with rfl | ht
    · exact follows ▸ le_max_left _ _
    · exact same t ht ▸ h.right t (List.mem_cons_of_mem b ht)
  apart t u next := by
    rcases pair_infix_cons_cons.1 next with ⟨rfl, rfl⟩ | next
    · exact follows ▸ le_max_right _ _
    · exact h.apart t u next
  minimal y clears := by
    have first : least a ≤ y a := clears.right a List.mem_cons_self
    have behind : Clears gap least' width (b :: rest) y := by
      constructor
      · intro t ht
        rcases List.mem_cons.1 ht with rfl | ht
        · have clear := clears.apart a t (pair_infix_cons_cons.2 (.inl ⟨rfl, rfl⟩))
          have own := clears.right t (List.mem_cons_of_mem a List.mem_cons_self)
          rw [start, follows, stays]
          exact max_le own (by linarith)
        · rw [same t ht]
          exact clears.right t (List.mem_cons_of_mem a (List.mem_cons_of_mem b ht))
      · exact fun t u next => clears.apart t u (pair_infix_cons_cons.2 (.inr next))
    intro t ht
    rcases List.mem_cons.1 ht with rfl | ht
    · exact stays ▸ first
    · exact h.minimal y behind t ht
  forced t ht := by
    rcases List.mem_cons.1 ht with rfl | ht
    · exact .inl stays
    rcases List.mem_cons.1 ht with rfl | ht'
    · rcases max_choice (least t) (x a + width a + gap) with own | pushed
      · exact .inl (follows.trans own)
      · exact .inr ⟨a, pair_infix_cons_cons.2 (.inl ⟨rfl, rfl⟩), follows.trans pushed⟩
    · rw [← same t ht']
      refine (h.forced t ht).imp_right ?_
      rintro ⟨u, next, eq⟩
      exact ⟨u, pair_infix_cons_cons.2 (.inr next), eq⟩

/-- The sweep takes the tables behind the first one to their least clear places. -/
theorem pushRight_leastClear (gap : ℚ) {boxes : Boxes ℚ n} {prev : Fin n} {rest : List (Fin n)}
    (nodup : (prev :: rest).Nodup) :
    LeastClear gap (fun t => (boxes.get t).x) (fun t => (boxes.get t).width) (prev :: rest)
      fun t => ((boxes.pushRight gap prev rest).get t).x := by
  induction rest generalizing boxes prev with
  | nil => exact .singleton gap _ _ prev
  | cons t rest ih =>
    obtain ⟨hprev, nodup'⟩ := List.nodup_cons.1 nodup
    rw [List.mem_cons, not_or] at hprev
    have fresh := (List.nodup_cons.1 nodup').1
    rw [pushRight]
    generalize hpushed : (if (boxes.get t).x < (boxes.get prev).right + gap
      then boxes.moveToX t ((boxes.get prev).right + gap) else boxes) = pushed
    have rows : pushed.SameRows boxes := hpushed ▸ .ite_moveToX _ boxes t _
    have elsewhere : ∀ u, t ≠ u → pushed.get u = boxes.get u := fun u ne => by
      rw [← hpushed, get_pushed, if_neg ne]
    have place : (pushed.get t).x = max (boxes.get t).x ((boxes.get prev).right + gap) := by
      rw [← hpushed, get_pushed, if_pos rfl]
    have off := pushRight_agreeOff gap pushed t rest
    have stays : (pushed.pushRight gap t rest).get prev = boxes.get prev := by
      rw [off prev hprev.2, elsewhere prev (Ne.symm hprev.1)]
    have behind : LeastClear gap (fun u => (pushed.get u).x) (fun u => (boxes.get u).width)
        (t :: rest) fun u => ((pushed.pushRight gap t rest).get u).x :=
      (ih nodup').congr (fun _ _ => rfl) (fun u _ => (rows u).2.1.symm) (fun _ _ => rfl)
    refine behind.cons (by rw [stays]) ?_ (by rw [off t fresh]) fun u hu => ?_
    · rw [off t fresh, stays, place]
      rfl
    · rw [elsewhere u fun eq => fresh (eq ▸ hu)]

variable {layer : List (Fin n)} {boxes : Boxes ℚ n}

theorem leftToRight_inRoundedOrder (boxes : Boxes ℚ n) (nodup : layer.Nodup) :
    boxes.InRoundedOrder layer ((boxes.roundLayer layer).leftToRight layer) where
  perm := List.mergeSort_perm _ _
  sorted := by
    let rounded := boxes.roundLayer layer
    have place : ∀ t ∈ layer, (rounded.get t).x = Scalar.round (boxes.get t).x := fun t ht =>
      get_roundLayer nodup ht
    refine List.pairwise_iff_forall_sublist.2 fun {t u} pair => ?_
    have ht : t ∈ layer := mem_leftToRight.1 (pair.subset List.mem_cons_self)
    have hu : u ∈ layer := mem_leftToRight.1 (pair.subset (List.mem_cons_of_mem _ List.mem_cons_self))
    rw [← place t ht, ← place u hu]
    have le := List.pairwise_iff_forall_sublist.1 (leftToRight_sorted rounded layer) pair
    rcases le.lt_or_eq with less | level
    · exact .inl less
    · -- tables at one place are a part of the layer that the sort leaves as it is
      have kept := pair.filter fun v => (rounded.get v).x = (rounded.get u).x
      rw [leftToRight_stable] at kept
      simp only [level, decide_true, List.filter_cons, if_true, List.filter_nil] at kept
      exact .inr ⟨level, kept.trans List.filter_sublist⟩

theorem separateLayer_leastClear (gap : ℚ) (boxes : Boxes ℚ n) (nodup : layer.Nodup) :
    ∃ order, boxes.InRoundedOrder layer order ∧
      LeastClear gap (fun t => Scalar.round (boxes.get t).x) (fun t => (boxes.get t).width) order
        fun t => ((boxes.separateLayer gap layer).get t).x := by
  have rounded := leftToRight_inRoundedOrder boxes nodup
  have mem : ∀ t ∈ (boxes.roundLayer layer).leftToRight layer, t ∈ layer := fun t =>
    mem_leftToRight.1
  refine ⟨_, rounded, ?_⟩
  have rows := sameRows_roundLayer boxes layer
  have distinct := rounded.perm.nodup_iff.2 nodup
  unfold separateLayer
  dsimp only
  split
  · next order =>
    rw [order]
    exact ⟨⟨by simp, by simp⟩, by simp, by simp⟩
  · next first rest order =>
    rw [order] at distinct mem ⊢
    exact (pushRight_leastClear gap distinct).congr
      (fun t ht => (get_roundLayer nodup (mem t ht)).symm) (fun t _ => (rows t).2.1.symm)
      fun _ _ => rfl

/-- The boxes `moved` are those of `boxes`, with each layer at its least clear places: nothing goes up
or down or changes its size, and tables of no layer stay where they are. -/
structure LeastCorrection (gap : ℚ) (layers : List (List (Fin n))) (boxes moved : Boxes ℚ n) :
    Prop where
  least : ∀ layer ∈ layers, ∃ order, boxes.InRoundedOrder layer order ∧
    LeastClear gap (fun t => Scalar.round (boxes.get t).x) (fun t => (boxes.get t).width) order
      fun t => (moved.get t).x
  rows : moved.SameRows boxes
  elsewhere : AgreeOff layers.flatten moved boxes

/-- Separation corrects no more than the whole places and the gap, rounded up, force it to. -/
theorem separate_leastCorrection (config : Config ℚ) (boxes : Boxes ℚ n)
    {layers : List (List (Fin n))} (nodup : ∀ layer ∈ layers, layer.Nodup)
    (disjoint : layers.Pairwise List.Disjoint) :
    LeastCorrection config.minGap.ceil layers boxes (boxes.separate config layers) := by
  have apart : layers.flatten.Nodup := List.nodup_flatten.2 ⟨nodup, disjoint⟩
  refine ⟨fun layer hl => ?_, sameRows_separate config layers boxes,
    foldl_separateLayer_agreeOff _ layers boxes⟩
  obtain ⟨before, rows, same, after⟩ :=
    exists_separateLayer (Scalar.ceil config.minGap) apart boxes layer hl
  obtain ⟨order, ordered, least⟩ :=
    separateLayer_leastClear (Scalar.ceil config.minGap) before (nodup layer hl)
  have mem : ∀ t ∈ order, t ∈ layer := fun t => ordered.perm.mem_iff.1
  refine ⟨order, ordered.congr same, least.congr (fun t ht => ?_) (fun t ht => ?_) fun t ht => ?_⟩
  · rw [same t (mem t ht)]
  · rw [same t (mem t ht)]
  · exact congrArg Box.x (after t (mem t ht))

/-- Three tables over each other, the first two at one whole place, and a fourth one below them. -/
def crowded : Boxes ℚ 4 :=
  #v[⟨31 / 3, 0, 240, 70⟩, ⟨10, 0, 240, 70⟩, ⟨61 / 2, 0, 240, 70⟩, ⟨-5 / 2, 160, 240, 96⟩]

/-- The gap of 50.5 between them is made up to 51. -/
theorem crowded_leastCorrection :
    let config : Config ℚ := { Config.standard with minGap := 101 / 2 }
    let layers : List (List (Fin 4)) := [[2, 0, 1], [3]]
    (∀ layer ∈ layers, layer.Nodup) ∧ layers.Pairwise List.Disjoint ∧
      LeastCorrection config.minGap.ceil layers crowded (crowded.separate config layers) ∧
      (crowded.separate config layers).toList.map (·.x) = [10, 301, 592, -3] := by
  intro config layers
  have nodup : ∀ layer ∈ layers, layer.Nodup := by decide
  have disjoint : layers.Pairwise List.Disjoint := by
    simp [layers, List.Disjoint]
  exact ⟨nodup, disjoint, separate_leastCorrection config crowded nodup disjoint, by cbv⟩

end SchemaDiagram.Boxes
