import Mathlib
import SchemaDiagram.Proofs.Layout.Bounds
import SchemaDiagram.View

/-!
# Views in use

Whatever is done to a view, its scale stays positive, so the map to the screen can be undone. Zooming
brings the scale between two bounds; fitting bounds it from above only, so that a large layout fits at
a scale below the least one that zooming gives.
-/

namespace SchemaDiagram.View

variable {v : View ℚ}

theorem minScale_eq : (minScale : ℚ) = 1 / 10 := rfl

theorem maxScale_eq : (maxScale : ℚ) = 4 := rfl

theorem minScale_pos : (0 : ℚ) < minScale := by rw [minScale_eq]; norm_num

theorem toWorld_eq (v : View ℚ) (x y : ℚ) :
    v.toWorld x y = ((x - v.offsetX) / v.scale, (y - v.offsetY) / v.scale) := rfl

theorem toScreen_eq (v : View ℚ) (x y : ℚ) :
    v.toScreen x y = (x * v.scale + v.offsetX, y * v.scale + v.offsetY) := rfl

theorem clamp_eq (s : ℚ) : Scalar.clamp minScale maxScale s = max minScale (min s maxScale) := by
  have ordered : (minScale : ℚ) ≤ maxScale := by rw [minScale_eq, maxScale_eq]; norm_num
  change (if s < minScale then minScale else if maxScale < s then maxScale else s) = _
  split
  · next low => rw [max_eq_left ((min_le_left s _).trans low.le)]
  · next high =>
    split
    · next beyond => rw [min_eq_right beyond.le, max_eq_right ordered]
    · next under => rw [min_eq_left (not_lt.1 under), max_eq_right (not_lt.1 high)]

theorem scale_zoomAt (v : View ℚ) (factor x y : ℚ) :
    (v.zoomAt factor x y).scale = max minScale (min (v.scale * factor) maxScale) :=
  clamp_eq _

theorem zoomAt_eq (v : View ℚ) (factor x y : ℚ) :
    v.zoomAt factor x y = ⟨(v.zoomAt factor x y).scale,
      x - (x - v.offsetX) * ((v.zoomAt factor x y).scale / v.scale),
      y - (y - v.offsetY) * ((v.zoomAt factor x y).scale / v.scale)⟩ := rfl

/-- The scale lies where zooming leaves it. -/
def Bounded (v : View ℚ) : Prop := minScale ≤ v.scale ∧ v.scale ≤ maxScale

theorem bounded_zoomAt (v : View ℚ) (factor x y : ℚ) : (v.zoomAt factor x y).Bounded := by
  have ordered : (minScale : ℚ) ≤ maxScale := by rw [minScale_eq, maxScale_eq]; norm_num
  rw [Bounded, scale_zoomAt]
  exact ⟨le_max_left _ _, max_le ordered (min_le_right _ _)⟩

theorem Bounded.pos (h : v.Bounded) : 0 < v.scale := minScale_pos.trans_le h.1

/-- The scale goes through zooming by `factor` without meeting a bound. -/
def Unclamped (v : View ℚ) (factor : ℚ) : Prop :=
  minScale ≤ v.scale * factor ∧ v.scale * factor ≤ maxScale

theorem Unclamped.scale_zoomAt {factor : ℚ} (h : v.Unclamped factor) (x y : ℚ) :
    (v.zoomAt factor x y).scale = v.scale * factor := by
  rw [View.scale_zoomAt, min_eq_left h.2, max_eq_right h.1]

theorem toWorld_toScreen (h : v.scale ≠ 0) (x y : ℚ) :
    v.toWorld (v.toScreen x y).1 (v.toScreen x y).2 = (x, y) := by
  simp only [toWorld_eq, toScreen_eq, add_sub_cancel_right, mul_div_cancel_right₀ _ h]

theorem toScreen_toWorld (h : v.scale ≠ 0) (x y : ℚ) :
    v.toScreen (v.toWorld x y).1 (v.toWorld x y).2 = (x, y) := by
  simp only [toWorld_eq, toScreen_eq, div_mul_cancel₀ _ h, sub_add_cancel]

theorem toScreen_pan (v : View ℚ) (dx dy x y : ℚ) :
    (v.pan dx dy).toScreen x y = ((v.toScreen x y).1 + dx, (v.toScreen x y).2 + dy) := by
  change (x * v.scale + (v.offsetX + dx), y * v.scale + (v.offsetY + dy)) =
    (x * v.scale + v.offsetX + dx, y * v.scale + v.offsetY + dy)
  rw [add_assoc, add_assoc]

/-- Zooming keeps the point of the world that stands under its centre. -/
theorem toWorld_zoomAt (h : v.scale ≠ 0) (factor x y : ℚ) :
    (v.zoomAt factor x y).toWorld x y = v.toWorld x y := by
  have scaled : (v.zoomAt factor x y).scale ≠ 0 := (bounded_zoomAt v factor x y).pos.ne'
  rw [zoomAt_eq]
  generalize (v.zoomAt factor x y).scale = s at scaled
  simp only [toWorld_eq, sub_sub_cancel, Prod.mk.injEq]
  constructor <;> field_simp

/-- Zooming twice about one point is zooming once, as long as no bound is met. -/
theorem zoomAt_zoomAt (h : v.scale ≠ 0) {f g x y : ℚ} (first : v.Unclamped f)
    (second : (v.zoomAt f x y).Unclamped g) :
    (v.zoomAt f x y).zoomAt g x y = v.zoomAt (f * g) x y := by
  have inner := first.scale_zoomAt x y
  have outer := second.scale_zoomAt x y
  have scaled : v.scale * f ≠ 0 := inner ▸ (bounded_zoomAt v f x y).pos.ne'
  have factor : f ≠ 0 := right_ne_zero_of_mul scaled
  have both : v.Unclamped (f * g) := by
    rwa [Unclamped, inner, mul_assoc] at second
  have whole := both.scale_zoomAt x y
  rw [zoomAt_eq (v.zoomAt f x y), outer, inner, zoomAt_eq v f, inner, zoomAt_eq v (f * g), whole,
    mul_assoc]
  simp only [mk.injEq, true_and]
  constructor <;> (field_simp; ring)

def fillScale (viewport start stop : ℚ) : ℚ := viewport / (stop - start + 120)

theorem fitPadding_twice : (fitPadding : ℚ) * Scalar.ofNat 2 = 120 := by
  change (60 : ℚ) * 2 = 120
  norm_num

theorem scale_fitBounds (bounds : Bounds ℚ) (width height : ℚ) :
    (fitBounds bounds width height).scale =
      min (min (fillScale width bounds.left bounds.right)
        (fillScale height bounds.top bounds.bottom)) (3 / 2) := by
  change Scalar.min (Scalar.min (width / (bounds.right - bounds.left + fitPadding * Scalar.ofNat 2))
    (height / (bounds.bottom - bounds.top + fitPadding * Scalar.ofNat 2))) maxFitScale = _
  rw [fitPadding_twice, Scalar.min_rat, Scalar.min_rat]
  rfl

theorem fillScale_pos {viewport start stop : ℚ} (h : 0 < viewport) (ordered : start ≤ stop) :
    0 < fillScale viewport start stop :=
  div_pos h (by linarith)

theorem scale_fitBounds_le (bounds : Bounds ℚ) (width height : ℚ) :
    (fitBounds bounds width height).scale ≤ 3 / 2 := by
  rw [scale_fitBounds]
  exact min_le_right _ _

theorem scale_fitBounds_pos {bounds : Bounds ℚ} (across : bounds.left ≤ bounds.right)
    (down : bounds.top ≤ bounds.bottom) {width height : ℚ} (wide : 0 < width) (high : 0 < height) :
    0 < (fitBounds bounds width height).scale := by
  rw [scale_fitBounds]
  exact lt_min (lt_min (fillScale_pos wide across) (fillScale_pos high down)) (by norm_num)

theorem minScale_le_fillScale {viewport start stop : ℚ} (ordered : start ≤ stop) :
    minScale ≤ fillScale viewport start stop ↔ stop - start + 120 ≤ 10 * viewport := by
  have extent : 0 < stop - start + 120 := by linarith
  rw [minScale_eq, fillScale, div_le_div_iff₀ (by norm_num) extent]
  constructor <;> intro h <;> linarith

theorem exists_fit {l : Layout ℚ} (sized : l.Sized) (some : l.boxes.values ≠ []) {width height : ℚ}
    (wide : 0 < width) (high : 0 < height) :
    ∃ bounds fitted, l.bounds? = .some bounds ∧ fit? l width height = .some fitted ∧
      0 < fitted.scale ∧ fitted.scale ≤ 3 / 2 ∧
      (minScale ≤ fitted.scale ↔ bounds.right - bounds.left + 120 ≤ 10 * width ∧
        bounds.bottom - bounds.top + 120 ≤ 10 * height) := by
  obtain ⟨bounds, found, across, down⟩ := sized.exists_bounds some
  refine ⟨bounds, fitBounds bounds width height, found, by rw [fit?, found]; rfl,
    scale_fitBounds_pos across down wide high, scale_fitBounds_le bounds width height, ?_⟩
  have loose : (minScale : ℚ) ≤ 3 / 2 := by rw [minScale_eq]; norm_num
  rw [scale_fitBounds, le_min_iff, le_min_iff, minScale_le_fillScale across,
    minScale_le_fillScale down, and_iff_left loose]

inductive Gesture where
  | pan (dx dy : ℚ)
  | zoom (factor x y : ℚ)
  | fit (l : Layout ℚ) (width height : ℚ)

/-- The view after a gesture. There is no view that fits a layout without boxes, so the old one
stays. -/
def perform (v : View ℚ) : Gesture → View ℚ
  | .pan dx dy => v.pan dx dy
  | .zoom factor x y => v.zoomAt factor x y
  | .fit l width height => (fit? l width height).getD v

def Gesture.Sound : Gesture → Prop
  | fit l width height => l.Sized ∧ 0 < width ∧ 0 < height
  | _ => True

def Gesture.isFit : Gesture → Bool
  | fit .. => true
  | _ => false

def after (gestures : List Gesture) : View ℚ := gestures.foldl perform identity

theorem after_append_singleton (gestures : List Gesture) (g : Gesture) :
    after (gestures ++ [g]) = (after gestures).perform g := by
  simp [after]

theorem perform_pos (h : 0 < v.scale) {g : Gesture} (sound : g.Sound) :
    0 < (v.perform g).scale := by
  cases g with
  | pan dx dy => exact h
  | zoom factor x y => exact (bounded_zoomAt v factor x y).pos
  | fit l width height =>
    obtain ⟨sized, wide, high⟩ := sound
    by_cases none : l.boxes.values = []
    · have empty : fit? l width height = .none := by
        simp [fit?, Layout.bounds?, none, Scalar.least?]
      rwa [perform, empty]
    · obtain ⟨-, fitted, -, found, positive, -⟩ := exists_fit sized none wide high
      rwa [perform, found]

theorem after_pos {gestures : List Gesture} (sound : ∀ g ∈ gestures, g.Sound) :
    0 < (after gestures).scale := by
  induction gestures using List.reverseRecOn with
  | nil => exact zero_lt_one
  | append_singleton gestures g ih =>
    rw [List.forall_mem_append] at sound
    rw [after_append_singleton]
    exact perform_pos (ih sound.1) (sound.2 g List.mem_cons_self)

theorem perform_bounded (h : v.Bounded) {g : Gesture} (noFit : g.isFit = false) :
    (v.perform g).Bounded := by
  cases g with
  | pan dx dy => exact h
  | zoom factor x y => exact bounded_zoomAt v factor x y
  | fit => contradiction

/-- From a zoom on, the scale stays within the bounds until the view is fitted. -/
theorem after_bounded (before : List Gesture) (factor x y : ℚ) {later : List Gesture}
    (noFit : ∀ g ∈ later, g.isFit = false) :
    (after (before ++ .zoom factor x y :: later)).Bounded := by
  induction later using List.reverseRecOn with
  | nil =>
    rw [after_append_singleton]
    exact bounded_zoomAt _ factor x y
  | append_singleton later g ih =>
    rw [List.forall_mem_append] at noFit
    rw [← List.cons_append, ← List.append_assoc, after_append_singleton]
    exact perform_bounded (ih noFit.1) (noFit.2 g List.mem_cons_self)

/-- Over whole sessions a view can be undone: its scale is positive, and bounded from the last zoom
on if nothing is fitted behind it. Zooming keeps the point under its centre and panning moves all
points alike. -/
theorem session_invertible {gestures : List Gesture} (sound : ∀ g ∈ gestures, g.Sound) :
    let v := after gestures
    0 < v.scale ∧
      (∀ before factor x y later, gestures = before ++ .zoom factor x y :: later →
        (∀ g ∈ later, g.isFit = false) → minScale ≤ v.scale ∧ v.scale ≤ maxScale) ∧
      (∀ x y, v.toWorld (v.toScreen x y).1 (v.toScreen x y).2 = (x, y)) ∧
      (∀ x y, v.toScreen (v.toWorld x y).1 (v.toWorld x y).2 = (x, y)) ∧
      (∀ factor x y, (v.zoomAt factor x y).toWorld x y = v.toWorld x y) ∧
      (∀ dx dy x y, (v.pan dx dy).toScreen x y =
        ((v.toScreen x y).1 + dx, (v.toScreen x y).2 + dy)) ∧
      ∀ f g x y, v.Unclamped f → (v.zoomAt f x y).Unclamped g →
        (v.zoomAt f x y).zoomAt g x y = v.zoomAt (f * g) x y := by
  intro v
  have positive : 0 < v.scale := after_pos sound
  refine ⟨positive, ?_, toWorld_toScreen positive.ne', toScreen_toWorld positive.ne',
    toWorld_zoomAt positive.ne', toScreen_pan v, ?_⟩
  · rintro before factor x y later whole noFit
    have bounded := after_bounded before factor x y noFit
    rwa [← whole] at bounded
  · intro f g x y first second
    exact zoomAt_zoomAt positive.ne' first second

def wideLayout : Layout ℚ := ⟨NameMap.empty.insert ['t'] ⟨0, 0, 1480, 1480⟩, [], 0, 0⟩

theorem wideLayout_boxes : wideLayout.boxes.values = [⟨0, 0, 1480, 1480⟩] := rfl

theorem sized_wideLayout : wideLayout.Sized := by
  intro b hb
  rw [wideLayout_boxes, List.mem_singleton] at hb
  subst hb
  constructor <;> norm_num

def wideSession : List Gesture := [.fit wideLayout 100 100, .pan 3 4, .zoom (-2) 5 7, .pan 1 0]

theorem after_wideSession : after wideSession = ⟨1 / 10, 44 / 5, 41 / 5⟩ := by
  cbv

theorem wideSession_invertible :
    (∀ g ∈ wideSession, g.Sound) ∧ (after wideSession).Bounded ∧
      (after wideSession).Unclamped 2 ∧ ((after wideSession).zoomAt 2 8 9).Unclamped 3 ∧
      ((after wideSession).zoomAt 2 8 9).zoomAt 3 8 9 = (after wideSession).zoomAt (2 * 3) 8 9 := by
  have sound : ∀ g ∈ wideSession, g.Sound := by
    intro g hg
    simp only [wideSession, List.mem_cons, List.not_mem_nil, or_false] at hg
    rcases hg with rfl | rfl | rfl | rfl
    · exact ⟨sized_wideLayout, by norm_num, by norm_num⟩
    all_goals trivial
  have first : (after wideSession).Unclamped 2 := by
    rw [after_wideSession, Unclamped, minScale_eq, maxScale_eq]
    norm_num
  have second : ((after wideSession).zoomAt 2 8 9).Unclamped 3 := by
    rw [Unclamped, first.scale_zoomAt, after_wideSession, minScale_eq, maxScale_eq]
    norm_num
  obtain ⟨-, bounded, -, -, -, -, composed⟩ := session_invertible sound
  refine ⟨sound, ?_, first, second, composed 2 3 8 9 first second⟩
  exact bounded [.fit wideLayout 100 100, .pan 3 4] (-2) 5 7 [.pan 1 0] rfl (by simp [Gesture.isFit])

theorem scale_pans (v : View ℚ) (moves : List (ℚ × ℚ)) :
    (moves.foldl (fun v m => v.pan m.1 m.2) v).scale = v.scale := by
  induction moves generalizing v with
  | nil => rfl
  | cons m moves ih => exact ih (v.pan m.1 m.2)

theorem le_scale_zoomAt {factor : ℚ} (positive : 0 < v.scale) (below : v.scale ≤ maxScale)
    (larger : 1 ≤ factor) (x y : ℚ) : v.scale ≤ (v.zoomAt factor x y).scale := by
  have grown : v.scale ≤ v.scale * factor := le_mul_of_one_le_right positive.le larger
  rw [scale_zoomAt]
  exact le_max_of_le_right (le_min grown below)

theorem scale_zoomAt_le_iff {factor : ℚ} (positive : 0 < v.scale) (smaller : factor ≤ 1)
    (x y : ℚ) : (v.zoomAt factor x y).scale ≤ v.scale ↔ minScale ≤ v.scale := by
  have shrunk : v.scale * factor ≤ v.scale := mul_le_of_le_one_right positive.le smaller
  rw [scale_zoomAt, max_le_iff]
  exact and_iff_left ((min_le_left _ _).trans shrunk)

theorem scale_zoomAt_of_lt {factor : ℚ} (positive : 0 < v.scale) (smaller : factor ≤ 1)
    (low : v.scale < minScale) (x y : ℚ) : (v.zoomAt factor x y).scale = minScale := by
  have shrunk : v.scale * factor ≤ v.scale := mul_le_of_le_one_right positive.le smaller
  rw [scale_zoomAt, max_eq_left ((min_le_left _ _).trans (shrunk.trans low.le))]

/-- From a fitted view, panned or not, zooming in never makes the scale smaller. Zooming out never
makes it larger exactly if the layout with its padding is at most ten times as wide and as high as
the viewport; a larger layout is fitted below the least scale of zooming, to which zooming out then
goes up. -/
theorem zoomAt_of_fit {l : Layout ℚ} (sized : l.Sized) (some : l.boxes.values ≠ [])
    {width height : ℚ} (wide : 0 < width) (high : 0 < height) :
    ∃ bounds fitted, l.bounds? = .some bounds ∧ fit? l width height = .some fitted ∧
      ∀ (moves : List (ℚ × ℚ)) (factor x y : ℚ),
        let v := moves.foldl (fun v m => v.pan m.1 m.2) fitted
        let isSmall := bounds.right - bounds.left + 120 ≤ 10 * width ∧
          bounds.bottom - bounds.top + 120 ≤ 10 * height
        (1 ≤ factor → v.scale ≤ (v.zoomAt factor x y).scale) ∧
          (0 < factor → factor ≤ 1 →
            ((v.zoomAt factor x y).scale ≤ v.scale ↔ isSmall) ∧
            (¬ isSmall → (v.zoomAt factor x y).scale = minScale)) := by
  obtain ⟨bounds, fitted, found, isFitted, positive, most, least⟩ := exists_fit sized some wide high
  refine ⟨bounds, fitted, found, isFitted, ?_⟩
  intro moves factor x y v isSmall
  have same : v.scale = fitted.scale := scale_pans fitted moves
  have below : fitted.scale ≤ maxScale := most.trans (by rw [maxScale_eq]; norm_num)
  rw [← same] at positive below least
  constructor
  · intro larger
    exact le_scale_zoomAt positive below larger x y
  · intro _ smaller
    constructor
    · rw [scale_zoomAt_le_iff positive smaller, least]
    · intro large
      have low : v.scale < minScale := not_le.1 fun bounded => large (least.1 bounded)
      exact scale_zoomAt_of_lt positive smaller low x y

theorem wideLayout_some : wideLayout.boxes.values ≠ [] := by simp [wideLayout_boxes]

theorem wideLayout_zoomed : wideLayout.Sized ∧ wideLayout.boxes.values ≠ [] ∧
    ∃ fitted, fit? wideLayout 200 200 = some fitted ∧
      fitted.scale ≤ (fitted.zoomAt 2 0 0).scale ∧
      (fitted.zoomAt (1 / 2) 0 0).scale ≤ fitted.scale := by
  refine ⟨sized_wideLayout, wideLayout_some, ?_⟩
  have side : (0 : ℚ) < 200 := by norm_num
  obtain ⟨bounds, fitted, found, isFitted, zooms⟩ :=
    zoomAt_of_fit sized_wideLayout wideLayout_some side side
  have extent : wideLayout.bounds? = some ⟨0, 0, 1480, 1480⟩ := by decide +kernel
  obtain rfl := Option.some_inj.1 (extent.symm.trans found)
  refine ⟨fitted, isFitted, (zooms [] 2 0 0).1 (by norm_num), ?_⟩
  exact ((zooms [] (1 / 2) 0 0).2 (by norm_num) (by norm_num)).1.2 (by norm_num)

/-- The box is fitted below the least scale, and zooming by one enlarges it. -/
theorem wideLayout_enlarged : wideLayout.Sized ∧ wideLayout.boxes.values ≠ [] ∧
    ∃ fitted, fit? wideLayout 100 100 = some fitted ∧
      ¬ (fitted.zoomAt 1 0 0).scale ≤ fitted.scale := by
  refine ⟨sized_wideLayout, wideLayout_some, ⟨1 / 16, 15 / 4, 15 / 4⟩, by decide +kernel, ?_⟩
  rw [scale_zoomAt, minScale_eq, maxScale_eq]
  norm_num

end SchemaDiagram.View
