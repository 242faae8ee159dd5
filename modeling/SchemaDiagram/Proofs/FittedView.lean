import SchemaDiagram.Proofs.View

/-!
# Fitted views

Fitting puts the middle of the bounds at the middle of the viewport. Each of the two directions on
its own allows every scale at which the extent, padding included, is no longer than the viewport, so
the least of the two limits and the bound on enlarging is the largest scale that shows everything.
-/

namespace SchemaDiagram

theorem Box.contains_corners {b : Box ℚ} (width : 0 ≤ b.width) (height : 0 ≤ b.height) :
    b.Contains b.x b.y ∧ b.Contains b.right b.bottom := by
  have across : b.x ≤ b.right := le_add_of_nonneg_right width
  have down : b.y ≤ b.bottom := le_add_of_nonneg_right height
  exact ⟨⟨le_rfl, across, le_rfl, down⟩, across, le_rfl, down, le_rfl⟩

namespace View

/-- Every point of every box is on the screen, at least the padding away from its four sides. -/
def Shows (v : View ℚ) (l : Layout ℚ) (width height : ℚ) : Prop :=
  ∀ b ∈ l.boxes.values, ∀ x y, b.Contains x y →
    (60 * v.scale ≤ (v.toScreen x y).1 ∧ (v.toScreen x y).1 ≤ width - 60 * v.scale) ∧
      60 * v.scale ≤ (v.toScreen x y).2 ∧ (v.toScreen x y).2 ≤ height - 60 * v.scale

theorem le_fillScale_iff {viewport start stop scale : ℚ} (ordered : start ≤ stop) :
    scale ≤ fillScale viewport start stop ↔ (stop - start + 120) * scale ≤ viewport := by
  have extent : 0 < stop - start + 120 := by linarith
  rw [fillScale, le_div_iff₀' extent]

/-- Distances from the middle of the extent become distances from the middle of the viewport. -/
theorem add_centering (scale viewport start stop x : ℚ) :
    x * scale + centering scale viewport (stop - start + 120) start =
      viewport / 2 + (x - (start + stop) / 2) * scale := by
  change x * scale + ((viewport - (stop - start + 120) * scale) / 2 - start * scale + 60 * scale) = _
  ring

/-- At a scale that is not too large the extent stays off the sides of the viewport. -/
theorem centered_between {viewport start stop scale x : ℚ} (nonneg : 0 ≤ scale)
    (ordered : start ≤ stop) (fits : scale ≤ fillScale viewport start stop) (after : start ≤ x)
    (before : x ≤ stop) :
    60 * scale ≤ viewport / 2 + (x - (start + stop) / 2) * scale ∧
      viewport / 2 + (x - (start + stop) / 2) * scale ≤ viewport - 60 * scale := by
  have room := (le_fillScale_iff ordered).1 fits
  have fromStart := mul_le_mul_of_nonneg_right after nonneg
  have toStop := mul_le_mul_of_nonneg_right before nonneg
  constructor <;> linarith

/-- No view puts both ends of an extent off the sides at a larger scale. -/
theorem le_fillScale {viewport start stop scale offset : ℚ} (ordered : start ≤ stop)
    (first : 60 * scale ≤ start * scale + offset)
    (last : stop * scale + offset ≤ viewport - 60 * scale) :
    scale ≤ fillScale viewport start stop := by
  rw [le_fillScale_iff ordered]
  linarith

theorem toScreen_fitBounds (bounds : Bounds ℚ) (width height x y : ℚ) :
    (fitBounds bounds width height).toScreen x y =
      (width / 2 + (x - (bounds.left + bounds.right) / 2) * (fitBounds bounds width height).scale,
        height / 2 + (y - (bounds.top + bounds.bottom) / 2) *
          (fitBounds bounds width height).scale) := by
  have offsetX : (fitBounds bounds width height).offsetX =
      centering (fitBounds bounds width height).scale width (bounds.right - bounds.left + 120)
        bounds.left := by rw [← fitPadding_twice]; rfl
  have offsetY : (fitBounds bounds width height).offsetY =
      centering (fitBounds bounds width height).scale height (bounds.bottom - bounds.top + 120)
        bounds.top := by rw [← fitPadding_twice]; rfl
  rw [toScreen_eq, offsetX, offsetY, add_centering, add_centering]

theorem shows_fitBounds {l : Layout ℚ} {bounds : Bounds ℚ} (tight : bounds.IsTight l.boxes.values)
    (across : bounds.left ≤ bounds.right) (down : bounds.top ≤ bounds.bottom) {width height : ℚ}
    (wide : 0 < width) (high : 0 < height) : (fitBounds bounds width height).Shows l width height := by
  intro b hb x y inside
  obtain ⟨left, right, top, bottom⟩ := inside
  have covers := tight.covers hb
  have nonneg := (scale_fitBounds_pos across down wide high).le
  have least := (scale_fitBounds bounds width height).le
  rw [le_min_iff, le_min_iff] at least
  obtain ⟨⟨fitsX, fitsY⟩, -⟩ := least
  rw [toScreen_fitBounds]
  exact ⟨centered_between nonneg across fitsX (covers.left.trans left) (right.trans covers.right),
    centered_between nonneg down fitsY (covers.top.trans top) (bottom.trans covers.bottom)⟩

/-- The outermost edges limit the scale of every view that shows all boxes. -/
theorem Shows.scale_le {l : Layout ℚ} (sized : l.Sized) {bounds : Bounds ℚ}
    (tight : bounds.IsTight l.boxes.values) (across : bounds.left ≤ bounds.right)
    (down : bounds.top ≤ bounds.bottom) {width height : ℚ} {v : View ℚ}
    (shows : v.Shows l width height) :
    v.scale ≤ fillScale width bounds.left bounds.right ∧
      v.scale ≤ fillScale height bounds.top bounds.bottom := by
  have corners : ∀ b ∈ l.boxes.values, b.Contains b.x b.y ∧ b.Contains b.right b.bottom :=
    fun b hb => Box.contains_corners (sized b hb).1 (sized b hb).2
  obtain ⟨leftmost, hl, isLeft⟩ := List.mem_map.1 tight.left.1
  obtain ⟨topmost, ht, isTop⟩ := List.mem_map.1 tight.top.1
  obtain ⟨rightmost, hr, isRight⟩ := List.mem_map.1 tight.right.1
  obtain ⟨lowest, hb, isBottom⟩ := List.mem_map.1 tight.bottom.1
  constructor
  · have first := (shows leftmost hl _ _ (corners leftmost hl).1).1.1
    have last := (shows rightmost hr _ _ (corners rightmost hr).2).1.2
    rw [isLeft] at first
    rw [isRight] at last
    exact le_fillScale across first last
  · have first := (shows topmost ht _ _ (corners topmost ht).1).2.1
    have last := (shows lowest hb _ _ (corners lowest hb).2).2.2
    rw [isTop] at first
    rw [isBottom] at last
    exact le_fillScale down first last

/-- A layout with boxes is fitted with all of them in view and its middle in the middle, at the
largest scale up to the bound on enlarging that any view of them can have. -/
theorem fit_shows {l : Layout ℚ} (sized : l.Sized) (some : l.boxes.values ≠ []) {width height : ℚ}
    (wide : 0 < width) (high : 0 < height) :
    ∃ bounds fitted, l.bounds? = .some bounds ∧ bounds.IsTight l.boxes.values ∧
      fit? l width height = .some fitted ∧ 0 < fitted.scale ∧ fitted.scale ≤ 3 / 2 ∧
      fitted.Shows l width height ∧
      fitted.toScreen ((bounds.left + bounds.right) / 2) ((bounds.top + bounds.bottom) / 2) =
        (width / 2, height / 2) ∧
      ∀ v : View ℚ, v.scale ≤ 3 / 2 → v.Shows l width height → v.scale ≤ fitted.scale := by
  obtain ⟨bounds, found, tight⟩ := Layout.exists_bounds some
  obtain ⟨across, down⟩ : bounds.left ≤ bounds.right ∧ bounds.top ≤ bounds.bottom := by
    obtain ⟨same, isSame, ordered⟩ := sized.exists_bounds some
    exact Option.some_inj.1 (isSame.symm.trans found) ▸ ordered
  refine ⟨bounds, fitBounds bounds width height, found, tight, by rw [fit?, found]; rfl,
    scale_fitBounds_pos across down wide high, scale_fitBounds_le bounds width height,
    shows_fitBounds tight across down wide high, ?_, ?_⟩
  · rw [toScreen_fitBounds, sub_self, sub_self, zero_mul, add_zero, add_zero]
  · intro v enlarged shows
    obtain ⟨limitX, limitY⟩ := shows.scale_le sized tight across down
    rw [scale_fitBounds]
    exact le_min (le_min limitX limitY) enlarged

def scatteredLayout : Layout ℚ :=
  ⟨(NameMap.empty.insert ['a'] ⟨-100, 20, 200, 100⟩).insert ['b'] ⟨300, -50, 0, 400⟩, [], 0, 0⟩

theorem scatteredLayout_boxes :
    scatteredLayout.boxes.values = [⟨-100, 20, 200, 100⟩, ⟨300, -50, 0, 400⟩] := rfl

/-- The height decides the scale, and no view shows the boxes at a larger one. -/
theorem scatteredLayout_shown : scatteredLayout.Sized ∧ scatteredLayout.boxes.values ≠ [] ∧
    ∃ fitted, fit? scatteredLayout 400 300 = some fitted ∧ fitted.scale = 15 / 26 ∧
      fitted.Shows scatteredLayout 400 300 ∧ fitted.toScreen 100 150 = (200, 150) ∧
      ∀ v : View ℚ, v.scale ≤ 3 / 2 → v.Shows scatteredLayout 400 300 → v.scale ≤ 15 / 26 := by
  have sized : scatteredLayout.Sized := by
    intro b hb
    rw [scatteredLayout_boxes, List.mem_cons, List.mem_singleton] at hb
    rcases hb with rfl | rfl <;> constructor <;> norm_num
  have some : scatteredLayout.boxes.values ≠ [] := by simp [scatteredLayout_boxes]
  obtain ⟨bounds, fitted, found, -, isFitted, -, -, shown, centred, largest⟩ :=
    fit_shows sized some (by norm_num : (0 : ℚ) < 400) (by norm_num : (0 : ℚ) < 300)
  have extent : scatteredLayout.bounds? = .some ⟨-100, -50, 300, 350⟩ := by decide +kernel
  obtain rfl := Option.some_inj.1 (extent.symm.trans found)
  have scale : fitted.scale = 15 / 26 := by
    have value : (fit? scatteredLayout 400 300).map (·.scale) = .some (15 / 26) := by decide +kernel
    rw [isFitted] at value
    exact Option.some_inj.1 value
  norm_num at centred
  exact ⟨sized, some, fitted, isFitted, scale, shown, centred, scale ▸ largest⟩

end View

end SchemaDiagram
