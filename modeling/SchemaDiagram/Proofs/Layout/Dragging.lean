import Mathlib
import SchemaDiagram.Proofs.Layout.Canvas

/-!
# Dragging

Boxes are dragged one after the other, by names in any spelling. Each time exactly the box that the
name finds goes to its new place, or nothing happens at all if the name finds none; and the canvas
holds every box from the finished layout on, wherever the boxes go.
-/

namespace SchemaDiagram

structure Drag where
  name : Text
  x : ℚ
  y : ℚ

namespace Layout

def drag (l : Layout ℚ) (d : Drag) : Layout ℚ := (l.move? d.name d.x d.y).getD l

def dragged (l : Layout ℚ) (drags : List Drag) : Layout ℚ := drags.foldl drag l

/-- A look-up that goes straight to the boxes: that of the exact name, or else the first one whose
name is the same but for case. -/
def readBox? (l : Layout ℚ) (name : Text) : Option (Box ℚ) :=
  (l.boxes.find? name).or ((l.boxes.entries.find? (Text.SameName ·.1 name)).map (·.2))

/-- No box reaches over the right or the lower edge of the canvas. -/
def Inside (l : Layout ℚ) : Prop :=
  ∀ b ∈ l.boxes.values, b.right ≤ l.width ∧ b.bottom ≤ l.height

/-- The box `b` under `key` is at a new place. Its size, all other boxes and the layers are as they
were, and the canvas has grown as far as the box needs. -/
structure Moved (l m : Layout ℚ) (key : Text) (b : Box ℚ) (x y : ℚ) : Prop where
  former : l.boxes.find? key = some b
  placed : m.boxes.find? key = some { b with x, y }
  others : ∀ name, name ≠ key → m.boxes.find? name = l.boxes.find? name
  keys : m.boxes.keys = l.boxes.keys
  layers : m.layers = l.layers
  width : m.width = max l.width (x + b.width)
  height : m.height = max l.height (y + b.height)

variable {l m : Layout ℚ} {name key : Text} {x y : ℚ}

theorem box?_eq_readBox? (l : Layout ℚ) (name : Text) : l.box? name = l.readBox? name := by
  unfold box? key? readBox?
  by_cases known : l.boxes.contains name
  · obtain ⟨b, found⟩ := Option.isSome_iff_exists.1 (NameMap.contains_iff.1 known)
    simp [known, found]
  · have none : l.boxes.find? name = none := by
      rw [NameMap.contains_iff] at known
      simpa using known
    rw [if_neg known, none, Option.none_or, NameMap.keys, List.find?_map]
    change (l.boxes.entries.find? (Text.SameName ·.1 name)).map (·.1) >>= l.boxes.find? = _
    cases found : l.boxes.entries.find? (Text.SameName ·.1 name) with
    | none => rfl
    | some e => exact NameMap.find?_of_mem (List.mem_of_find?_eq_some found)

theorem box?_eq_some_iff {b : Box ℚ} : l.box? name = some b ↔
    ∃ key, l.key? name = some key ∧ l.boxes.find? key = some b :=
  Option.bind_eq_some_iff

theorem key?_congr (h : m.boxes.keys = l.boxes.keys) (name : Text) : m.key? name = l.key? name := by
  rw [key?, key?, NameMap.contains, NameMap.contains, h]

theorem move?_eq_some_iff : l.move? name x y = some m ↔
    ∃ key b, l.key? name = some key ∧ l.boxes.find? key = some b ∧
      { l with
        boxes := l.boxes.modify key fun _ => { b with x, y }
        width := Scalar.max l.width (x + b.width)
        height := Scalar.max l.height (y + b.height) } = m := by
  constructor
  · intro h
    obtain ⟨b, box, moved⟩ := Option.bind_eq_some_iff.1 h
    obtain ⟨key, isKey, found⟩ := box?_eq_some_iff.1 box
    simp only [modifyBox, isKey] at moved
    exact ⟨key, b, isKey, found, Option.some_inj.1 moved⟩
  · rintro ⟨key, b, isKey, found, rfl⟩
    refine Option.bind_eq_some_iff.2 ⟨b, box?_eq_some_iff.2 ⟨key, isKey, found⟩, ?_⟩
    simp only [modifyBox, isKey]
    rfl

theorem isSome_move?_iff : (l.move? name x y).isSome ↔ (l.box? name).isSome := by
  rw [Option.isSome_iff_exists, Option.isSome_iff_exists]
  simp only [move?_eq_some_iff, box?_eq_some_iff]
  constructor
  · rintro ⟨-, key, b, isKey, found, -⟩
    exact ⟨b, key, isKey, found⟩
  · rintro ⟨b, key, isKey, found⟩
    exact ⟨_, key, b, isKey, found, rfl⟩

theorem moved_of_move? (h : l.move? name x y = some m) :
    ∃ key b, l.key? name = some key ∧ l.box? name = some b ∧ Moved l m key b x y := by
  obtain ⟨key, b, isKey, found, rfl⟩ := move?_eq_some_iff.1 h
  refine ⟨key, b, isKey, box?_eq_some_iff.2 ⟨key, isKey, found⟩, ?_⟩
  constructor
  · exact found
  · rw [NameMap.find?_modify, if_pos rfl, found, Option.map_some]
  · intro other ne
    rw [NameMap.find?_modify, if_neg ne.symm]
  · exact NameMap.keys_modify _ _ _
  · rfl
  · exact Scalar.max_rat _ _
  · exact Scalar.max_rat _ _

/-- A name finds a box, which moves, or it finds none and everything stays. -/
theorem drag_cases (l : Layout ℚ) (d : Drag) :
    (∃ key b, l.key? d.name = some key ∧ l.box? d.name = some b ∧
      Moved l (l.drag d) key b d.x d.y) ∨ l.box? d.name = none ∧ l.drag d = l := by
  cases moves : l.move? d.name d.x d.y with
  | some m =>
    have reached : l.drag d = m := by rw [drag, moves, Option.getD_some]
    rw [reached]
    exact Or.inl (moved_of_move? moves)
  | none =>
    have missing : l.box? d.name = none := by
      rw [← Option.not_isSome_iff_eq_none, ← isSome_move?_iff (x := d.x) (y := d.y), moves]
      exact Bool.false_ne_true
    exact Or.inr ⟨missing, by rw [drag, moves, Option.getD_none]⟩

theorem Moved.box? {b : Box ℚ} (moved : Moved l m key b x y) (isKey : l.key? name = some key) :
    m.box? name = some { b with x, y } :=
  box?_eq_some_iff.2 ⟨key, (key?_congr moved.keys name).trans isKey, moved.placed⟩

theorem Moved.inside {b : Box ℚ} (moved : Moved l m key b x y) (inside : l.Inside) : m.Inside := by
  intro c hc
  obtain ⟨name, found⟩ := NameMap.mem_values_iff.1 hc
  rw [moved.width, moved.height]
  by_cases same : name = key
  · subst same
    obtain rfl := Option.some_inj.1 (moved.placed.symm.trans found)
    exact ⟨le_max_right _ _, le_max_right _ _⟩
  · rw [moved.others name same] at found
    obtain ⟨right, bottom⟩ := inside c (NameMap.mem_values_iff.2 ⟨name, found⟩)
    exact ⟨right.trans (le_max_left _ _), bottom.trans (le_max_left _ _)⟩

theorem drag_grows (l : Layout ℚ) (d : Drag) :
    l.width ≤ (l.drag d).width ∧ l.height ≤ (l.drag d).height := by
  rcases drag_cases l d with ⟨key, b, -, -, moved⟩ | ⟨-, stays⟩
  · rw [moved.width, moved.height]
    exact ⟨le_max_left _ _, le_max_left _ _⟩
  · rw [stays]
    exact ⟨le_rfl, le_rfl⟩

theorem Inside.drag (inside : l.Inside) (d : Drag) : (l.drag d).Inside := by
  rcases drag_cases l d with ⟨key, b, -, -, moved⟩ | ⟨-, stays⟩
  · exact moved.inside inside
  · rwa [stays]

theorem Inside.dragged (inside : l.Inside) (drags : List Drag) : (l.dragged drags).Inside := by
  induction drags generalizing l with
  | nil => exact inside
  | cons d drags ih => exact ih (inside.drag d)

/-- The finished canvas ends behind the outermost boxes by its padding. -/
theorem inside_ofTables {config : Config ℚ} (paddingX : 0 ≤ config.paddingX)
    (paddingY : 0 ≤ config.paddingY) (measure : Measurer ℚ) (tables : List Table)
    (relationships : List Relationship) :
    (ofTables config measure tables relationships).Inside := by
  intro b hb
  obtain ⟨bounds, found, tight⟩ := exists_bounds (List.ne_nil_of_mem hb)
  have covers := tight.covers hb
  have sizes : (ofTables config measure tables relationships).width =
      bounds.right + config.paddingX ∧
      (ofTables config measure tables relationships).height = bounds.bottom + config.paddingY :=
    size_ofBoxes found
  rw [sizes.1, sizes.2]
  exact ⟨covers.right.trans (le_add_of_nonneg_right paddingX),
    covers.bottom.trans (le_add_of_nonneg_right paddingY)⟩

/-- After any attempts to move boxes, a further one succeeds exactly if its name finds a box, which
is read as it is written: under the exact name or else under the first one in another case. That box
goes to the new place with its size, where the name finds it again; every other box, the names and
the layers stay. An attempt that fails changes nothing. The canvas never shrinks and holds every
box. -/
theorem ofTables_dragged {config : Config ℚ} (paddingX : 0 ≤ config.paddingX)
    (paddingY : 0 ≤ config.paddingY) (measure : Measurer ℚ) (tables : List Table)
    (relationships : List Relationship) (drags : List Drag) (d : Drag) :
    let l := (ofTables config measure tables relationships).dragged drags
    ((l.move? d.name d.x d.y).isSome ↔ (l.box? d.name).isSome) ∧
      (∀ name, l.box? name = l.readBox? name) ∧
      (∀ b, l.box? d.name = some b → ∃ key, l.key? d.name = some key ∧
        Moved l (l.drag d) key b d.x d.y ∧
          (l.drag d).box? d.name = some { b with x := d.x, y := d.y }) ∧
      (l.box? d.name = none → l.drag d = l) ∧
      l.width ≤ (l.drag d).width ∧ l.height ≤ (l.drag d).height ∧
      ∀ b ∈ (l.drag d).boxes.values, b.right ≤ (l.drag d).width ∧ b.bottom ≤ (l.drag d).height := by
  intro l
  have inside : l.Inside :=
    (inside_ofTables paddingX paddingY measure tables relationships).dragged drags
  obtain ⟨wider, higher⟩ := drag_grows l d
  refine ⟨isSome_move?_iff, box?_eq_readBox? l, fun b box => ?_, fun missing => ?_, wider, higher,
    inside.drag d⟩
  · rcases drag_cases l d with ⟨key, c, isKey, same, moved⟩ | ⟨missing, -⟩
    · obtain rfl := Option.some_inj.1 (same.symm.trans box)
      exact ⟨key, isKey, moved, moved.box? isKey⟩
    · rw [missing] at box
      contradiction
  · rcases drag_cases l d with ⟨key, c, -, box, -⟩ | ⟨-, stays⟩
    · rw [missing] at box
      contradiction
    · exact stays

def alikeTables : List Table := [⟨['A', 'b'], none, [], []⟩, ⟨['a', 'B'], none, [], []⟩]

def alikeDrags : List Drag := [⟨['A', 'B'], 900, 400⟩, ⟨['z'], 0, 0⟩]

def alikeLayout : Layout ℚ :=
  (ofTables .standard (fun _ _ => 0) alikeTables []).dragged alikeDrags

theorem alikeLayout_box : alikeLayout.box? ['a', 'b'] = some ⟨900, 400, 240, 44⟩ := by
  cbv

/-- The table that was dragged to the right is dragged back under a fourth spelling. -/
theorem alikeLayout_dragged :
    let config : Config ℚ := .standard
    let back : Drag := ⟨['a', 'b'], -5, 0⟩
    0 ≤ config.paddingX ∧ 0 ≤ config.paddingY ∧ alikeLayout.key? back.name = some ['A', 'b'] ∧
      Moved alikeLayout (alikeLayout.drag back) ['A', 'b'] ⟨900, 400, 240, 44⟩ (-5) 0 ∧
      (alikeLayout.drag back).box? back.name = some ⟨-5, 0, 240, 44⟩ ∧
      alikeLayout.drag ⟨['z'], 1, 1⟩ = alikeLayout ∧
      ∀ b ∈ (alikeLayout.drag back).boxes.values, b.right ≤ (alikeLayout.drag back).width := by
  intro config back
  have paddingX : 0 ≤ config.paddingX := by decide
  have paddingY : 0 ≤ config.paddingY := by decide
  have isFirst : alikeLayout.key? back.name = some ['A', 'b'] := by cbv
  have unknown : alikeLayout.box? ['z'] = none := by cbv
  obtain ⟨-, -, moves, -, -, -, inside⟩ :=
    ofTables_dragged paddingX paddingY (fun _ _ => 0) alikeTables [] alikeDrags back
  obtain ⟨-, -, -, stays, -⟩ :=
    ofTables_dragged paddingX paddingY (fun _ _ => 0) alikeTables [] alikeDrags ⟨['z'], 1, 1⟩
  obtain ⟨key, isKey, moved, placed⟩ := moves _ alikeLayout_box
  obtain rfl := Option.some_inj.1 (isFirst.symm.trans isKey)
  exact ⟨paddingX, paddingY, isFirst, moved, placed, stays unknown, fun b hb => (inside b hb).1⟩

end Layout

end SchemaDiagram
