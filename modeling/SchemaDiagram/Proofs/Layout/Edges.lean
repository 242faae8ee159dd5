import Mathlib
import SchemaDiagram.Layout.Anchors
import SchemaDiagram.Proofs.Layout.Fitting
import SchemaDiagram.View

/-!
# Edges and hits

The size of a box, the height of an anchor and the look-up of a column each reckon rows on their
own. They agree: where a line attaches to the row of a column, that column is found, and since no
other box reaches there nothing else is.
-/

namespace SchemaDiagram

namespace Box

/-- The anchor is on the side of the box that it is tagged with. -/
def OnSide (b : Box ℚ) (a : Anchor ℚ) : Prop :=
  a.x = b.sideX a.side ∧ b.y ≤ a.y ∧ a.y ≤ b.bottom

variable {config : Config ℚ} {b : Box ℚ}

theorem sideX_between (width : 0 ≤ b.width) (side : Side) :
    b.x ≤ b.sideX side ∧ b.sideX side ≤ b.right := by
  unfold right
  cases side with
  | left => constructor <;> simp only [sideX] <;> linarith
  | right => constructor <;> simp only [sideX, right] <;> linarith

theorem OnSide.contains {a : Anchor ℚ} (h : b.OnSide a) (width : 0 ≤ b.width) :
    b.Contains a.x a.y := by
  obtain ⟨side, top, bottom⟩ := h
  obtain ⟨left, right⟩ := sideX_between width a.side
  rw [← side] at left right
  exact ⟨left, right, top, bottom⟩

theorem rowMiddle_eq (config : Config ℚ) (b : Box ℚ) (row : Nat) :
    b.rowMiddle config row = b.y + config.headerHeight + (row + 1 / 2) * config.rowHeight := by
  change b.y + config.headerHeight + row * config.rowHeight + config.rowHeight / 2 = _
  ring

theorem toIndex_rowMiddle (rowHeight : 0 < config.rowHeight) (b : Box ℚ) (row : Nat) :
    Scalar.toIndex ((b.rowMiddle config row - b.y - config.headerHeight) / config.rowHeight) =
      row := by
  have rows : (b.rowMiddle config row - b.y - config.headerHeight) / config.rowHeight =
      row + 1 / 2 := by
    rw [rowMiddle_eq]
    field_simp
    ring
  have floor : (row + 1 / 2 : ℚ).floor = row := by
    change ⌊(row + 1 / 2 : ℚ)⌋ = row
    rw [Int.floor_eq_iff]
    push_cast
    constructor <;> linarith
  rw [rows]
  change (row + 1 / 2 : ℚ).floor.toNat = row
  rw [floor, Int.toNat_natCast]

theorem header_le_rowMiddle (room : config.Roomy) (b : Box ℚ) (row : Nat) :
    b.y + config.headerHeight ≤ b.rowMiddle config row := by
  have rows : 0 ≤ (row + 1 / 2 : ℚ) := by positivity
  rw [rowMiddle_eq]
  exact le_add_of_nonneg_right (mul_nonneg rows room.rowHeight.le)

theorem rowMiddle_le_bottom (room : config.Roomy) {n row : Nat}
    (height : b.height = config.headerHeight + n * config.rowHeight + config.tablePadding)
    (h : row < n) : b.rowMiddle config row ≤ b.bottom := by
  obtain ⟨-, -, -, -, rowHeight, padding⟩ := room
  have rows : (row + 1 : ℚ) ≤ n := by exact_mod_cast h
  have above := mul_le_mul_of_nonneg_right rows rowHeight.le
  rw [rowMiddle_eq, bottom, height]
  linarith

theorem rowMiddle_zero_le_bottom_iff
    (height : b.height = config.headerHeight + (0 : Nat) * config.rowHeight + config.tablePadding) :
    b.rowMiddle config 0 ≤ b.bottom ↔ config.rowHeight / 2 ≤ config.tablePadding := by
  rw [rowMiddle_eq, bottom, height]
  push_cast
  constructor
  · intro h
    linarith
  · intro h
    linarith

/-- Rows never begin above the box, so the side is missed at its lower end only. -/
theorem onSide_rowMiddle_iff (room : config.Roomy) (side : Side) (row : Nat) :
    b.OnSide ⟨b.sideX side, b.rowMiddle config row, side⟩ ↔ b.rowMiddle config row ≤ b.bottom := by
  constructor
  · exact fun on => on.2.2
  · intro above
    have header := header_le_rowMiddle room b row
    exact ⟨rfl, (le_add_of_nonneg_right room.headerHeight).trans header, above⟩

end Box

def Endpoint.column? (e : Endpoint) (t : Table) : Option Column :=
  t.columns.find? fun c => ∃ name ∈ e.columns, Text.SameName c.name name

namespace Endpoint

theorem row_lt (e : Endpoint) {t : Table} (some : t.columns ≠ []) : e.row t < t.columns.length := by
  unfold row
  cases found : t.columns.findIdx? fun c => Text.isAmong c.name e.columns with
  | none => exact List.length_pos_iff.2 some
  | some row => exact (List.findIdx?_eq_some_iff_getElem.1 found).1

theorem row_of_empty (e : Endpoint) {t : Table} (none : t.columns = []) : e.row t = 0 := by
  rw [row, none]
  rfl

theorem getElem?_row {e : Endpoint} {t : Table} {c : Column} (h : e.column? t = some c) :
    t.columns[e.row t]? = some c := by
  have named : (fun c : Column => decide (∃ name ∈ e.columns, Text.SameName c.name name)) =
      fun c => Text.isAmong c.name e.columns := by
    funext c
    rw [Bool.eq_iff_iff]
    simp [Text.isAmong]
  rw [column?, named, List.find?_eq_some_iff_getElem] at h
  obtain ⟨among, row, within, rfl, before⟩ := h
  have found : t.columns.findIdx? (fun c => Text.isAmong c.name e.columns) = some row :=
    List.findIdx?_eq_some_iff_getElem.2 ⟨within, among, by simpa using before⟩
  rw [Endpoint.row, found]
  exact List.getElem?_eq_getElem within

end Endpoint

namespace Schema

variable {s : Schema} {name : Text}

def Knows (s : Schema) (name : Text) : Prop := ∃ t ∈ s.tables, Text.SameName t.name name

theorem known_of_table? {t : Table} (h : s.table? name = some t) :
    t ∈ s.tables ∧ Text.SameName t.name name :=
  ⟨List.mem_of_find?_eq_some h, by simpa using List.find?_some h⟩

theorem exists_table?_iff : (∃ t, s.table? name = some t) ↔ s.Knows name := by
  rw [← Option.isSome_iff_exists, table?, List.find?_isSome]
  simp only [decide_eq_true_eq, Knows]

end Schema

namespace Layout

variable {config : Config ℚ} {tables : List Table} {l : Layout ℚ}

theorem isOffRows_of_not_contains (header : 0 ≤ config.headerHeight) {b : Box ℚ} {x y : ℚ}
    (outside : ¬ b.Contains x y) : IsOffRows config b x y := by
  by_contra rows
  simp only [IsOffRows, not_or, not_lt] at rows
  obtain ⟨left, right, top, bottom⟩ := rows
  exact outside ⟨left, right, by linarith, bottom⟩

/-- In the box of its table a column is found at the middle of its row. -/
theorem columnOf?_rowMiddle (room : config.Roomy) {t : Table} {b : Box ℚ}
    (box : l.box? t.name = some b) {x : ℚ} {row : Nat}
    (inside : b.Contains x (b.rowMiddle config row)) :
    l.columnOf? config t x (b.rowMiddle config row) = t.columns[row]? := by
  have onRow : ¬ IsOffRows config b x (b.rowMiddle config row) := by
    obtain ⟨left, right, -, bottom⟩ := inside
    simp only [IsOffRows, not_or, not_lt]
    exact ⟨left, right, Box.header_le_rowMiddle room b row, bottom⟩
  simp only [columnOf?, box, Option.bind_eq_bind, Option.bind_some, if_neg onRow,
    Box.toIndex_rowMiddle room.rowHeight]

/-- In a box that meets no other box only its own table has columns to find. -/
theorem Fits.columnAt? (fits : l.Fits config tables) (header : 0 ≤ config.headerHeight)
    (distinct : (tables.map (·.name)).Nodup) {t : Table} (ht : t ∈ tables) {b : Box ℚ}
    (hb : l.box? t.name = some b) {x y : ℚ} (inside : b.Contains x y) {c : Column}
    (found : l.columnOf? config t x y = some c) : l.columnAt? config tables x y = some (t, c) := by
  obtain ⟨before, after, rfl⟩ := List.append_of_mem ht
  refine List.findSome?_eq_some_iff.2 ⟨before, t, after, rfl, by rw [found]; rfl, fun u hu => ?_⟩
  have member : u ∈ before ++ t :: after := List.mem_append_left _ hu
  have ne : u.name ≠ t.name := by
    rw [List.map_append, List.nodup_append] at distinct
    exact distinct.2.2 _ (List.mem_map_of_mem hu) _ (by simp)
  obtain ⟨a, ha, -, -⟩ := fits.box u member
  have outside := (fits.clear u member t ht ne a b ha hb).not_contains inside
  have none : l.columnOf? config u x y = none := by
    simp [columnOf?, ha, isOffRows_of_not_contains header outside]
  rw [none]
  rfl

/-- The end of a line that `e` describes is at a table of that name, on the tagged side of its box.
If the table has no columns the end is where the middle of its first row would be, which the box
reaches only if its padding is as high as half a row. -/
structure Attached (config : Config ℚ) (l : Layout ℚ) (tables : List Table) (e : Endpoint)
    (a : Anchor ℚ) (t : Table) (b : Box ℚ) : Prop where
  known : t ∈ tables
  named : Text.SameName t.name e.table
  box : l.box? t.name = some b
  side : a.x = b.sideX a.side
  onSide : b.OnSide a ↔ t.columns ≠ [] ∨ config.rowHeight / 2 ≤ config.tablePadding
  empty : t.columns = [] → a.y = b.y + config.headerHeight + config.rowHeight / 2
  hit : ∀ c, e.column? t = some c → l.columnAt? config tables a.x a.y = some (t, c)

/-- Whatever its side, a line ends at the row that its endpoint asks for. -/
theorem Fits.attached (fits : l.Fits config tables) (room : config.Roomy)
    (distinct : (tables.map (·.name)).Nodup) {e : Endpoint} {t : Table} (known : t ∈ tables)
    (named : Text.SameName t.name e.table) {b : Box ℚ} (box : l.box? t.name = some b)
    (side : Side) :
    Attached config l tables e ⟨b.sideX side, b.rowMiddle config (e.row t), side⟩ t b := by
  obtain ⟨b', box', width, height⟩ := fits.box t known
  obtain rfl := Option.some_inj.1 (box.symm.trans box')
  have onSide := Box.onSide_rowMiddle_iff (b := b) room side (e.row t)
  have reaches : t.columns ≠ [] → b.rowMiddle config (e.row t) ≤ b.bottom := fun some =>
    Box.rowMiddle_le_bottom room height (e.row_lt some)
  refine ⟨known, named, box, rfl, ?_, fun none => ?_, fun c named => ?_⟩
  · rw [onSide]
    by_cases none : t.columns = []
    · rw [none] at height
      rw [e.row_of_empty none, Box.rowMiddle_zero_le_bottom_iff height]
      simp [none]
    · exact iff_of_true (reaches none) (Or.inl none)
  · rw [e.row_of_empty none, Box.rowMiddle_eq]
    push_cast
    ring
  · have here := Endpoint.getElem?_row named
    have some : t.columns ≠ [] := fun none => by simp [none] at here
    have inside := (onSide.2 (reaches some)).contains width
    apply fits.columnAt? room.headerHeight distinct known box inside
    rw [columnOf?_rowMiddle room box inside, here]

/-- Lines are in the order of their relationships, at most one for each. -/
theorem edges_increasing (config : Config ℚ) (l : Layout ℚ) (s : Schema) :
    ((l.edges config s).map (·.relationship)).Pairwise (· < ·) := by
  have numbers : (s.relationships.zipIdx.map Prod.snd).Pairwise (· < ·) := by
    rw [List.zipIdx_map_snd]
    exact List.pairwise_lt_range'
  rw [List.pairwise_map, edges, List.pairwise_filterMap]
  refine (List.pairwise_map.1 numbers).imp fun {p q} before e he f hf => ?_
  obtain ⟨_, -, rfl⟩ := Option.map_eq_some_iff.1 he
  obtain ⟨_, -, rfl⟩ := Option.map_eq_some_iff.1 hf
  exact before

theorem mem_edges {config : Config ℚ} {s : Schema} {e : Edge ℚ} :
    e ∈ l.edges config s ↔ ∃ r, s.relationships[e.relationship]? = some r ∧
      l.anchors? config s r = some (e.source, e.target) := by
  rw [edges, List.mem_filterMap]
  constructor
  · rintro ⟨⟨r, i⟩, member, h⟩
    obtain ⟨⟨source, target⟩, found, rfl⟩ := Option.map_eq_some_iff.1 h
    exact ⟨r, List.mem_zipIdx_iff_getElem?.1 member, found⟩
  · rintro ⟨r, member, found⟩
    exact ⟨(r, e.relationship), List.mem_zipIdx_iff_getElem?.2 member, by simp [found]⟩

theorem anchors?_eq_some_iff {s : Schema} {r : Relationship} {source target : Anchor ℚ} :
    l.anchors? config s r = some (source, target) ↔
      ∃ t, s.table? r.source.table = some t ∧ ∃ u, s.table? r.target.table = some u ∧
        ∃ a, l.box? t.name = some a ∧ ∃ b, l.box? u.name = some b ∧
          ⟨a.sideX (r.sides a b).1, a.rowMiddle config (r.source.row t), (r.sides a b).1⟩ = source ∧
          ⟨b.sideX (r.sides a b).2, b.rowMiddle config (r.target.row u), (r.sides a b).2⟩ =
            target := by
  simp [anchors?, Option.bind_eq_some_iff]

/-- Lines are drawn between tables that are known, since these have boxes. -/
theorem Fits.mem_edges_iff {s : Schema} (fits : l.Fits config s.tables) {i : Nat} :
    i ∈ (l.edges config s).map (·.relationship) ↔
      ∃ r, s.relationships[i]? = some r ∧ s.Knows r.source.table ∧ s.Knows r.target.table := by
  constructor
  · intro h
    obtain ⟨e, he, rfl⟩ := List.mem_map.1 h
    obtain ⟨r, numbered, found⟩ := mem_edges.1 he
    obtain ⟨t, ht, u, hu, -⟩ := anchors?_eq_some_iff.1 found
    exact ⟨r, numbered, Schema.exists_table?_iff.1 ⟨t, ht⟩, Schema.exists_table?_iff.1 ⟨u, hu⟩⟩
  · rintro ⟨r, numbered, source, target⟩
    obtain ⟨t, ht⟩ := Schema.exists_table?_iff.2 source
    obtain ⟨u, hu⟩ := Schema.exists_table?_iff.2 target
    obtain ⟨a, ha, -, -⟩ := fits.box t (Schema.known_of_table? ht).1
    obtain ⟨b, hb, -, -⟩ := fits.box u (Schema.known_of_table? hu).1
    have drawn : ∃ source target, l.anchors? config s r = some (source, target) :=
      ⟨_, _, anchors?_eq_some_iff.2 ⟨t, ht, u, hu, a, ha, b, hb, rfl, rfl⟩⟩
    obtain ⟨source, target, found⟩ := drawn
    exact List.mem_map.2 ⟨⟨i, source, target⟩, mem_edges.2 ⟨r, numbered, found⟩, rfl⟩

/-- Edges and hits agree with the layout of a schema. There is a line for each relationship whose
two tables are known, in the order of the relationships. Its ends are at their tables, each on the
tagged side, and the look-up at the end of a line gives the column that the line is about. -/
theorem layout_edges {config : Config ℚ} (room : config.Roomy) (measure : Measurer ℚ) {s : Schema}
    (distinct : (s.tables.map (Text.lower ·.name)).Nodup) :
    let l := s.layout config measure
    ((l.edges config s).map (·.relationship)).Pairwise (· < ·) ∧
      (∀ i, i ∈ (l.edges config s).map (·.relationship) ↔
        ∃ r, s.relationships[i]? = some r ∧ s.Knows r.source.table ∧ s.Knows r.target.table) ∧
      ∀ e ∈ l.edges config s, ∃ r, s.relationships[e.relationship]? = some r ∧
        (∃ t b, Attached config l s.tables r.source e.source t b) ∧
        ∃ t b, Attached config l s.tables r.target e.target t b := by
  intro l
  have names : (s.tables.map (·.name)).Nodup := by
    refine List.Nodup.of_map Text.lower ?_
    rwa [List.map_map]
  have fits : l.Fits config s.tables :=
    fits_ofTables room names measure s.relationships
  refine ⟨edges_increasing config l s, fun i => fits.mem_edges_iff, fun e he => ?_⟩
  obtain ⟨r, numbered, found⟩ := mem_edges.1 he
  obtain ⟨t, ht, u, hu, a, ha, b, hb, source, target⟩ := anchors?_eq_some_iff.1 found
  obtain ⟨knownT, namedT⟩ := Schema.known_of_table? ht
  obtain ⟨knownU, namedU⟩ := Schema.known_of_table? hu
  rw [← source, ← target]
  exact ⟨r, numbered,
    ⟨t, a, fits.attached room names knownT namedT ha _⟩,
    ⟨u, b, fits.attached room names knownU namedU hb _⟩⟩

def bareTarget : Schema where
  tables := [⟨['a'], none, [{ name := ['x'] }], []⟩, ⟨['b'], none, [], []⟩]
  relationships := [⟨[], ⟨['a'], [['X']]⟩, ⟨['b'], [['y']]⟩⟩]

def bareLayout : Layout ℚ := bareTarget.layout .standard fun _ _ => 0

theorem standard_roomy : (Config.standard : Config ℚ).Roomy where
  minGap := by decide
  minWidth := by decide
  gapY := by decide
  headerHeight := by decide
  rowHeight := by decide
  tablePadding := by decide

theorem bareLayout_attached : (Config.standard : Config ℚ).Roomy ∧
    (bareTarget.tables.map (Text.lower ·.name)).Nodup ∧
      ∀ e ∈ bareLayout.edges .standard bareTarget,
        ∃ r, bareTarget.relationships[e.relationship]? = some r ∧
          (∃ t b, Attached .standard bareLayout bareTarget.tables r.source e.source t b) ∧
          ∃ t b, Attached .standard bareLayout bareTarget.tables r.target e.target t b := by
  have distinct : (bareTarget.tables.map (Text.lower ·.name)).Nodup := by decide
  exact ⟨standard_roomy, distinct, (layout_edges standard_roomy _ distinct).2.2⟩

theorem bareLayout_box : bareLayout.box? ['b'] = some ⟨80, 70, 240, 44⟩ := by
  cbv

theorem bareLayout_edges : bareLayout.edges .standard bareTarget =
    [⟨0, ⟨80, 253, .left⟩, ⟨320, 119, .right⟩⟩] := by
  cbv

/-- The line ends below the box that it leads to, which is high enough for its header only. -/
theorem bareLayout_below : (Config.standard : Config ℚ).Roomy ∧
    (bareTarget.tables.map (Text.lower ·.name)).Nodup ∧
      ∃ e ∈ bareLayout.edges .standard bareTarget,
        ∃ r, bareTarget.relationships[e.relationship]? = some r ∧
          ∃ b, bareLayout.box? r.target.table = some b ∧ ¬ b.OnSide e.target := by
  refine ⟨standard_roomy, by decide, _, bareLayout_edges ▸ List.mem_singleton_self _, _, rfl, _,
    bareLayout_box, fun on => ?_⟩
  obtain ⟨-, -, above⟩ := on
  change (119 : ℚ) ≤ 70 + 44 at above
  norm_num at above

end Layout

end SchemaDiagram
