import SchemaDiagram.Proofs.Layout.Dragging
import SchemaDiagram.Proofs.Layout.Edges

/-!
# Two look-ups at a point

The look-up of a table stops at the first box that contains the point; the look-up of a column goes
on behind a box that shows no column there, since its header or the space below its last row lies at
the point. So once boxes were dragged over each other the two can end at different tables, but in no
other way: the column is always in a box that contains the point, and the tables differ only if an
earlier table covers that box with a part that shows no column.
-/

namespace SchemaDiagram.Layout

/-- The box of the table contains the point. -/
def Covers (l : Layout ℚ) (t : Table) (x y : ℚ) : Prop :=
  ∃ b, l.box? t.name = some b ∧ b.Contains x y

/-- At that height the box of the table shows its header or is below its last row. -/
def IsBlank (config : Config ℚ) (l : Layout ℚ) (t : Table) (y : ℚ) : Prop :=
  ∃ b, l.box? t.name = some b ∧ (y < b.y + config.headerHeight ∨
    t.columns.length ≤ Scalar.toIndex ((y - b.y - config.headerHeight) / config.rowHeight))

variable {config : Config ℚ} {l : Layout ℚ} {tables : List Table} {t : Table} {c : Column} {x y : ℚ}

theorem covers_iff : (l.box? t.name).any (fun b => b.Contains x y) ↔ l.Covers t x y := by
  rw [Option.any_eq_true]
  simp only [decide_eq_true_eq, Covers]

theorem covers_of_columnOf? (header : 0 ≤ config.headerHeight)
    (found : l.columnOf? config t x y = some c) : l.Covers t x y := by
  obtain ⟨b, box, row⟩ := Option.bind_eq_some_iff.1 found
  refine ⟨b, box, ?_⟩
  by_contra outside
  rw [if_pos (isOffRows_of_not_contains header outside)] at row
  contradiction

theorem isBlank_of_columnOf? (covers : l.Covers t x y) (none : l.columnOf? config t x y = none) :
    l.IsBlank config t y := by
  obtain ⟨b, box, left, right, -, bottom⟩ := covers
  refine ⟨b, box, ?_⟩
  simp only [columnOf?, box, Option.bind_eq_bind, Option.bind_some] at none
  split at none
  · next off =>
    rcases off with outside | outside | above | outside
    · exact absurd outside (not_lt.2 left)
    · exact absurd outside (not_lt.2 right)
    · exact Or.inl above
    · exact absurd outside (not_lt.2 bottom)
  · exact Or.inr (List.getElem?_eq_none_iff.1 none)

theorem columnAt?_eq_some_iff : l.columnAt? config tables x y = some (t, c) ↔
    ∃ earlier later, tables = earlier ++ t :: later ∧ l.columnOf? config t x y = some c ∧
      ∀ u ∈ earlier, l.columnOf? config u x y = none := by
  rw [columnAt?, List.findSome?_eq_some_iff]
  constructor
  · rintro ⟨earlier, u, later, whole, found, before⟩
    obtain ⟨d, column, same⟩ := Option.map_eq_some_iff.1 found
    obtain ⟨rfl, rfl⟩ := Prod.mk.inj same
    exact ⟨earlier, later, whole, column, fun v hv => Option.map_eq_none_iff.1 (before v hv)⟩
  · rintro ⟨earlier, later, whole, column, before⟩
    exact ⟨earlier, t, later, whole, by rw [column, Option.map_some],
      fun v hv => Option.map_eq_none_iff.2 (before v hv)⟩

/-- Where the box of `t` contains the point, the look-up of a table ends there or earlier. -/
theorem tableAt?_append (earlier later : List Table) (covers : l.Covers t x y) :
    (l.tableAt? (earlier ++ t :: later) x y = some t ∧ ∀ u ∈ earlier, ¬ l.Covers u x y) ∨
      ∃ u ∈ earlier, l.tableAt? (earlier ++ t :: later) x y = some u ∧ l.Covers u x y := by
  let hit (u : Table) : Bool := (l.box? u.name).any fun b => b.Contains x y
  have hits : hit t := covers_iff.2 covers
  have search : l.tableAt? (earlier ++ t :: later) x y = (earlier.find? hit).or (some t) := by
    change (earlier ++ t :: later).find? hit = _
    rw [List.find?_append, List.find?_cons_of_pos hits]
  cases first : earlier.find? hit with
  | none =>
    refine Or.inl ⟨by rw [search, first, Option.none_or], fun u hu coversU => ?_⟩
    exact List.find?_eq_none.1 first u hu (covers_iff.2 coversU)
  | some u =>
    have found : hit u := List.find?_some first
    exact Or.inr ⟨u, List.mem_of_find?_eq_some first, by rw [search, first, Option.some_or],
      covers_iff.1 found⟩

/-- No two boxes that fit have a point in common. -/
theorem Fits.not_covers (fits : l.Fits config tables) {u : Table} (ht : t ∈ tables) (hu : u ∈ tables)
    (ne : u.name ≠ t.name) (covers : l.Covers t x y) : ¬ l.Covers u x y := by
  rintro ⟨a, ha, inside⟩
  obtain ⟨b, hb, inside'⟩ := covers
  exact (fits.clear u hu t ht ne a b ha hb).not_contains inside' inside

/-- In exact arithmetic, and however boxes were dragged, a column is found in a box that contains the
point. The look-up of a table ends at the same table exactly if no earlier table's box contains the
point; else it ends at an earlier table, whose box shows its header there or is below its last row.
Before boxes are dragged the two look-ups always agree, if the settings leave room. -/
theorem ofTables_hitTests (header : 0 ≤ config.headerHeight) (measure : Measurer ℚ)
    (distinct : (tables.map (·.name)).Nodup) (relationships : List Relationship)
    (drags : List Drag) :
    let l := (ofTables config measure tables relationships).dragged drags
    ∀ x y t c, l.columnAt? config tables x y = some (t, c) →
      ∃ earlier later, tables = earlier ++ t :: later ∧ l.Covers t x y ∧
        ((l.tableAt? tables x y = some t ∧ ∀ u ∈ earlier, ¬ l.Covers u x y) ∨
          ∃ u ∈ earlier, u.name ≠ t.name ∧ l.tableAt? tables x y = some u ∧ l.Covers u x y ∧
            l.IsBlank config u y) ∧
        (config.Roomy → drags = [] → l.tableAt? tables x y = some t) := by
  intro l x y t c found
  obtain ⟨earlier, later, whole, column, before⟩ := columnAt?_eq_some_iff.1 found
  have covers : l.Covers t x y := covers_of_columnOf? header column
  have other : ∀ u ∈ earlier, u.name ≠ t.name := by
    intro u hu
    rw [whole, List.map_append, List.nodup_append] at distinct
    exact distinct.2.2 _ (List.mem_map_of_mem hu) _ (by simp)
  have ends := tableAt?_append earlier later covers
  rw [← whole] at ends
  refine ⟨earlier, later, whole, covers, ends.imp_right ?_, fun room none => ?_⟩
  · rintro ⟨u, hu, isFirst, coversU⟩
    exact ⟨u, hu, other u hu, isFirst, coversU, isBlank_of_columnOf? coversU (before u hu)⟩
  · have fits : l.Fits config tables := by
      subst none
      exact fits_ofTables room distinct measure relationships
    rcases ends with ⟨same, -⟩ | ⟨u, hu, -, coversU⟩
    · exact same
    · have memberT : t ∈ tables := by simp [whole]
      have memberU : u ∈ tables := by simp [whole, hu]
      exact (fits.not_covers memberT memberU (other u hu) covers coversU).elim

def twinTables : List Table :=
  [⟨['a'], none, [{ name := ['p'] }], []⟩, ⟨['b'], none, [{ name := ['q'] }], []⟩]

def coveredLayout : Layout ℚ :=
  (ofTables .standard (fun _ _ => 0) twinTables []).dragged [⟨['b'], 80, 40⟩]

theorem coveredLayout_column : coveredLayout.columnAt? .standard twinTables 100 80 =
    some (⟨['b'], none, [{ name := ['q'] }], []⟩, { name := ['q'] }) := by
  cbv

theorem coveredLayout_table : coveredLayout.tableAt? twinTables 100 80 =
    some ⟨['a'], none, [{ name := ['p'] }], []⟩ := by
  cbv

theorem coveredLayout_hitTests :
    0 ≤ (Config.standard : Config ℚ).headerHeight ∧ (twinTables.map (·.name)).Nodup ∧
      ∃ t c, coveredLayout.columnAt? .standard twinTables 100 80 = some (t, c) ∧
        coveredLayout.Covers t 100 80 ∧
        ∃ u, u.name ≠ t.name ∧ coveredLayout.tableAt? twinTables 100 80 = some u ∧
          coveredLayout.IsBlank .standard u 80 := by
  have header : 0 ≤ (Config.standard : Config ℚ).headerHeight := by decide
  have distinct : (twinTables.map (·.name)).Nodup := by decide
  obtain ⟨earlier, later, -, covers, ends, -⟩ :=
    ofTables_hitTests header (fun _ _ => 0) distinct [] [⟨['b'], 80, 40⟩] _ _ _ _ coveredLayout_column
  refine ⟨header, distinct, _, _, coveredLayout_column, covers, ?_⟩
  rcases ends with ⟨same, -⟩ | ⟨u, -, ne, found, -, blank⟩
  · have different := Option.some_inj.1 (coveredLayout_table.symm.trans same)
    simp at different
  · exact ⟨u, ne, found, blank⟩

/-- The row is found, but the table that is found covers it. -/
theorem coveredLayout_disagrees :
    0 ≤ (Config.standard : Config ℚ).headerHeight ∧ (twinTables.map (·.name)).Nodup ∧
      ∃ t c, coveredLayout.columnAt? .standard twinTables 100 80 = some (t, c) ∧
        coveredLayout.tableAt? twinTables 100 80 ≠ some t := by
  refine ⟨by decide, by decide, _, _, coveredLayout_column, ?_⟩
  rw [coveredLayout_table]
  simp

end SchemaDiagram.Layout
