import Mathlib.Data.List.Basic
import SchemaDiagram.Proofs.Letters
import SchemaDiagram.Schema

/-!
# Keys of relationships

The key of a relationship joins its names with `.`, `,` and `->`. Names that hold one of these can
be read in several ways, and each key has exactly one reading in which every cut is taken as early
as it comes. A relationship that is not this reading of its own key shares the key with another.
-/

namespace SchemaDiagram

namespace Text

def arrow : Text := ['-', '>']

theorem contains_arrow_cons (c : Char) (t : Text) :
    contains arrow (c :: t) = (c == '-' && t.head? == some '>' || contains arrow t) := by
  have comm (a b : Char) : (a == b) = (b == a) := Bool.beq_comm
  cases t <;> simp [contains, arrow, List.isPrefixOf, comm c, comm '>']

theorem contains_arrow_of_not_mem {t : Text} (h : '-' ∉ t) : contains arrow t = false := by
  induction t with
  | nil => rfl
  | cons c t ih =>
    rw [List.mem_cons, not_or] at h
    have first : (c == '-') = false := by simpa using Ne.symm h.1
    rw [contains_arrow_cons, first, ih h.2]
    rfl

theorem contains_arrow_append_comma (x y : Text) :
    contains arrow (x ++ ',' :: y) = (contains arrow x || contains arrow y) := by
  induction x with
  | nil => simp [contains, arrow]
  | cons c x ih =>
    rw [List.cons_append, contains_arrow_cons, contains_arrow_cons, ih, Bool.or_assoc]
    cases x <;> simp

theorem contains_arrow_join (parts : List Text) :
    contains arrow (join [','] parts) = parts.any (contains arrow ·) := by
  induction parts with
  | nil => rfl
  | cons part parts ih =>
    cases parts with
    | nil => simp [join]
    | cons next parts =>
      rw [join, List.intercalate_cons_cons, List.append_assoc, List.singleton_append,
        contains_arrow_append_comma, List.any_cons, ← ih, join]

theorem exists_first_point (x y : Text) :
    ∃ a rest, x ++ '.' :: y = a ++ '.' :: rest ∧ '.' ∉ a ∧ y <:+ rest := by
  by_cases early : '.' ∈ x
  · obtain ⟨a, rest, rfl, free⟩ := List.eq_append_cons_of_mem early
    exact ⟨a, rest ++ '.' :: y, by simp, free, rest ++ ['.'], by simp⟩
  · exact ⟨x, y, rfl, early, List.suffix_rfl⟩

theorem point_cut_unique {a a' rest rest' : Text} (free : '.' ∉ a) (free' : '.' ∉ a')
    (eq : a ++ '.' :: rest = a' ++ '.' :: rest') : a = a' ∧ rest = rest' := by
  induction a generalizing a' with
  | nil =>
    cases a' with
    | nil => simpa using eq
    | cons c a' =>
      obtain ⟨rfl, -⟩ : '.' = c ∧ _ := by simpa using eq
      simp at free'
  | cons c a ih =>
    cases a' with
    | nil =>
      obtain ⟨rfl, -⟩ : c = '.' ∧ _ := by simpa using eq
      simp at free
    | cons c' a' =>
      rw [List.cons_append, List.cons_append, List.cons.injEq] at eq
      rw [List.mem_cons, not_or] at free free'
      obtain ⟨rfl, same⟩ := ih free.2 free'.2 eq.2
      exact ⟨by rw [eq.1], same⟩

theorem exists_first_arrow (x y : Text) :
    ∃ b rest, x ++ '-' :: '>' :: y = b ++ '-' :: '>' :: rest ∧ contains arrow b = false ∧
      y <:+ rest := by
  induction x with
  | nil => exact ⟨[], y, rfl, rfl, List.suffix_rfl⟩
  | cons c x ih =>
    by_cases early : c = '-' ∧ x.head? = some '>'
    · obtain ⟨rfl, hx⟩ := early
      obtain ⟨x', rfl⟩ := List.head?_eq_some_iff.1 hx
      exact ⟨[], x' ++ '-' :: '>' :: y, rfl, rfl, x' ++ ['-', '>'], by simp⟩
    · obtain ⟨b, rest, eq, free, suffix⟩ := ih
      refine ⟨c :: b, rest, by simp [eq], ?_, suffix⟩
      rw [contains_arrow_cons, free, Bool.or_false, Bool.and_eq_false_iff]
      by_contra both
      simp only [beq_eq_false_iff_ne, not_or, not_not, ne_eq] at both
      obtain ⟨rfl, hb⟩ := both
      have heads := congrArg List.head? eq
      rw [List.head?_append, List.head?_append, hb] at heads
      cases x with
      | nil => simp at heads
      | cons d x => exact early ⟨rfl, by simpa using heads⟩

theorem arrow_cut_unique {b b' rest rest' : Text} (free : contains arrow b = false)
    (free' : contains arrow b' = false) (eq : b ++ '-' :: '>' :: rest = b' ++ '-' :: '>' :: rest') :
    b = b' ∧ rest = rest' := by
  induction b generalizing b' with
  | nil =>
    cases b' with
    | nil => simpa using eq
    | cons c b' =>
      obtain ⟨rfl, eq⟩ : '-' = c ∧ '>' :: rest = b' ++ '-' :: '>' :: rest' := by simpa using eq
      cases b' with
      | nil => simp at eq
      | cons d b' =>
        obtain ⟨rfl, -⟩ : '>' = d ∧ _ := by simpa using eq
        simp [contains_arrow_cons] at free'
  | cons c b ih =>
    cases b' with
    | nil =>
      obtain ⟨rfl, eq⟩ : c = '-' ∧ b ++ '-' :: '>' :: rest = '>' :: rest' := by simpa using eq
      cases b with
      | nil => simp at eq
      | cons d b =>
        obtain ⟨rfl, -⟩ : d = '>' ∧ _ := by simpa using eq
        simp [contains_arrow_cons] at free
    | cons c' b' =>
      rw [contains_arrow_cons, Bool.or_eq_false_iff] at free free'
      rw [List.cons_append, List.cons_append, List.cons.injEq] at eq
      obtain ⟨rfl, same⟩ := ih free.2 free'.2 eq.2
      exact ⟨by rw [eq.1], same⟩

theorem contains_arrow_lower (t : Text) : contains arrow (lower t) = contains arrow t := by
  induction t with
  | nil => rfl
  | cons c t ih =>
    have dash : (c.toLower == '-') = (c == '-') := by
      rw [Bool.eq_iff_iff, beq_iff_eq, beq_iff_eq, toLower_eq_iff rfl]
    have point : ((lower t).head? == some '>') = (t.head? == some '>') := by
      cases t with
      | nil => rfl
      | cons d t =>
        rw [Bool.eq_iff_iff, beq_iff_eq, beq_iff_eq, lower, List.map_cons, List.head?_cons,
          List.head?_cons, Option.some_inj, Option.some_inj, toLower_eq_iff rfl]
    change contains arrow (c.toLower :: lower t) = contains arrow (c :: t)
    rw [contains_arrow_cons, contains_arrow_cons, ih, dash, point]

theorem lower_join (sep : Text) (parts : List Text) :
    lower (join sep parts) = join (lower sep) (parts.map lower) := by
  induction parts with
  | nil => rfl
  | cons part parts ih =>
    cases parts with
    | nil => simp [join]
    | cons next parts =>
      rw [join, List.intercalate_cons_cons, List.map_cons, List.map_cons, join,
        List.intercalate_cons_cons, ← List.map_cons, ← join, ← join, ← ih]
      simp [lower]

theorem join_comma_unique {xs ys : List Text} (hx : ∀ x ∈ xs, ',' ∉ x) (hy : ∀ y ∈ ys, ',' ∉ y)
    (someX : xs ≠ []) (someY : ys ≠ []) (eq : join [','] xs = join [','] ys) : xs = ys := by
  have splitX := List.splitOn_intercalate ',' hx someX
  have splitY := List.splitOn_intercalate ',' hy someY
  rw [← splitX, ← splitY]
  exact congrArg (List.splitOn ',') eq

theorem comma_not_mem_of_splitOn {t part : Text} (h : part ∈ t.splitOn ',') : ',' ∉ part := by
  induction t generalizing part with
  | nil => simp_all
  | cons c t ih =>
    rw [List.splitOn_cons_eq_if_modifyHead] at h
    split at h
    · rcases List.mem_cons.1 h with rfl | h
      · simp
      · exact ih h
    · next other =>
      obtain ⟨first, others, eq⟩ := List.exists_cons_of_ne_nil (List.splitOn_ne_nil ',' t)
      rw [eq, List.modifyHead_cons, List.mem_cons] at h
      rw [eq] at ih
      rcases h with rfl | h
      · have free : ',' ∉ first := ih List.mem_cons_self
        have ne : ',' ≠ c := fun h => other (by simp [← h])
        simp [free, ne]
      · exact ih (List.mem_cons_of_mem _ h)

theorem splitOn_join {parts : List Text} (some : parts ≠ []) :
    (join [','] parts).splitOn ',' = parts.flatMap (·.splitOn ',') := by
  induction parts with
  | nil => exact absurd rfl some
  | cons part parts ih =>
    cases parts with
    | nil => simp [join]
    | cons next parts =>
      rw [join, List.intercalate_cons_cons, List.append_assoc, List.singleton_append,
        List.splitOn_append_cons_self, List.flatMap_cons, ← ih (List.cons_ne_nil _ _), join]

theorem not_mem_join {d : Char} (hd : d ≠ ',') {parts : List Text} (h : ∀ p ∈ parts, d ∉ p) :
    d ∉ join [','] parts := by
  induction parts with
  | nil => simp [join]
  | cons part parts ih =>
    rw [List.forall_mem_cons] at h
    cases parts with
    | nil => simpa [join] using h.1
    | cons next parts =>
      rw [join, List.intercalate_cons_cons, ← join]
      simp [h.1, hd, ih h.2]

/-- None of the marks of a key is inside. -/
def Unmarked (t : Text) : Prop := ∀ c ∈ t, c ∉ ['.', ',', '-', '>']

instance (t : Text) : Decidable (Unmarked t) :=
  inferInstanceAs (Decidable (∀ c ∈ t, c ∉ ['.', ',', '-', '>']))

theorem Unmarked.lower {t : Text} (h : t.Unmarked) : t.lower.Unmarked := by
  intro c hc mark
  have notLetter : c.isAlpha = false := by
    simp only [List.mem_cons, List.not_mem_nil, or_false] at mark
    rcases mark with rfl | rfl | rfl | rfl <;> rfl
  exact h c ((mem_lower notLetter).1 hc) mark

end Text

/-- Two ends that name the same columns of the same table, up to case. -/
def Endpoint.Same (a b : Endpoint) : Prop :=
  Text.SameName a.table b.table ∧ a.columns.map Text.lower = b.columns.map Text.lower

def Endpoint.lower (e : Endpoint) : Endpoint := ⟨Text.lower e.table, e.columns.map Text.lower⟩

theorem Endpoint.same_iff {a b : Endpoint} : a.Same b ↔ a.lower = b.lower := by
  simp [Same, lower, Text.SameName]

namespace Relationship

def Same (r s : Relationship) : Prop := r.source.Same s.source ∧ r.target.Same s.target

def HasColumns (r : Relationship) : Prop := r.source.columns ≠ [] ∧ r.target.columns ≠ []

/-- No name holds a mark that a key would be cut at before the end of that name. -/
structure Separable (r : Relationship) : Prop where
  sourceTable : '.' ∉ r.source.table
  sourceColumns : ∀ c ∈ r.source.columns, ',' ∉ c ∧ Text.contains Text.arrow c = false
  targetTable : '.' ∉ r.target.table
  targetColumns : ∀ c ∈ r.target.columns, ',' ∉ c

def lower (r : Relationship) : Relationship :=
  { r with source := r.source.lower, target := r.target.lower }

def label (r : Relationship) : Text :=
  r.source.table ++ '.' :: (Text.join [','] r.source.columns ++ '-' :: '>' ::
    (r.target.table ++ '.' :: Text.join [','] r.target.columns))

theorem key_eq_label (r : Relationship) : r.key = r.lower.label := by
  have joined (columns : List Text) :
      (Text.join [','] columns).map Char.toLower = Text.join [','] (columns.map Text.lower) :=
    Text.lower_join [','] columns
  simp [key, label, lower, Endpoint.lower, Text.lower, ← joined]

theorem key_eq_lower_label (r : Relationship) : r.key = Text.lower r.label := by
  simp [key, label]

theorem same_iff {r s : Relationship} :
    r.Same s ↔ r.lower.source = s.lower.source ∧ r.lower.target = s.lower.target := by
  rw [Same, Endpoint.same_iff, Endpoint.same_iff]
  rfl

instance (r s : Relationship) : Decidable (Same r s) := decidable_of_iff _ same_iff.symm

theorem hasColumns_lower {r : Relationship} : r.lower.HasColumns ↔ r.HasColumns := by
  simp [HasColumns, lower, Endpoint.lower]

theorem separable_lower {r : Relationship} : r.lower.Separable ↔ r.Separable := by
  have point {t : Text} : '.' ∈ Text.lower t ↔ '.' ∈ t := Text.mem_lower rfl
  have comma {t : Text} : ',' ∈ Text.lower t ↔ ',' ∈ t := Text.mem_lower rfl
  constructor
  · rintro ⟨sourceTable, sourceColumns, targetTable, targetColumns⟩
    simp only [lower, Endpoint.lower, List.forall_mem_map, point, comma,
      Text.contains_arrow_lower] at *
    exact ⟨sourceTable, sourceColumns, targetTable, targetColumns⟩
  · rintro ⟨sourceTable, sourceColumns, targetTable, targetColumns⟩
    constructor <;> simpa only [lower, Endpoint.lower, List.forall_mem_map, point, comma,
      Text.contains_arrow_lower]

theorem label_unique {r s : Relationship} (hr : r.Separable) (hs : s.Separable)
    (cr : r.HasColumns) (cs : s.HasColumns) (eq : r.label = s.label) :
    r.source = s.source ∧ r.target = s.target := by
  obtain ⟨sourceTable, eq⟩ := Text.point_cut_unique hr.sourceTable hs.sourceTable eq
  have free {e : Endpoint} (h : ∀ c ∈ e.columns, ',' ∉ c ∧ Text.contains Text.arrow c = false) :
      Text.contains Text.arrow (Text.join [','] e.columns) = false := by
    rw [Text.contains_arrow_join, List.any_eq_false]
    intro c hc
    simp [(h c hc).2]
  obtain ⟨sourceColumns, eq⟩ :=
    Text.arrow_cut_unique (free hr.sourceColumns) (free hs.sourceColumns) eq
  obtain ⟨targetTable, targetColumns⟩ :=
    Text.point_cut_unique hr.targetTable hs.targetTable eq
  have sourceColumns := Text.join_comma_unique (fun c hc => (hr.sourceColumns c hc).1)
    (fun c hc => (hs.sourceColumns c hc).1) cr.1 cs.1 sourceColumns
  have targetColumns :=
    Text.join_comma_unique hr.targetColumns hs.targetColumns cr.2 cs.2 targetColumns
  obtain ⟨_, ⟨_, _⟩, ⟨_, _⟩⟩ := r
  obtain ⟨_, ⟨_, _⟩, ⟨_, _⟩⟩ := s
  simp_all

/-- The reading of a key in which every cut is taken as early as it comes. -/
theorem exists_separable (r : Relationship) :
    ∃ s : Relationship, s.HasColumns ∧ s.Separable ∧ s.label = r.label := by
  obtain ⟨a, behindA, eqA, freeA, p, rfl⟩ := Text.exists_first_point r.source.table
    (Text.join [','] r.source.columns ++ '-' :: '>' ::
      (r.target.table ++ '.' :: Text.join [','] r.target.columns))
  obtain ⟨b, behindB, eqB, freeB, q, rfl⟩ := Text.exists_first_arrow
    (p ++ Text.join [','] r.source.columns)
    (r.target.table ++ '.' :: Text.join [','] r.target.columns)
  obtain ⟨c, d, eqC, freeC, -⟩ := Text.exists_first_point (q ++ r.target.table)
    (Text.join [','] r.target.columns)
  refine ⟨⟨r.name, ⟨a, b.splitOn ','⟩, ⟨c, d.splitOn ','⟩⟩,
    ⟨List.splitOn_ne_nil _ _, List.splitOn_ne_nil _ _⟩, ⟨freeA, ?_, freeC, ?_⟩, ?_⟩
  · intro part hpart
    have joined : Text.join [','] (b.splitOn ',') = b := List.intercalate_splitOn ','
    rw [← joined, Text.contains_arrow_join, List.any_eq_false] at freeB
    exact ⟨Text.comma_not_mem_of_splitOn hpart, by simpa using freeB part hpart⟩
  · intro part hpart
    exact Text.comma_not_mem_of_splitOn hpart
  · simp only [List.append_assoc] at eqA eqB eqC
    rw [label, label, eqA, eqB, eqC]
    simp only [Text.join, List.intercalate_splitOn]

variable {r s : Relationship}

theorem key_of_same (h : r.Same s) : r.key = s.key := by
  obtain ⟨source, target⟩ := same_iff.1 h
  rw [key_eq_label, key_eq_label, label, label, source, target]

theorem key_eq_iff (hr : r.Separable) (hs : s.Separable) (cr : r.HasColumns) (cs : s.HasColumns) :
    r.key = s.key ↔ r.Same s := by
  refine ⟨fun eq => same_iff.2 ?_, key_of_same⟩
  rw [key_eq_label, key_eq_label] at eq
  exact label_unique (separable_lower.2 hr) (separable_lower.2 hs) (hasColumns_lower.2 cr)
    (hasColumns_lower.2 cs) eq

theorem Separable.of_same (h : r.Same s) (hr : r.Separable) : s.Separable := by
  obtain ⟨source, target⟩ := same_iff.1 h
  obtain ⟨sourceTable, sourceColumns, targetTable, targetColumns⟩ := separable_lower.2 hr
  rw [source] at sourceTable sourceColumns
  rw [target] at targetTable targetColumns
  exact separable_lower.1 ⟨sourceTable, sourceColumns, targetTable, targetColumns⟩

/-- Any other relationship shares its key with one it does not agree with. -/
theorem exists_collision (h : ¬ r.Separable) :
    ∃ s : Relationship, s.HasColumns ∧ s.Separable ∧ s.key = r.key ∧ ¬ s.Same r := by
  obtain ⟨s, columns, separable, eq⟩ := exists_separable r
  have keys : s.key = r.key := by
    rw [key_eq_lower_label, key_eq_lower_label, eq]
  exact ⟨s, columns, separable, keys, fun same => h (separable.of_same same)⟩

/-- A key tells the table that a relationship starts from, if its name holds no point. -/
theorem sameName_source_of_key_eq (hr : '.' ∉ r.source.table) (hs : '.' ∉ s.source.table)
    (eq : r.key = s.key) : Text.SameName r.source.table s.source.table := by
  have point {t : Text} : '.' ∈ Text.lower t ↔ '.' ∈ t := Text.mem_lower rfl
  rw [key_eq_label, key_eq_label] at eq
  exact (Text.point_cut_unique (mt point.1 hr) (mt point.1 hs) eq).1

/-- No name of the relationship holds a mark of a key. -/
structure Unmarked (r : Relationship) : Prop where
  sourceTable : r.source.table.Unmarked
  sourceColumns : ∀ c ∈ r.source.columns, c.Unmarked
  targetTable : r.target.table.Unmarked
  targetColumns : ∀ c ∈ r.target.columns, c.Unmarked

theorem Unmarked.lower (h : r.Unmarked) : r.lower.Unmarked where
  sourceTable := h.sourceTable.lower
  sourceColumns := List.forall_mem_map.2 fun c hc => (h.sourceColumns c hc).lower
  targetTable := h.targetTable.lower
  targetColumns := List.forall_mem_map.2 fun c hc => (h.targetColumns c hc).lower

theorem Unmarked.not_mem {d : Char} (hd : d ∈ ['.', '-']) (h : r.Unmarked) :
    d ∉ r.source.table ∧ d ∉ Text.join [','] r.source.columns ∧ d ∉ r.target.table ∧
      d ∉ Text.join [','] r.target.columns := by
  have mark : d ∈ ['.', ',', '-', '>'] := by
    simp only [List.mem_cons, List.not_mem_nil, or_false] at hd ⊢
    tauto
  have noComma : d ≠ ',' := by
    rintro rfl
    simp at hd
  have free {columns : List Text} (h : ∀ c ∈ columns, c.Unmarked) :
      d ∉ Text.join [','] columns :=
    Text.not_mem_join noComma fun c hc mem => h c hc d mem mark
  exact ⟨fun mem => h.sourceTable d mem mark, free h.sourceColumns,
    fun mem => h.targetTable d mem mark, free h.targetColumns⟩

/-- As many points and dashes as a key must have leave none for the names of the other one. -/
theorem not_mem_of_label_eq (h : r.Unmarked) (eq : s.label = r.label) :
    '.' ∉ s.source.table ∧ '-' ∉ Text.join [','] s.source.columns ∧ '.' ∉ s.target.table := by
  have points := congrArg (List.count '.') eq
  have dashes := congrArg (List.count '-') eq
  have noPoint := h.not_mem (d := '.') (by simp)
  have noDash := h.not_mem (d := '-') (by simp)
  simp only [← List.count_eq_zero] at noPoint noDash ⊢
  simp [label, noPoint] at points
  simp [label, noDash] at dashes
  omega

theorem names_of_label_eq (h : r.Unmarked) (cr : r.HasColumns) (cs : s.HasColumns)
    (eq : s.label = r.label) :
    s.source.table = r.source.table ∧
      s.source.columns.flatMap (·.splitOn ',') = r.source.columns ∧
      s.target.table = r.target.table ∧
      s.target.columns.flatMap (·.splitOn ',') = r.target.columns := by
  obtain ⟨source, columns, target⟩ := not_mem_of_label_eq h eq
  have comma {n : Text} (h : n.Unmarked) : ',' ∉ n := fun mem => h ',' mem (by simp)
  have noPoint := h.not_mem (d := '.') (by simp)
  have noDash := h.not_mem (d := '-') (by simp)
  obtain ⟨sourceTable, eq⟩ := Text.point_cut_unique source noPoint.1 eq
  obtain ⟨sourceColumns, eq⟩ := Text.arrow_cut_unique (Text.contains_arrow_of_not_mem columns)
    (Text.contains_arrow_of_not_mem noDash.2.1) eq
  obtain ⟨targetTable, targetColumns⟩ := Text.point_cut_unique target noPoint.2.2.1 eq
  refine ⟨sourceTable, ?_, targetTable, ?_⟩
  · rw [← Text.splitOn_join cs.1, sourceColumns]
    exact List.splitOn_intercalate ',' (fun c hc => comma (h.sourceColumns c hc)) cr.1
  · rw [← Text.splitOn_join cs.2, targetColumns]
    exact List.splitOn_intercalate ',' (fun c hc => comma (h.targetColumns c hc)) cr.2

/-- Whatever has the key of a relationship without marks in its names agrees with it on the tables,
on each column that it starts from and on the first column that it leads to, as far as these columns
hold no comma. -/
theorem agrees_of_key_eq (h : r.Unmarked) (cr : r.HasColumns) (cs : s.HasColumns)
    (eq : s.key = r.key) :
    Text.SameName s.source.table r.source.table ∧
      (∀ c, Text.isAmong c s.source.columns → ',' ∉ c → Text.isAmong c r.source.columns) ∧
      Text.SameName s.target.table r.target.table ∧
      ∀ c ∈ s.target.columns.head?, ',' ∉ c → ∃ d ∈ r.target.columns.head?, Text.SameName d c := by
  rw [key_eq_label, key_eq_label] at eq
  obtain ⟨sourceTable, sourceColumns, targetTable, targetColumns⟩ :=
    names_of_label_eq h.lower (hasColumns_lower.2 cr) (hasColumns_lower.2 cs) eq
  have whole {c : Text} (hc : ',' ∉ c) : (Text.lower c).splitOn ',' = [Text.lower c] :=
    List.splitOn_eq_singleton fun mem => hc ((Text.mem_lower rfl).1 mem)
  refine ⟨sourceTable, fun c hc noComma => ?_, targetTable, fun c hc noComma => ?_⟩
  · obtain ⟨n, hn, spelled⟩ := List.any_eq_true.1 hc
    have mem : Text.lower c ∈ r.lower.source.columns := by
      rw [← sourceColumns, List.mem_flatMap]
      have named : Text.lower c = Text.lower n := of_decide_eq_true spelled
      exact ⟨Text.lower c, named ▸ List.mem_map_of_mem hn, by simp [whole noComma]⟩
    obtain ⟨d, hd, same⟩ := List.mem_map.1 mem
    exact List.any_eq_true.2 ⟨d, hd, decide_eq_true same.symm⟩
  · obtain ⟨others, columns⟩ := List.head?_eq_some_iff.1 hc
    have lowered : s.lower.target.columns = Text.lower c :: others.map Text.lower := by
      simp [lower, Endpoint.lower, columns]
    rw [lowered, List.flatMap_cons, whole noComma] at targetColumns
    have first := congrArg List.head? targetColumns
    obtain ⟨d, hd, same⟩ := Option.map_eq_some_iff.1
      ((List.head?_map (f := Text.lower) (l := r.target.columns)).symm.trans first.symm)
    exact ⟨d, hd, same⟩

end Relationship

end SchemaDiagram
