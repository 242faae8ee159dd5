import Mathlib.Data.Finset.Max
import Mathlib.Data.Fintype.Pigeonhole
import Mathlib.Data.List.Sort
import Mathlib.Logic.Relation
import Mathlib.Order.Bounds.Basic
import SchemaDiagram.Layout.Layers

/-!
# Layering

What the layers of a graph are, cyclic or not. A chain of parents that never meets a start table
keeps all its tables out of the layers that are reached, and nothing else does.
-/

namespace SchemaDiagram.Graph

variable {n : Nat}

/-- Tables without parents or, where there are none, the first table with the most children. -/
def IsStart (g : Graph n) (t : Fin n) : Prop :=
  g.parents t = [] ∨ (∀ u, g.parents u ≠ []) ∧
    (∀ u, g.childCount u ≤ g.childCount t) ∧ ∀ u < t, g.childCount u < g.childCount t

/-- An infinite chain of parents leads from `t` past no start table. -/
def Endless (g : Graph n) (t : Fin n) : Prop :=
  ∃ chain : Nat → Fin n, chain 0 = t ∧
    ∀ k, chain (k + 1) ∈ g.parents (chain k) ∧ ¬ g.IsStart (chain k)

inductive ParentPath (g : Graph n) : Nat → Fin n → Fin n → Prop where
  | nil (t) : ParentPath g 0 t t
  | cons {k t p u} : p ∈ g.parents t → ParentPath g k p u → ParentPath g (k + 1) t u

def Acyclic (g : Graph n) : Prop := ∀ k t, ¬ g.ParentPath (k + 1) t t

def layerIndex (layers : List (List (Fin n))) (t : Fin n) : Nat := layers.findIdx (·.contains t)

structure IsLayering (g : Graph n) (layers : List (List (Fin n))) : Prop where
  nonempty : ∀ layer ∈ layers, layer ≠ []
  /-- Every table stands in exactly one place. -/
  partition : layers.flatten.Perm (List.finRange n)
  first : ∀ t, t ∈ layers.headD [] ↔ g.IsStart t
  orphans : (∃ t, g.Endless t) → ∀ t, t ∈ layers.getLastD [] ↔ g.Endless t
  earlier : ∀ t, ¬ g.IsStart t → ¬ g.Endless t →
    ∀ p ∈ g.parents t, layerIndex layers p < layerIndex layers t
  depth : ∀ t, ¬ g.IsStart t → ¬ g.Endless t →
    ∃ m, ((g.parents t).map (layerIndex layers)).max? = some m ∧ layerIndex layers t = m + 1

variable {g : Graph n}

theorem mem_parents {t p : Fin n} : p ∈ g.parents t ↔ (t, p) ∈ g.edges := by
  simp [parents]

theorem mem_children {t c : Fin n} : c ∈ g.children t ↔ t ∈ g.parents c := by
  simp [children, mem_parents]

theorem mem_byChildCount {layer : List (Fin n)} {t : Fin n} :
    t ∈ g.byChildCount layer ↔ t ∈ layer := by
  simp [byChildCount]

theorem mem_unplaced {done : List (Fin n)} {t : Fin n} : t ∈ unplaced done ↔ t ∉ done := by
  simp [unplaced]

theorem mem_following {done layer : List (Fin n)} {t : Fin n} :
    t ∈ g.following done layer ↔
      (∃ p ∈ layer, p ∈ g.parents t) ∧ t ∉ done ∧ ∀ p ∈ g.parents t, p ∈ done := by
  simp [following, isReady, mem_children]

theorem eraseDups_nodup {β : Type} [BEq β] [LawfulBEq β] (l : List β) : l.eraseDups.Nodup := by
  match l with
  | [] => simp
  | a :: l =>
    have shorter : (l.filter fun b => !b == a).length < l.length + 1 :=
      Nat.lt_succ_of_le (List.length_filter_le _ _)
    rw [List.eraseDups_cons, List.nodup_cons]
    exact ⟨by simp, eraseDups_nodup _⟩
termination_by l.length

theorem layerIndex_cons (layer : List (Fin n)) (rest : List (List (Fin n))) (t : Fin n) :
    layerIndex (layer :: rest) t = if t ∈ layer then 0 else layerIndex rest t + 1 := by
  by_cases h : t ∈ layer <;> simp [layerIndex, List.findIdx_cons, h]

theorem layerIndex_eq_zero_iff {layers : List (List (Fin n))} {t : Fin n}
    (h : t ∈ layers.flatten) : layerIndex layers t = 0 ↔ t ∈ layers.headD [] := by
  cases layers with
  | nil => simp at h
  | cons layer rest => simp [layerIndex_cons]

theorem mem_take_flatten {layers : List (List (Fin n))} {k : Nat} {t : Fin n} :
    t ∈ (layers.take k).flatten ↔ t ∈ layers.flatten ∧ layerIndex layers t < k := by
  induction layers generalizing k with
  | nil => simp
  | cons layer rest ih =>
    cases k with
    | zero => simp
    | succ k =>
      rw [List.take_succ_cons, List.flatten_cons, List.mem_append, ih, layerIndex_cons]
      by_cases h : t ∈ layer <;> simp [h]

theorem mem_layer_iff {layers : List (List (Fin n))} (apart : layers.flatten.Nodup) {i : Nat}
    {t : Fin n} : t ∈ layers.getD i [] ↔ t ∈ layers.flatten ∧ layerIndex layers t = i := by
  induction layers generalizing i with
  | nil => simp
  | cons layer rest ih =>
    rw [List.flatten_cons, List.nodup_append] at apart
    obtain ⟨-, restApart, disjoint⟩ := apart
    rw [layerIndex_cons]
    cases i with
    | zero =>
      by_cases h : t ∈ layer <;> simp [h]
    | succ i =>
      rw [List.getD_cons_succ, ih restApart, List.flatten_cons, List.mem_append]
      by_cases h : t ∈ layer
      · have later : t ∉ rest.flatten := fun k => disjoint t h t k rfl
        simp [h, later]
      · simp [h]

theorem mem_layersFrom_zero {done current : List (Fin n)} (fresh : ∀ t ∈ current, t ∉ done)
    {t : Fin n} : t ∈ (g.layersFrom done current fresh).getD 0 [] ↔ t ∈ current := by
  cases current with
  | nil => simp [layersFrom]
  | cons u others => rw [layersFrom, List.getD_cons_zero, mem_byChildCount]

/-- A layer holds all that can follow the layers before it; behind the last one nothing can. -/
theorem mem_layersFrom_succ {done current : List (Fin n)} (fresh : ∀ t ∈ current, t ∉ done)
    {i : Nat} {t : Fin n} :
    t ∈ (g.layersFrom done current fresh).getD (i + 1) [] ↔
      t ∈ g.following (done ++ ((g.layersFrom done current fresh).take (i + 1)).flatten)
        ((g.layersFrom done current fresh).getD i []) := by
  induction i generalizing done current with
  | zero =>
    cases current with
    | nil => simp [layersFrom, mem_following]
    | cons u others =>
      rw [layersFrom, List.getD_cons_succ, mem_layersFrom_zero]
      simp [mem_following, or_comm]
  | succ i ih =>
    cases current with
    | nil => simp [layersFrom, mem_following]
    | cons u others =>
      rw [layersFrom, List.getD_cons_succ, ih, List.getD_cons_succ, List.take_succ_cons]
      simp only [mem_following, List.mem_append, List.flatten_cons, or_assoc, or_left_comm]

theorem layersFrom_ne_nil {done current : List (Fin n)} (fresh : ∀ t ∈ current, t ∉ done) :
    ∀ layer ∈ g.layersFrom done current fresh, layer ≠ [] := by
  fun_induction layersFrom g done current fresh with
  | case1 => simp
  | case2 done u others _ layer done' fresh ih =>
    intro l hl
    rcases List.mem_cons.1 hl with rfl | hl
    · exact List.ne_nil_of_mem (mem_byChildCount.2 List.mem_cons_self)
    · exact ih l hl

theorem layersFrom_apart {done current : List (Fin n)} (fresh : ∀ t ∈ current, t ∉ done)
    (nodup : current.Nodup) : (g.layersFrom done current fresh).flatten.Nodup ∧
      ∀ t ∈ (g.layersFrom done current fresh).flatten, t ∉ done := by
  fun_induction layersFrom g done current fresh with
  | case1 => simp
  | case2 done u others _ layer done' fresh ih =>
    obtain ⟨restNodup, restFresh⟩ := ih (eraseDups_nodup _)
    have layerNodup : layer.Nodup := (List.mergeSort_perm _ _).nodup_iff.2 nodup
    constructor
    · rw [List.flatten_cons, List.nodup_append]
      refine ⟨layerNodup, restNodup, fun a ha b hb => ?_⟩
      rintro rfl
      exact restFresh a hb (List.mem_append_left _ ha)
    · intro t ht
      rcases List.mem_append.1 ht with ht | ht
      · exact fresh t (mem_byChildCount.1 ht)
      · exact fun h => restFresh t ht (List.mem_append_right _ h)

theorem foldl_first_greatest (f : Fin n → Nat) (l : List (Fin n)) (a : Fin n)
    (ascending : (a :: l).Pairwise (· < ·)) :
    let best := l.foldl (fun best t => if f best < f t then t else best) a
    best ∈ a :: l ∧ (∀ u ∈ a :: l, f u ≤ f best) ∧ ∀ u ∈ a :: l, u < best → f u < f best := by
  induction l generalizing a with
  | nil => simp
  | cons b l ih =>
    obtain ⟨below, rest⟩ := List.pairwise_cons.1 ascending
    simp only [List.foldl_cons]
    by_cases h : f a < f b
    · obtain ⟨mem, greatest, first⟩ := ih b rest
      have hb := greatest b List.mem_cons_self
      simp only [h, if_true]
      refine ⟨List.mem_cons_of_mem a mem, fun u hu => ?_, fun u hu lt => ?_⟩
      · rcases List.mem_cons.1 hu with rfl | hu
        · omega
        · exact greatest u hu
      · rcases List.mem_cons.1 hu with rfl | hu
        · omega
        · exact first u hu lt
    · -- `b` is no better than `a`, which stands in front of it
      have skip : (a :: l).Pairwise (· < ·) :=
        ascending.sublist (.cons_cons a (List.sublist_cons_self b l))
      obtain ⟨mem, greatest, first⟩ := ih a skip
      have ha := greatest a List.mem_cons_self
      simp only [h, if_false]
      refine ⟨?_, fun u hu => ?_, fun u hu lt => ?_⟩
      · rcases List.mem_cons.1 mem with eq | mem
        · rw [eq]; exact List.mem_cons_self
        · exact List.mem_cons_of_mem a (List.mem_cons_of_mem b mem)
      · rcases List.mem_cons.1 hu with rfl | hu
        · exact ha
        rcases List.mem_cons.1 hu with rfl | hu
        · omega
        · exact greatest u (List.mem_cons_of_mem a hu)
      · rcases List.mem_cons.1 hu with rfl | hu
        · exact first u List.mem_cons_self lt
        rcases List.mem_cons.1 hu with rfl | hu
        · have after : a < u := below u List.mem_cons_self
          have := first a List.mem_cons_self (after.trans lt)
          omega
        · exact first u (List.mem_cons_of_mem a hu) lt

theorem first_greatest_unique {t u : Fin n}
    (ht : (∀ v, g.childCount v ≤ g.childCount t) ∧ ∀ v < t, g.childCount v < g.childCount t)
    (hu : (∀ v, g.childCount v ≤ g.childCount u) ∧ ∀ v < u, g.childCount v < g.childCount u) :
    t = u := by
  rcases lt_trichotomy t u with lt | eq | lt
  · have := hu.2 t lt; have := ht.1 u; omega
  · exact eq
  · have := ht.2 u lt; have := hu.1 t; omega

theorem mem_roots {t : Fin n} : t ∈ g.roots ↔ g.parents t = [] := by
  simp [roots]

theorem mem_seed {t : Fin n} : t ∈ g.seed ↔
    (∀ u, g.childCount u ≤ g.childCount t) ∧ ∀ u < t, g.childCount u < g.childCount t := by
  have all : ∀ u : Fin n, u ∈ List.finRange n := List.mem_finRange
  have ascending : (List.finRange n).Pairwise (· < ·) := List.pairwise_lt_finRange n
  unfold seed
  split
  · next h => rw [h] at all; exact absurd (all t) List.not_mem_nil
  · next a l h =>
    rw [h] at all ascending
    obtain ⟨-, greatest, first⟩ := foldl_first_greatest g.childCount l a ascending
    have seeded := And.intro (fun u => greatest u (all u)) (fun u => first u (all u))
    rw [List.mem_singleton]
    constructor
    · rintro rfl; exact seeded
    · intro ht; exact first_greatest_unique ht seeded

theorem mem_startTables {t : Fin n} : t ∈ g.startTables ↔ g.IsStart t := by
  have none : g.roots = [] ↔ ∀ u, g.parents u ≠ [] := by
    rw [List.eq_nil_iff_forall_not_mem]
    simp only [mem_roots, ne_eq]
  unfold startTables IsStart
  by_cases h : g.roots = []
  · rw [h, List.isEmpty_nil, if_pos rfl, mem_seed]
    have := none.1 h
    simp [this]
  · rw [if_neg (by simpa using h), mem_roots, ← none]
    simp [h]

theorem startTables_nodup : g.startTables.Nodup := by
  unfold startTables
  split
  · unfold seed; split <;> simp
  · exact (List.nodup_finRange n).filter _

theorem reachedLayers_nodup : g.reachedLayers.flatten.Nodup :=
  (layersFrom_apart _ startTables_nodup).1

theorem mem_reached_of_start {t : Fin n} (h : g.IsStart t) :
    t ∈ g.reachedLayers.flatten ∧ layerIndex g.reachedLayers t = 0 :=
  (mem_layer_iff reachedLayers_nodup).1 ((mem_layersFrom_zero _).2 (mem_startTables.2 h))

theorem start_of_layerIndex_zero {t : Fin n} (h : t ∈ g.reachedLayers.flatten)
    (first : layerIndex g.reachedLayers t = 0) : g.IsStart t :=
  mem_startTables.1 ((mem_layersFrom_zero _).1 ((mem_layer_iff reachedLayers_nodup).2 ⟨h, first⟩))

/-- A table is reached behind layer `i` if its parents stand up to there and one of them there. -/
theorem mem_reached_succ {i : Nat} {t : Fin n} :
    t ∈ g.reachedLayers.flatten ∧ layerIndex g.reachedLayers t = i + 1 ↔
      (∃ p ∈ g.parents t, p ∈ g.reachedLayers.flatten ∧ layerIndex g.reachedLayers p = i) ∧
      ¬ (t ∈ g.reachedLayers.flatten ∧ layerIndex g.reachedLayers t < i + 1) ∧
      ∀ p ∈ g.parents t, p ∈ g.reachedLayers.flatten ∧ layerIndex g.reachedLayers p < i + 1 := by
  rw [← mem_layer_iff reachedLayers_nodup]
  refine (mem_layersFrom_succ _).trans ?_
  simp only [mem_following, List.nil_append]
  exact and_congr (exists_congr fun p => (and_congr_left fun _ =>
    mem_layer_iff reachedLayers_nodup).trans and_comm)
    (and_congr (not_congr mem_take_flatten) (forall₂_congr fun p _ => mem_take_flatten))

/-- The parents of a reached table stand above it, and one of them in the very next layer. -/
theorem reached_below_parents {t : Fin n} (h : t ∈ g.reachedLayers.flatten)
    (inner : ¬ g.IsStart t) :
    (∀ p ∈ g.parents t, p ∈ g.reachedLayers.flatten ∧
      layerIndex g.reachedLayers p < layerIndex g.reachedLayers t) ∧
    ∃ p ∈ g.parents t, layerIndex g.reachedLayers t = layerIndex g.reachedLayers p + 1 := by
  obtain ⟨i, hi⟩ : ∃ i, layerIndex g.reachedLayers t = i + 1 :=
    Nat.exists_eq_succ_of_ne_zero fun zero => inner (start_of_layerIndex_zero h zero)
  obtain ⟨⟨p, hp, -, eq⟩, -, above⟩ := mem_reached_succ.1 ⟨h, hi⟩
  exact ⟨fun q hq => hi ▸ above q hq, p, hp, by rw [hi, eq]⟩

/-- No table is missed: once the last of its parents is placed, a table is ready. -/
theorem reached_of_parents {t : Fin n} (some : g.parents t ≠ [])
    (all : ∀ p ∈ g.parents t, p ∈ g.reachedLayers.flatten) : t ∈ g.reachedLayers.flatten := by
  obtain ⟨first, hfirst⟩ := List.exists_mem_of_ne_nil _ some
  obtain ⟨last, hlast, latest⟩ := (g.parents t).toFinset.exists_max_image
    (layerIndex g.reachedLayers) ⟨first, List.mem_toFinset.2 hfirst⟩
  simp only [List.mem_toFinset] at hlast latest
  -- the layer behind the last parent's one takes the table in
  by_contra missed
  have placed := mem_reached_succ.2 ⟨⟨last, hlast, all last hlast, rfl⟩, fun h => missed h.1,
    fun p hp => ⟨all p hp, Nat.lt_succ_of_le (latest p hp)⟩⟩
  exact missed placed.1

/-- Along an infinite chain of parents the layers would have to descend forever. -/
theorem endless_not_reached {t : Fin n} (h : g.Endless t) : t ∉ g.reachedLayers.flatten := by
  obtain ⟨chain, rfl, steps⟩ := h
  intro reached
  -- each step along the chain goes up by one layer at least
  have descent : ∀ k, chain k ∈ g.reachedLayers.flatten ∧
      layerIndex g.reachedLayers (chain k) + k ≤ layerIndex g.reachedLayers (chain 0) := by
    intro k
    induction k with
    | zero => exact ⟨reached, Nat.le_refl _⟩
    | succ k ih =>
      have below := (reached_below_parents ih.1 (steps k).2).1 _ (steps k).1
      exact ⟨below.1, by omega⟩
  have := (descent (layerIndex g.reachedLayers (chain 0) + 1)).2
  omega

/-- A relation that offers a next member to each member of a set leads to an infinite chain. -/
theorem exists_chain {P : Fin n → Prop} {t : Fin n} (start : P t)
    (next : ∀ u, P u → ∃ p ∈ g.parents u, P p) :
    ∃ chain : Nat → Fin n, chain 0 = t ∧
      ∀ k, chain (k + 1) ∈ g.parents (chain k) ∧ P (chain k) := by
  choose! f hf using next
  have stays : ∀ k, P (f^[k] t) := by
    intro k
    induction k with
    | zero => exact start
    | succ k ih => rw [Function.iterate_succ_apply']; exact (hf _ ih).2
  refine ⟨fun k => f^[k] t, rfl, fun k => ⟨?_, stays k⟩⟩
  simp only [Function.iterate_succ_apply']
  exact (hf _ (stays k)).1

theorem not_reached_iff_endless {t : Fin n} :
    t ∉ g.reachedLayers.flatten ↔ g.Endless t := by
  refine ⟨fun missed => ?_, endless_not_reached⟩
  -- of a table that is missed, some parent is missed as well
  have next : ∀ u, u ∉ g.reachedLayers.flatten →
      ∃ p ∈ g.parents u, p ∉ g.reachedLayers.flatten := by
    intro u hu
    by_contra! all
    exact hu (reached_of_parents (fun root => hu (mem_reached_of_start (.inl root)).1) all)
  obtain ⟨chain, start, steps⟩ := exists_chain missed next
  exact ⟨chain, start, fun k => ⟨(steps k).1, fun h => (steps k).2 (mem_reached_of_start h).1⟩⟩

theorem reached_of_not_endless {t : Fin n} (h : ¬ g.Endless t) : t ∈ g.reachedLayers.flatten :=
  not_not.1 fun missed => h (not_reached_iff_endless.1 missed)

theorem layers_eq : g.layers =
    if unplaced g.reachedLayers.flatten = [] then g.reachedLayers
    else g.reachedLayers ++ [unplaced g.reachedLayers.flatten] := by
  simp only [layers, List.isEmpty_iff]

theorem layers_partition : g.layers.flatten.Perm (List.finRange n) := by
  rw [List.perm_ext_iff_of_nodup _ (List.nodup_finRange n)]
  · intro t
    rw [layers_eq]
    split
    · next none =>
      have : t ∉ unplaced g.reachedLayers.flatten := by simp [none]
      simpa [mem_unplaced] using this
    · rw [List.flatten_append, List.flatten_singleton, List.mem_append, mem_unplaced]
      exact iff_of_true (em _) (List.mem_finRange t)
  · rw [layers_eq]
    split
    · exact reachedLayers_nodup
    · rw [List.flatten_append, List.flatten_singleton, List.nodup_append]
      refine ⟨reachedLayers_nodup, (List.nodup_finRange n).filter _, fun a ha b hb => ?_⟩
      rintro rfl
      exact mem_unplaced.1 hb ha

theorem layerIndex_layers {t : Fin n} (h : t ∈ g.reachedLayers.flatten) :
    layerIndex g.layers t = layerIndex g.reachedLayers t := by
  rw [layers_eq]
  split
  · rfl
  · obtain ⟨layer, hl, ht⟩ := List.mem_flatten.1 h
    have found : g.reachedLayers.findIdx (·.contains t) < g.reachedLayers.length :=
      List.findIdx_lt_length.2 ⟨layer, hl, by simpa using ht⟩
    rw [layerIndex, List.findIdx_append, if_pos found, layerIndex]

theorem layerIndex_layers_of_endless {t : Fin n} (h : g.Endless t) :
    layerIndex g.layers t = g.reachedLayers.length := by
  have missed := endless_not_reached h
  have some : unplaced g.reachedLayers.flatten ≠ [] :=
    List.ne_nil_of_mem (mem_unplaced.2 missed)
  have skip : ∀ layer ∈ g.reachedLayers, t ∉ layer :=
    fun layer hl ht => missed (List.mem_flatten.2 ⟨layer, hl, ht⟩)
  have none : g.reachedLayers.findIdx (·.contains t) = g.reachedLayers.length :=
    List.findIdx_eq_length.2 (by simpa using skip)
  rw [layers_eq, if_neg some, layerIndex, List.findIdx_append, if_neg (by omega)]
  simp [List.findIdx_cons, mem_unplaced, missed]

theorem exists_start (t : Fin n) : ∃ s, g.IsStart s := by
  by_cases h : ∃ s, g.parents s = []
  · exact h.imp fun s root => .inl root
  · push Not at h
    obtain ⟨first, l, eq⟩ := List.exists_cons_of_ne_nil (List.ne_nil_of_mem (List.mem_finRange t))
    have : ∃ s, s ∈ g.seed := by simp [seed, eq]
    obtain ⟨s, hs⟩ := this
    exact ⟨s, .inr ⟨h, mem_seed.1 hs⟩⟩

theorem layers_isLayering : g.IsLayering g.layers where
  nonempty := by
    have reached : ∀ layer ∈ g.reachedLayers, layer ≠ [] := layersFrom_ne_nil (by simp)
    rw [layers_eq]
    split
    · exact reached
    · next some =>
      intro layer hl
      rcases List.mem_append.1 hl with hl | hl
      · exact reached layer hl
      · rwa [List.mem_singleton.1 hl]
  partition := layers_partition
  first t := by
    rw [← layerIndex_eq_zero_iff (layers_partition.mem_iff.2 (List.mem_finRange t))]
    by_cases h : t ∈ g.reachedLayers.flatten
    · rw [layerIndex_layers h]
      exact ⟨start_of_layerIndex_zero h, fun s => (mem_reached_of_start s).2⟩
    · rw [layerIndex_layers_of_endless (not_reached_iff_endless.1 h)]
      -- some table is a start, so there is a layer before the orphans' one
      obtain ⟨s, hs⟩ := exists_start (g := g) t
      have some : g.reachedLayers ≠ [] := by
        intro none
        have := (mem_reached_of_start hs).1
        simp [none] at this
      have long := List.length_pos_iff.2 some
      exact ⟨fun zero => by omega, fun k => absurd (mem_reached_of_start k).1 h⟩
  orphans := by
    rintro ⟨u, hu⟩ t
    have some : unplaced g.reachedLayers.flatten ≠ [] :=
      List.ne_nil_of_mem (mem_unplaced.2 (endless_not_reached hu))
    rw [layers_eq, if_neg some, List.getLastD_concat, mem_unplaced, not_reached_iff_endless]
  earlier t inner ends p hp := by
    have reached := reached_of_not_endless ends
    obtain ⟨hr, lt⟩ := (reached_below_parents reached inner).1 p hp
    rwa [layerIndex_layers hr, layerIndex_layers reached]
  depth t inner ends := by
    have reached := reached_of_not_endless ends
    obtain ⟨above, p, hp, next⟩ := reached_below_parents reached inner
    rw [layerIndex_layers reached]
    refine ⟨layerIndex g.layers p, List.max?_eq_some_iff.2 ⟨List.mem_map_of_mem hp, ?_⟩, ?_⟩
    · intro i hi
      obtain ⟨q, hq, rfl⟩ := List.mem_map.1 hi
      rw [layerIndex_layers (above q hq).1, layerIndex_layers (above p hp).1]
      have := (above q hq).2
      omega
    · rw [layerIndex_layers (above p hp).1, next]

theorem orderFrom_perm (above : List (Fin n)) (layers : List (List (Fin n))) :
    List.Forall₂ List.Perm (g.orderFrom above layers) layers := by
  induction layers generalizing above with
  | nil => exact .nil
  | cons layer below ih => exact .cons (List.mergeSort_perm _ _) (ih _)

theorem orderLayers_perm (layers : List (List (Fin n))) :
    List.Forall₂ List.Perm (g.orderLayers layers) layers := by
  cases layers with
  | nil => exact .nil
  | cons first below => exact .cons (.refl _) (orderFrom_perm _ _)

theorem layerIndex_congr {ls ks : List (List (Fin n))} (h : List.Forall₂ List.Perm ls ks)
    (t : Fin n) : layerIndex ls t = layerIndex ks t := by
  induction h with
  | nil => rfl
  | cons perm _ ih => simp only [layerIndex_cons, perm.mem_iff, ih]

theorem getLastD_perm {ls ks : List (List (Fin n))} (h : List.Forall₂ List.Perm ls ks)
    {a b : List (Fin n)} (default : a.Perm b) : (ls.getLastD a).Perm (ks.getLastD b) := by
  induction h generalizing a b with
  | nil => exact default
  | cons perm _ ih => rw [List.getLastD_cons, List.getLastD_cons]; exact ih perm

theorem flatten_perm {ls ks : List (List (Fin n))} (h : List.Forall₂ List.Perm ls ks) :
    ls.flatten.Perm ks.flatten := by
  induction h with
  | nil => exact .refl _
  | cons perm _ ih => exact perm.append ih

theorem IsLayering.layerIndex_start {layers : List (List (Fin n))} (layering : g.IsLayering layers)
    (t : Fin n) : layerIndex layers t = 0 ↔ g.IsStart t :=
  (layerIndex_eq_zero_iff (layering.partition.mem_iff.2 (List.mem_finRange t))).trans
    (layering.first t)

theorem IsLayering.permute {ls ks : List (List (Fin n))} (h : List.Forall₂ List.Perm ls ks)
    (layering : g.IsLayering ks) : g.IsLayering ls where
  nonempty := by
    intro layer hl
    obtain ⟨i, hi, rfl⟩ := List.getElem_of_mem hl
    have perm := h.get hi (h.length_eq ▸ hi)
    have some := layering.nonempty _ (List.getElem_mem (h.length_eq ▸ hi))
    exact fun none => some (by simpa [none] using perm)
  partition := (flatten_perm h).trans layering.partition
  first t := by
    have whole := (flatten_perm h).trans layering.partition
    rw [← layerIndex_eq_zero_iff (whole.mem_iff.2 (List.mem_finRange t)), layerIndex_congr h]
    exact layering.layerIndex_start t
  orphans some t := by
    rw [(getLastD_perm h (.refl _)).mem_iff]; exact layering.orphans some t
  earlier t inner ends p hp := by
    rw [layerIndex_congr h, layerIndex_congr h]; exact layering.earlier t inner ends p hp
  depth t inner ends := by
    rw [layerIndex_congr h, funext (layerIndex_congr h)]; exact layering.depth t inner ends

theorem parentPath_of_chain {chain : Nat → Fin n}
    (steps : ∀ k, chain (k + 1) ∈ g.parents (chain k)) (i k : Nat) :
    g.ParentPath k (chain i) (chain (i + k)) := by
  induction k generalizing i with
  | zero => exact .nil _
  | succ k ih =>
    have rest := ih (i + 1)
    rw [Nat.add_right_comm, Nat.add_assoc] at rest
    exact .cons (steps i) rest

theorem Acyclic.no_chain (acyclic : g.Acyclic) {chain : Nat → Fin n}
    (steps : ∀ k, chain (k + 1) ∈ g.parents (chain k)) : False := by
  obtain ⟨i, j, ne, eq⟩ := Finite.exists_ne_map_eq_of_infinite chain
  wlog lt : i < j generalizing i j
  · exact this j i ne.symm eq.symm (by omega)
  · obtain ⟨k, rfl⟩ := Nat.exists_eq_add_of_lt lt
    have path := parentPath_of_chain steps i (k + 1)
    rw [← Nat.add_assoc, ← eq] at path
    exact acyclic k _ path

theorem Acyclic.not_endless (acyclic : g.Acyclic) (t : Fin n) : ¬ g.Endless t := by
  rintro ⟨chain, -, steps⟩
  exact acyclic.no_chain fun k => (steps k).1

theorem Acyclic.root_of_start (acyclic : g.Acyclic) {t : Fin n} (h : g.IsStart t) :
    g.parents t = [] := by
  rcases h with root | ⟨all, -⟩
  · exact root
  · have next : ∀ u, True → ∃ p ∈ g.parents u, True := by
      intro u _
      obtain ⟨p, hp⟩ := List.exists_mem_of_ne_nil _ (all u)
      exact ⟨p, hp, trivial⟩
    obtain ⟨chain, -, steps⟩ := exists_chain (t := t) trivial next
    exact (acyclic.no_chain fun k => (steps k).1).elim

theorem IsLayering.longest_path {layers : List (List (Fin n))} (layering : g.IsLayering layers)
    (acyclic : g.Acyclic) (t : Fin n) :
    IsGreatest {k | ∃ u, g.ParentPath k t u} (layerIndex layers t) := by
  constructor
  · -- from layer `i` a path of length `i` leads up to the first layer
    have climb : ∀ i t, layerIndex layers t = i → ∃ u, g.ParentPath i t u := by
      intro i
      induction i with
      | zero => exact fun t _ => ⟨t, .nil t⟩
      | succ i ih =>
        intro t ht
        have inner : ¬ g.IsStart t := fun h => by have := (layering.layerIndex_start t).2 h; omega
        obtain ⟨m, max, eq⟩ := layering.depth t inner (acyclic.not_endless t)
        obtain ⟨p, hp, hm⟩ := List.mem_map.1 (List.max?_eq_some_iff.1 max).1
        obtain ⟨u, path⟩ := ih p (by omega)
        exact ⟨u, .cons hp path⟩
    exact climb _ t rfl
  · -- no path is longer, since each of its steps goes up a layer
    rintro k ⟨u, path⟩
    induction path with
    | nil => exact Nat.zero_le _
    | cons hp _ ih =>
      have inner : ¬ g.IsStart _ := fun h =>
        List.ne_nil_of_mem hp (acyclic.root_of_start h)
      have := layering.earlier _ inner (acyclic.not_endless _) _ hp
      omega

/-- The layers of any schema, in their final order, are the layering of its reference graph. -/
theorem ordered_layers_correct (tables : List Table) (relationships : List Relationship) :
    let g := ofRelationships tables relationships
    let ordered := g.orderLayers g.layers
    List.Forall₂ List.Perm ordered g.layers ∧ g.IsLayering ordered ∧
      (g.Acyclic → ∀ t, IsGreatest {k | ∃ u, g.ParentPath k t u} (layerIndex ordered t)) := by
  intro g ordered
  have permuted := orderLayers_perm (g := g) g.layers
  have layering := layers_isLayering.permute permuted
  exact ⟨permuted, layering, layering.longest_path⟩

end SchemaDiagram.Graph
