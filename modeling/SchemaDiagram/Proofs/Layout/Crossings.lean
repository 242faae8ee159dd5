import Mathlib
import SchemaDiagram.Proofs.Layout.Layering
import SchemaDiagram.Proofs.ListOrder

/-!
# Crossings

A layer is sorted by the mean places that the parents of its tables have in the layer above, once
that one is in order itself. So where all parents of one table stand in front of those of another,
one parent perhaps shared, the tables follow them, and if no table has more than one parent then no
two edges between neighbouring layers cross.
-/

namespace SchemaDiagram

/-- Of two lists of numbers where none of the first exceeds any of the second, and some number is
less than another, the first has the smaller mean. -/
theorem mean_lt_mean {xs ys : List ℕ} (le : ∀ x ∈ xs, ∀ y ∈ ys, x ≤ y)
    (lt : ∃ x ∈ xs, ∃ y ∈ ys, x < y) :
    (xs.sum : ℚ) / xs.length < (ys.sum : ℚ) / ys.length := by
  obtain ⟨x, hx, y, hy, less⟩ := lt
  -- no number of the second list is below the first one's mean, and `y` is above it
  have below : ∀ z ∈ ys, xs.sum ≤ xs.length * z := by
    intro z hz
    have bounded := List.sum_le_card_nsmul xs z fun w hw => le w hw z hz
    rwa [Nat.nsmul_eq_mul] at bounded
  have strictly : xs.sum < xs.length * y := by
    have bounded := List.sum_lt_sum (l := xs) id (fun _ => y) (fun w hw => le w hw y hy)
      ⟨x, hx, less⟩
    rwa [List.map_id, List.map_const', List.sum_replicate, Nat.nsmul_eq_mul] at bounded
  have weighed : ys.length * xs.sum < xs.length * ys.sum := by
    have sums := List.sum_lt_sum (fun _ => xs.sum) (fun z => xs.length * z) below ⟨y, hy, strictly⟩
    rwa [List.map_const', List.sum_replicate, Nat.nsmul_eq_mul, List.sum_map_mul_left, List.map_id']
      at sums
  have someX : (0 : ℚ) < xs.length := by exact_mod_cast List.length_pos_of_mem hx
  have someY : (0 : ℚ) < ys.length := by exact_mod_cast List.length_pos_of_mem hy
  rw [div_lt_div_iff₀ someX someY]
  exact_mod_cast (by linarith : xs.sum * ys.length < ys.sum * xs.length)

namespace Graph

variable {n : Nat} (g : Graph n)

def parentsIn (above : List (Fin n)) (t : Fin n) : List (Fin n) :=
  (g.parents t).filter above.contains

/-- One of two edges between neighbouring layers has its parent before that of the other and its
child behind. -/
def Cross (above layer : List (Fin n)) (e f : Fin n × Fin n) : Prop :=
  StandsBefore above e.2 f.2 ∧ StandsBefore layer f.1 e.1

def parentPlaces (above : List (Fin n)) (t : Fin n) : List Nat :=
  (g.parents t).filterMap (above.idxOf? ·)

variable {g} {above : List (Fin n)}

theorem getElem?_of_idxOf? {p : Fin n} {i : Nat} (h : above.idxOf? p = some i) :
    above[i]? = some p := by
  obtain ⟨within, found, -⟩ := List.idxOf?_eq_some_iff.1 h
  rw [List.getElem?_eq_getElem within, found]

theorem mem_parentPlaces {t : Fin n} {i : Nat} :
    i ∈ g.parentPlaces above t ↔ ∃ p ∈ g.parentsIn above t, above.idxOf? p = some i := by
  simp only [parentPlaces, parentsIn, List.mem_filterMap, List.mem_filter, List.contains_iff_mem]
  constructor
  · rintro ⟨p, hp, place⟩
    exact ⟨p, ⟨hp, List.mem_of_getElem? (getElem?_of_idxOf? place)⟩, place⟩
  · rintro ⟨p, ⟨hp, -⟩, place⟩
    exact ⟨p, hp, place⟩

theorem exists_parentPlace {t p : Fin n} (h : p ∈ g.parentsIn above t) :
    ∃ i ∈ g.parentPlaces above t, above.idxOf? p = some i := by
  have member : p ∈ above := List.contains_iff_mem.1 (List.mem_filter.1 h).2
  obtain ⟨i, place⟩ := Option.isSome_iff_exists.1 (List.isSome_idxOf?.2 member)
  exact ⟨i, mem_parentPlaces.2 ⟨p, h, place⟩, place⟩

theorem barycenter_eq {t : Fin n} (some : g.parentPlaces above t ≠ []) :
    g.barycenter above t = ((g.parentPlaces above t).sum : ℚ) / (g.parentPlaces above t).length := by
  have places : (g.parentPlaces above t).isEmpty = false := by simpa using some
  change (if (g.parentPlaces above t).isEmpty then _ else
    mkRat ((g.parentPlaces above t).foldl (· + ·) 0 : Nat) (g.parentPlaces above t).length) = _
  rw [places, if_neg Bool.false_ne_true, ← List.sum_eq_foldl, Rat.mkRat_eq_div, Int.cast_natCast]

/-- Parents further to the front, of which one may be shared, have the smaller mean place. -/
theorem barycenter_lt {a b : Fin n}
    (ordered : ∀ p ∈ g.parentsIn above a, ∀ q ∈ g.parentsIn above b,
      p = q ∨ StandsBefore above p q)
    (different : ∃ p ∈ g.parentsIn above a, ∃ q ∈ g.parentsIn above b, p ≠ q) :
    g.barycenter above a < g.barycenter above b := by
  obtain ⟨p, hp, q, hq, ne⟩ := different
  obtain ⟨i, hi, placeP⟩ := exists_parentPlace hp
  obtain ⟨j, hj, placeQ⟩ := exists_parentPlace hq
  have strictly : i < j :=
    (ordered p hp q hq).resolve_left ne i j (getElem?_of_idxOf? placeP) (getElem?_of_idxOf? placeQ)
  rw [barycenter_eq (List.ne_nil_of_mem hi), barycenter_eq (List.ne_nil_of_mem hj)]
  refine mean_lt_mean ?_ ⟨i, hi, j, hj, strictly⟩
  intro k hk l hl
  obtain ⟨r, hr, placeR⟩ := mem_parentPlaces.1 hk
  obtain ⟨s, hs, placeS⟩ := mem_parentPlaces.1 hl
  rcases ordered r hr s hs with rfl | before
  · exact (Option.some_inj.1 (placeR.symm.trans placeS)).le
  · exact (before k l (getElem?_of_idxOf? placeR) (getElem?_of_idxOf? placeS)).le

theorem keys_trans (a b c : Fin n) (ab : decide (g.barycenter above a ≤ g.barycenter above b))
    (bc : decide (g.barycenter above b ≤ g.barycenter above c)) :
    decide (g.barycenter above a ≤ g.barycenter above c) :=
  decide_eq_true ((of_decide_eq_true ab).trans (of_decide_eq_true bc))

theorem keys_total (a b : Fin n) : decide (g.barycenter above a ≤ g.barycenter above b) ||
    decide (g.barycenter above b ≤ g.barycenter above a) := by
  simpa using le_total (g.barycenter above a) (g.barycenter above b)

theorem orderBelow_before {layer : List (Fin n)} {a b : Fin n}
    (h : g.barycenter above a < g.barycenter above b) :
    StandsBefore (g.orderBelow above layer) a b :=
  standsBefore_mergeSort keys_trans keys_total (by simpa using h)

theorem orderBelow_before_iff {layer : List (Fin n)} {a b : Fin n}
    (h : g.barycenter above a = g.barycenter above b) :
    StandsBefore (g.orderBelow above layer) a b ↔ StandsBefore layer a b := by
  let level (t : Fin n) : Bool := g.barycenter above t = g.barycenter above b
  have levelA : level a := decide_eq_true h
  have levelB : level b := decide_eq_true rfl
  have kept : (g.orderBelow above layer).filter level = layer.filter level := by
    refine filter_mergeSort keys_trans keys_total (fun t u ht hu => ?_) layer
    exact decide_eq_true ((of_decide_eq_true ht).trans (of_decide_eq_true hu).symm).le
  rw [← standsBefore_filter levelA levelB, kept, standsBefore_filter levelA levelB]

/-- Each layer is put in order below the one before it, as this one stands in the end. -/
theorem orderFrom_getD (above : List (Fin n)) (layers : List (List (Fin n))) (i : Nat) :
    (g.orderFrom above layers).getD i [] =
      g.orderBelow ((above :: g.orderFrom above layers).getD i []) (layers.getD i []) := by
  induction layers generalizing above i with
  | nil => simp [orderFrom, orderBelow]
  | cons layer below ih =>
    cases i with
    | zero => rfl
    | succ i =>
      rw [orderFrom, List.getD_cons_succ, List.getD_cons_succ, List.getD_cons_succ]
      exact ih _ i

theorem orderLayers_getD (layers : List (List (Fin n))) (i : Nat) :
    (g.orderLayers layers).getD (i + 1) [] =
      g.orderBelow ((g.orderLayers layers).getD i []) (layers.getD (i + 1) []) := by
  cases layers with
  | nil => simp [orderLayers, orderBelow]
  | cons first below =>
    rw [orderLayers, List.getD_cons_succ, List.getD_cons_succ]
    exact orderFrom_getD first below i

theorem parentsIn_of_single {e : Fin n × Fin n} (he : e ∈ g.edges) (above : List (Fin n))
    (single : (g.parents e.1).length ≤ 1) : ∀ p ∈ g.parentsIn above e.1, p = e.2 := by
  intro p hp
  have parent : e.2 ∈ g.parents e.1 := mem_parents.2 he
  have member : p ∈ g.parents e.1 := (List.mem_filter.1 hp).1
  obtain ⟨only, eq⟩ := List.length_eq_one_iff.1
    (Nat.le_antisymm single (List.length_pos_of_mem parent))
  rw [eq, List.mem_singleton] at parent member
  exact member.trans parent.symm

/-- Ordering the layers takes tables apart whose parents are apart. Below each layer, as it stands
in the end, a table comes before another if its parents there come before those of the other; one
parent may be shared unless it is the only one of both. So where no table has two parents, no edges
between neighbouring layers cross. Tables with the same mean place keep the order they had. -/
theorem orderLayers_uncrossed (g : Graph n) (layers : List (List (Fin n))) (i : Nat) :
    let above := (g.orderLayers layers).getD i []
    let layer := (g.orderLayers layers).getD (i + 1) []
    (∀ a ∈ layer, ∀ b ∈ layer, g.parentsIn above a ≠ [] → g.parentsIn above b ≠ [] →
      (∀ p ∈ g.parentsIn above a, ∀ q ∈ g.parentsIn above b, p = q ∨ StandsBefore above p q) →
      (¬ ∃ only, ∀ p ∈ g.parentsIn above a ++ g.parentsIn above b, p = only) →
        StandsBefore layer a b) ∧
      ((∀ t, (g.parents t).length ≤ 1) → ∀ e ∈ g.edges, ∀ f ∈ g.edges, e.1 ∈ layer → f.1 ∈ layer →
        e.2 ∈ above → f.2 ∈ above → ¬ Cross above layer e f) ∧
      ∀ a b, g.barycenter above a = g.barycenter above b →
        (StandsBefore layer a b ↔ StandsBefore (layers.getD (i + 1) []) a b) := by
  intro above layer
  have ordered : layer = g.orderBelow above (layers.getD (i + 1) []) := orderLayers_getD layers i
  refine ⟨?_, ?_, ?_⟩
  · intro a _ b _ someA someB before notOne
    have different : ∃ p ∈ g.parentsIn above a, ∃ q ∈ g.parentsIn above b, p ≠ q := by
      by_contra! same
      obtain ⟨p, hp⟩ := List.exists_mem_of_ne_nil _ someA
      obtain ⟨q, hq⟩ := List.exists_mem_of_ne_nil _ someB
      refine notOne ⟨q, fun r hr => ?_⟩
      rcases List.mem_append.1 hr with hr | hr
      · exact same r hr q hq
      · exact (same p hp r hr).symm.trans (same p hp q hq)
    rw [ordered]
    exact orderBelow_before (barycenter_lt before different)
  · rintro single e he f hf childE childF parentE parentF ⟨parents, children⟩
    have onlyE := parentsIn_of_single he above (single e.1)
    have onlyF := parentsIn_of_single hf above (single f.1)
    have apart : e.2 ≠ f.2 := fun eq => parents.asymm parentE parentF (eq ▸ parents)
    have follow : StandsBefore layer e.1 f.1 := by
      rw [ordered]
      refine orderBelow_before (barycenter_lt (fun p hp q hq => ?_) ?_)
      · rw [onlyE p hp, onlyF q hq]
        exact Or.inr parents
      · exact ⟨e.2, List.mem_filter.2 ⟨mem_parents.2 he, List.contains_iff_mem.2 parentE⟩,
          f.2, List.mem_filter.2 ⟨mem_parents.2 hf, List.contains_iff_mem.2 parentF⟩, apart⟩
    exact follow.asymm childE childF children
  · intro a b level
    rw [ordered]
    exact orderBelow_before_iff level

/-- Two tables share a parent, and the first of them has the same mean place as the third, which has
no parents; and two tables stand crosswise below their only parents. -/
theorem orderLayers_shared :
    let shared : Graph 6 := ⟨[(3, 1), (3, 2), (4, 0), (4, 1)]⟩
    let crosswise : Graph 4 := ⟨[(2, 1), (3, 0)]⟩
    shared.orderLayers [[0, 1, 2], [3, 4, 5]] = [[0, 1, 2], [4, 3, 5]] ∧
      StandsBefore [4, 3, 5] (4 : Fin 6) 3 ∧
      (StandsBefore [4, 3, 5] (3 : Fin 6) 5 ↔ StandsBefore [3, 4, 5] (3 : Fin 6) 5) ∧
      crosswise.orderLayers [[0, 1], [2, 3]] = [[0, 1], [3, 2]] ∧
      ¬ Cross [0, 1] [3, 2] (3, (0 : Fin 4)) (2, 1) := by
  intro shared crosswise
  have ordered : shared.orderLayers [[0, 1, 2], [3, 4, 5]] = [[0, 1, 2], [4, 3, 5]] := by
    cbv
  have uncrossed : crosswise.orderLayers [[0, 1], [2, 3]] = [[0, 1], [3, 2]] := by
    cbv
  obtain ⟨follow, -, kept⟩ := orderLayers_uncrossed shared [[0, 1, 2], [3, 4, 5]] 0
  obtain ⟨-, single, -⟩ := orderLayers_uncrossed crosswise [[0, 1], [2, 3]] 0
  rw [ordered] at follow kept
  rw [uncrossed] at single
  refine ⟨ordered, ?_, kept 3 5 (by decide +kernel), uncrossed, ?_⟩
  · exact follow 4 (by decide) 3 (by decide) (by decide) (by decide) (by decide) (by decide)
  · exact single (by decide) (3, 0) (by decide) (2, 1) (by decide) (by decide) (by decide)
      (by decide) (by decide)

end Graph

end SchemaDiagram
