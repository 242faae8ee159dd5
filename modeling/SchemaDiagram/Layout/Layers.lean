import SchemaDiagram.Layout.Graph

/-!
# Layers

The first layer holds the tables that refer to nothing, or, where every table refers to another, the
one table with the most references to it. Each further layer holds the tables whose parents all
stand in earlier layers. Tables that are never reached share a last layer.

Within a layer, tables stand by the mean place of their parents in the layer above.
-/

namespace SchemaDiagram.Graph

variable {n : Nat} (g : Graph n)

/-- Tables with more children come first; ties keep their order. -/
def byChildCount (layer : List (Fin n)) : List (Fin n) :=
  layer.mergeSort fun a b => g.childCount b ≤ g.childCount a

def roots : List (Fin n) := (List.finRange n).filter fun t => (g.parents t).isEmpty

def seed : List (Fin n) :=
  match List.finRange n with
  | [] => []
  | first :: others =>
    [others.foldl (fun best t => if g.childCount best < g.childCount t then t else best) first]

def startTables : List (Fin n) := if g.roots.isEmpty then g.seed else g.roots

def isReady (done : List (Fin n)) (t : Fin n) : Bool :=
  t ∉ done && (g.parents t).all (· ∈ done)

/-- The children of a layer that can follow it, in the order in which the layer reaches them. -/
def following (done layer : List (Fin n)) : List (Fin n) :=
  ((layer.flatMap g.children).filter (g.isReady done)).eraseDups

theorem following_fresh {done layer : List (Fin n)} {t : Fin n} (h : t ∈ g.following done layer) :
    t ∉ done := by
  simp only [following, List.mem_eraseDups, List.mem_filter, isReady, Bool.and_eq_true,
    decide_eq_true_eq] at h
  exact h.2.1

def unplaced (done : List (Fin n)) : List (Fin n) := (List.finRange n).filter (· ∉ done)

/-- Placing a table that was not placed leaves fewer. -/
theorem unplaced_length_lt {done more : List (Fin n)} {t : Fin n} (ht : t ∈ more)
    (fresh : t ∉ done) : (unplaced (more ++ done)).length < (unplaced done).length := by
  have keep : unplaced (more ++ done) = (unplaced done).filter (· ∉ more) := by
    simp [unplaced, List.filter_filter, List.mem_append, not_or]
  rw [keep]
  exact List.length_filter_lt_length_iff_exists.2
    ⟨t, by simp [unplaced, fresh], by simp [ht]⟩

/-- The layers from `current` on, once the tables of `done` are placed. -/
def layersFrom (done current : List (Fin n)) (fresh : ∀ t ∈ current, t ∉ done) :
    List (List (Fin n)) :=
  match current with
  | [] => []
  | t :: others =>
    let layer := g.byChildCount (t :: others)
    let done' := layer ++ done
    layer :: layersFrom done' (g.following done' layer) fun _ => g.following_fresh
termination_by (unplaced done).length
decreasing_by
  exact unplaced_length_lt (t := t) (by simp [byChildCount]) (fresh t (by simp))

def reachedLayers : List (List (Fin n)) := g.layersFrom [] g.startTables (by simp)

def layers : List (List (Fin n)) :=
  let orphans := unplaced g.reachedLayers.flatten
  if orphans.isEmpty then g.reachedLayers else g.reachedLayers ++ [orphans]

/-- The mean place of `t`'s parents in the layer `above`; its middle if none stands there. -/
def barycenter (above : List (Fin n)) (t : Fin n) : Rat :=
  let places := (g.parents t).filterMap (above.idxOf? ·)
  if places.isEmpty then mkRat above.length 2
  else mkRat (places.foldl (· + ·) 0 : Nat) places.length

def orderBelow (above layer : List (Fin n)) : List (Fin n) :=
  layer.mergeSort fun a b => g.barycenter above a ≤ g.barycenter above b

def orderFrom (above : List (Fin n)) : List (List (Fin n)) → List (List (Fin n))
  | [] => []
  | layer :: below =>
    let ordered := g.orderBelow above layer
    ordered :: orderFrom ordered below

/-- Every layer but the first, put in order below the one before it. -/
def orderLayers : List (List (Fin n)) → List (List (Fin n))
  | [] => []
  | first :: below => first :: g.orderFrom first below

end SchemaDiagram.Graph
