import Mathlib.Data.List.Pairwise

/-!
# Order in a list

Which element of a list stands before which, and what a stable sort leaves of that: the order it
sorts by comes first, and elements that this order does not tell apart keep their places among each
other.
-/

namespace SchemaDiagram

variable {β : Type}

def StandsBefore (l : List β) (a b : β) : Prop :=
  ∀ i j : Nat, l[i]? = some a → l[j]? = some b → i < j

theorem standsBefore_iff {l : List β} {a b : β} :
    StandsBefore l a b ↔ (a = b → a ∉ l) ∧ l.Pairwise fun x y => ¬ (x = b ∧ y = a) := by
  rw [List.pairwise_iff_getElem]
  constructor
  · intro before
    constructor
    · rintro rfl member
      obtain ⟨i, hi⟩ := List.getElem?_of_mem member
      exact Nat.lt_irrefl i (before i i hi hi)
    · rintro i j hi hj lt ⟨isB, isA⟩
      have after := before j i (List.getElem?_eq_some_iff.2 ⟨hj, isA⟩)
        (List.getElem?_eq_some_iff.2 ⟨hi, isB⟩)
      omega
  · rintro ⟨other, ordered⟩ i j hi hj
    obtain ⟨hi, isA⟩ := List.getElem?_eq_some_iff.1 hi
    obtain ⟨hj, isB⟩ := List.getElem?_eq_some_iff.1 hj
    rcases Nat.lt_trichotomy i j with lt | rfl | lt
    · exact lt
    · exact (other (isA.symm.trans isB) (isA ▸ List.getElem_mem hi)).elim
    · exact (ordered j i hj hi lt ⟨isB, isA⟩).elim

instance [DecidableEq β] (l : List β) (a b : β) : Decidable (StandsBefore l a b) :=
  decidable_of_iff _ standsBefore_iff.symm

theorem StandsBefore.asymm {l : List β} {a b : β} (h : StandsBefore l a b) (ha : a ∈ l)
    (hb : b ∈ l) : ¬ StandsBefore l b a := by
  intro k
  obtain ⟨i, hi⟩ := List.getElem?_of_mem ha
  obtain ⟨j, hj⟩ := List.getElem?_of_mem hb
  have := h i j hi hj
  have := k j i hj hi
  omega

theorem standsBefore_filter {p : β → Bool} {l : List β} {a b : β} (ha : p a) (hb : p b) :
    StandsBefore (l.filter p) a b ↔ StandsBefore l a b := by
  rw [standsBefore_iff, standsBefore_iff, List.mem_filter, List.pairwise_filter]
  refine and_congr (by simp [ha]) (List.Pairwise.iff fun {x y} => ?_)
  constructor
  · rintro kept ⟨rfl, rfl⟩
    exact kept hb ha ⟨rfl, rfl⟩
  · exact fun ordered _ _ => ordered

section Sorting

variable {le : β → β → Bool} (trans : ∀ a b c, le a b → le b c → le a c)
  (total : ∀ a b, le a b || le b a)

include trans total

theorem standsBefore_mergeSort {l : List β} {a b : β} (h : ¬ le b a) :
    StandsBefore (l.mergeSort le) a b := by
  have sorted := List.pairwise_mergeSort trans total l
  refine standsBefore_iff.2 ⟨?_, sorted.imp fun {x y} ordered => ?_⟩
  · rintro rfl
    exact (h (by simpa using total a a)).elim
  · rintro ⟨rfl, rfl⟩
    exact h ordered

/-- Sorting is stable: elements that may come in either order keep the order they have. -/
theorem filter_mergeSort {p : β → Bool} (level : ∀ a b, p a → p b → le a b) (l : List β) :
    (l.mergeSort le).filter p = l.filter p := by
  have ordered : (l.filter p).Pairwise fun a b => le a b :=
    List.pairwise_of_forall_mem_list fun a ha b hb =>
      level a b (List.mem_filter.1 ha).2 (List.mem_filter.1 hb).2
  have kept : (l.filter p).Sublist (l.mergeSort le) :=
    List.sublist_mergeSort trans total ordered List.filter_sublist
  have again := kept.filter p
  rw [List.filter_filter] at again
  simp only [Bool.and_self] at again
  exact (again.eq_of_length ((List.mergeSort_perm l le).filter p).length_eq.symm).symm

end Sorting

end SchemaDiagram
