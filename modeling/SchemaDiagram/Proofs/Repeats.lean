import Mathlib.Data.List.Induction
import SchemaDiagram.Text.Basic

/-!
# Repeats

A list without its repeats keeps an element exactly if no element before it agrees with it, kept
or not. Taking the first element of each key is the case where agreeing means having one key.
-/

namespace SchemaDiagram

variable {α : Type}

def withoutRepeats (agrees : α → α → Prop) [DecidableRel agrees] (l : List α) : List α :=
  (l.zipIdx.filter fun (a, i) => ∀ b ∈ l.take i, ¬ agrees b a).map (·.1)

/-- An element behind `l`, unless one of `l` agrees with it. -/
def unlessRepeated (agrees : α → α → Prop) [DecidableRel agrees] (l : List α) (a : α) : List α :=
  if ∃ b ∈ l, agrees b a then [] else [a]

section

variable {agrees agrees' : α → α → Prop} [DecidableRel agrees] [DecidableRel agrees']

theorem withoutRepeats_append_singleton (l : List α) (a : α) :
    withoutRepeats agrees (l ++ [a]) = withoutRepeats agrees l ++ unlessRepeated agrees l a := by
  have kept : (l.zipIdx.filter fun (b, i) => ∀ c ∈ (l ++ [a]).take i, ¬ agrees c b) =
      l.zipIdx.filter fun (b, i) => ∀ c ∈ l.take i, ¬ agrees c b := by
    refine List.filter_congr fun (b, i) h => ?_
    have within : i ≤ l.length := Nat.le_of_lt (by simpa using List.snd_lt_of_mem_zipIdx h)
    dsimp only
    rw [List.take_append_of_le_length within]
  rw [withoutRepeats, List.zipIdx_append, List.filter_append, List.map_append, kept, withoutRepeats]
  congr 1
  unfold unlessRepeated
  split
  · next h => simpa using h
  · next h =>
    have fresh : ∀ b ∈ l, ¬ agrees b a := fun b hb agree => h ⟨b, hb, agree⟩
    simp [List.filter_cons, if_pos fresh]

theorem unlessRepeated_sublist (finer : ∀ a b, agrees a b → agrees' a b) (l : List α) (a : α) :
    (unlessRepeated agrees' l a).Sublist (unlessRepeated agrees l a) := by
  unfold unlessRepeated
  split
  · exact List.nil_sublist _
  · next h =>
    have fresh : ¬ ∃ b ∈ l, agrees b a := fun ⟨b, hb, agree⟩ => h ⟨b, hb, finer b a agree⟩
    simp only [if_neg fresh, List.Sublist.refl]

theorem unlessRepeated_eq_iff (finer : ∀ a b, agrees a b → agrees' a b) {l : List α} {a : α} :
    unlessRepeated agrees' l a = unlessRepeated agrees l a ↔
      ((∃ b ∈ l, agrees' b a) → ∃ b ∈ l, agrees b a) := by
  have coarse : (∃ b ∈ l, agrees b a) → ∃ b ∈ l, agrees' b a :=
    fun ⟨b, hb, agree⟩ => ⟨b, hb, finer b a agree⟩
  by_cases h : ∃ b ∈ l, agrees b a
  · simp [unlessRepeated, h, coarse h]
  · by_cases h' : ∃ b ∈ l, agrees' b a
    · simp [unlessRepeated, h, h']
    · simp [unlessRepeated, h, h']

theorem withoutRepeats_sublist (finer : ∀ a b, agrees a b → agrees' a b) (l : List α) :
    (withoutRepeats agrees' l).Sublist (withoutRepeats agrees l) := by
  induction l using List.reverseRecOn with
  | nil => exact .slnil
  | append_singleton l a ih =>
    rw [withoutRepeats_append_singleton, withoutRepeats_append_singleton]
    exact ih.append (unlessRepeated_sublist finer l a)

/-- Of two agreements, one finer than the other, both keep the same exactly if whatever repeats an
element in the coarse sense also repeats one in the fine sense. -/
theorem withoutRepeats_eq_iff (finer : ∀ a b, agrees a b → agrees' a b) (l : List α) :
    withoutRepeats agrees' l = withoutRepeats agrees l ↔
      ∀ before a after, l = before ++ a :: after →
        (∃ b ∈ before, agrees' b a) → ∃ b ∈ before, agrees b a := by
  induction l using List.reverseRecOn with
  | nil => simp [withoutRepeats]
  | append_singleton l a ih =>
    rw [withoutRepeats_append_singleton, withoutRepeats_append_singleton]
    constructor
    · intro eq
      have before := withoutRepeats_sublist finer l
      have last := unlessRepeated_sublist finer l a
      have lengths := congrArg List.length eq
      rw [List.length_append, List.length_append] at lengths
      have := before.length_le
      have := last.length_le
      have same := ih.1 (before.eq_of_length (by omega))
      have sameLast := (unlessRepeated_eq_iff finer).1 (last.eq_of_length (by omega))
      intro earlier b after hl
      rcases List.eq_nil_or_concat after with rfl | ⟨after, c, rfl⟩
      · obtain ⟨rfl, rfl⟩ := by simpa using hl
        exact sameLast
      · rw [List.concat_eq_append, ← List.cons_append, ← List.append_assoc] at hl
        exact same earlier b after (List.append_inj' hl rfl).1
    · intro repeated
      have before := ih.2 fun before b after hl => repeated before b (after ++ [a]) (by simp [hl])
      have last := (unlessRepeated_eq_iff finer).2 (repeated l a [] rfl)
      rw [before, last]

end

namespace Text

variable {key : α → Text}

theorem firstOfEach_sublist (l : List α) : (firstOfEach key l).Sublist l := by
  induction l with
  | nil => exact .slnil
  | cons a l ih => exact (List.filter_sublist.trans ih).cons_cons a

theorem firstOfEach_eq_self {l : List α} (h : (l.map key).Nodup) : firstOfEach key l = l := by
  induction l with
  | nil => rfl
  | cons a l ih =>
    rw [List.map_cons, List.nodup_cons] at h
    have apart : ∀ b ∈ l, decide (key b ≠ key a) := by
      intro b hb
      exact decide_eq_true fun same => h.1 (List.mem_map.2 ⟨b, hb, same⟩)
    rw [firstOfEach, ih h.2, List.filter_eq_self.2 apart]

theorem nodup_firstOfEach (l : List α) : ((firstOfEach key l).map key).Nodup := by
  induction l with
  | nil => exact .nil
  | cons a l ih =>
    rw [firstOfEach, List.map_cons, List.nodup_cons]
    refine ⟨fun repeated => ?_, ih.sublist (List.filter_sublist.map key)⟩
    obtain ⟨b, hb, same⟩ := List.mem_map.1 repeated
    simp [same] at hb

theorem pairwise_firstOfEach (l : List α) :
    (firstOfEach key l).Pairwise fun a b => key a ≠ key b :=
  List.pairwise_map.1 (nodup_firstOfEach l)

theorem exists_mem_firstOfEach (key : α → Text) {l : List α} {a : α} (h : a ∈ l) :
    ∃ b ∈ firstOfEach key l, key b = key a := by
  induction l with
  | nil => simp at h
  | cons c l ih =>
    rw [firstOfEach]
    by_cases same : key c = key a
    · exact ⟨c, List.mem_cons_self, same⟩
    · have behind : a ∈ l := (List.mem_cons.1 h).resolve_left fun eq => same (by rw [eq])
      obtain ⟨b, hb, eq⟩ := ih behind
      refine ⟨b, List.mem_cons_of_mem _ (List.mem_filter.2 ⟨hb, ?_⟩), eq⟩
      exact decide_eq_true fun early => same (early.symm.trans eq)

theorem forall_mem_firstOfEach {p : Text → Prop} {l : List α} :
    (∀ a ∈ firstOfEach key l, p (key a)) ↔ ∀ a ∈ l, p (key a) := by
  constructor
  · intro h a ha
    obtain ⟨b, hb, same⟩ := exists_mem_firstOfEach key ha
    exact same ▸ h b hb
  · exact fun h a ha => h a ((firstOfEach_sublist l).subset ha)

theorem firstOfEach_append (l m : List α) :
    firstOfEach key (l ++ m) =
      firstOfEach key l ++ (firstOfEach key m).filter fun a => ∀ b ∈ l, key a ≠ key b := by
  induction l with
  | nil => exact (List.filter_eq_self.2 (by simp)).symm
  | cons b l ih =>
    rw [List.cons_append, firstOfEach, ih, firstOfEach, List.filter_append, List.filter_filter,
      List.cons_append]
    congr 3
    funext a
    simp

theorem firstOfEach_filter {p : α → Bool} {l : List α}
    (h : ∀ a ∈ l, ∀ b ∈ l, key a = key b → p a = p b) :
    firstOfEach key (l.filter p) = (firstOfEach key l).filter p := by
  induction l with
  | nil => rfl
  | cons a l ih =>
    have behind := ih fun b hb c hc => h b (List.mem_cons_of_mem a hb) c (List.mem_cons_of_mem a hc)
    rw [firstOfEach, List.filter_cons, List.filter_cons]
    by_cases kept : p a
    · rw [if_pos kept, if_pos kept, firstOfEach, behind, List.filter_filter, List.filter_filter]
      congr 2
      funext b
      rw [Bool.and_comm]
    · rw [if_neg kept, if_neg kept, behind, List.filter_filter]
      refine List.filter_congr fun b hb => ?_
      have mem := List.mem_cons_of_mem a ((firstOfEach_sublist l).subset hb)
      by_cases same : key b = key a
      · simp [same, h b mem a List.mem_cons_self same, kept]
      · simp [same]

theorem firstOfEach_map {β : Type} (key : β → Text) (f : α → β) (l : List α) :
    firstOfEach key (l.map f) = (firstOfEach (key ∘ f) l).map f := by
  induction l with
  | nil => rfl
  | cons a l ih =>
    rw [List.map_cons, firstOfEach, ih, List.filter_map, firstOfEach, List.map_cons]
    rfl

theorem firstOfEach_append_singleton (l : List α) (a : α) :
    firstOfEach key (l ++ [a]) =
      firstOfEach key l ++ unlessRepeated (fun a b => key a = key b) l a := by
  have single : firstOfEach key [a] = [a] := rfl
  rw [firstOfEach_append, single, unlessRepeated, List.filter_cons, List.filter_nil]
  by_cases repeated : ∃ b ∈ l, key b = key a
  · have stale : ¬ ∀ b ∈ l, key a ≠ key b := fun fresh =>
      repeated.elim fun b hb => fresh b hb.1 hb.2.symm
    rw [if_pos repeated, if_neg (by simpa only [decide_eq_true_eq] using stale)]
  · have fresh : ∀ b ∈ l, key a ≠ key b := fun b hb same => repeated ⟨b, hb, same.symm⟩
    rw [if_neg repeated, if_pos (by simpa only [decide_eq_true_eq] using fresh)]

theorem firstOfEach_eq_withoutRepeats (l : List α) :
    firstOfEach key l = withoutRepeats (fun a b => key a = key b) l := by
  induction l using List.reverseRecOn with
  | nil => rfl
  | append_singleton l a ih =>
    rw [firstOfEach_append_singleton, withoutRepeats_append_singleton, ih]

end Text

end SchemaDiagram
