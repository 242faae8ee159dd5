import SchemaDiagram.NameMap

/-!
# Look-ups in maps from names

A value is found under exactly the names it was inserted for. Where entries are only added for new
names, the first value given for a name stays.
-/

namespace SchemaDiagram.NameMap

variable {β γ : Type}

theorem find?_insertEntry (name : Text) (value : β) (l : List (Text × β)) (key : Text) :
    ((insertEntry name value l).find? (·.1 = key)).map (·.2) =
      if name = key then some value else (l.find? (·.1 = key)).map (·.2) := by
  induction l with
  | nil => by_cases h : name = key <;> simp [insertEntry, h]
  | cons e l ih =>
    rw [insertEntry]
    split
    · by_cases h : name = key <;> simp [h]
    · next notBefore =>
      split
      · next after =>
        by_cases he : e.1 = key
        · have ne : name ≠ key := by
            rintro rfl
            rw [he, Text.isBefore_irrefl] at after
            exact absurd after (by simp)
          simp [he, ne]
        · simp only [List.find?_cons, he, decide_false] at ih ⊢
          exact ih
      · next notAfter =>
        have same : name = e.1 :=
          Text.eq_of_not_isBefore (by simpa using notBefore) (by simpa using notAfter)
        by_cases h : name = key
        · simp [h]
        · have he : ¬ e.1 = key := same ▸ h
          simp [h, he]

theorem find?_insert (m : NameMap β) (name : Text) (value : β) (key : Text) :
    (m.insert name value).find? key = if name = key then some value else m.find? key :=
  find?_insertEntry name value m.entries key

theorem contains_iff {m : NameMap β} {name : Text} :
    m.contains name ↔ (m.find? name).isSome := by
  simp [contains, keys, find?]

theorem find?_insertIfNew (m : NameMap β) (name : Text) (value : β) (key : Text) :
    (m.insertIfNew name value).find? key =
      (m.find? key).or (if name = key then some value else none) := by
  unfold insertIfNew
  by_cases h : m.contains name
  · rw [if_pos h]
    by_cases eq : name = key
    · obtain ⟨old, hold⟩ := Option.isSome_iff_exists.1 (contains_iff.1 h)
      rw [← eq, hold, Option.some_or]
    · simp [eq]
  · rw [if_neg h, find?_insert]
    by_cases eq : name = key
    · have none : m.find? name = none := by
        rw [contains_iff] at h
        simpa using h
      simp [← eq, none]
    · simp [eq]

theorem find?_foldl_insertIfNew (name : γ → Text) (value : γ → β) (l : List γ) (m : NameMap β)
    (key : Text) :
    (l.foldl (fun m c => m.insertIfNew (name c) (value c)) m).find? key =
      (m.find? key).or ((l.find? (name · = key)).map value) := by
  induction l generalizing m with
  | nil => simp
  | cons c l ih =>
    rw [List.foldl_cons, ih, find?_insertIfNew, Option.or_assoc]
    by_cases h : name c = key <;> simp [h]

theorem find?_key_of_nodup (key : γ → Text) {l : List γ} (nodup : (l.map key).Nodup)
    {c : γ} (h : c ∈ l) : l.find? (key · = key c) = some c := by
  induction l with
  | nil => simp at h
  | cons d l ih =>
    obtain ⟨fresh, nodup⟩ := List.nodup_cons.1 nodup
    rcases List.mem_cons.1 h with rfl | h
    · simp
    · have ne : key d ≠ key c := fun eq => fresh (eq ▸ List.mem_map_of_mem h)
      rw [List.find?_cons, decide_eq_false ne]
      exact ih nodup h

theorem find?_of_mem {m : NameMap β} {e : Text × β} (he : e ∈ m.entries) :
    m.find? e.1 = some e.2 := by
  have nodup : (m.entries.map (·.1)).Nodup := by
    refine List.pairwise_map.2 (m.ascending.imp fun {a b} before same => ?_)
    rw [same, Text.isBefore_irrefl] at before
    exact Bool.false_ne_true before
  rw [find?, find?_key_of_nodup (·.1) nodup he, Option.map_some]

theorem mem_values_iff {m : NameMap β} {value : β} :
    value ∈ m.values ↔ ∃ name, m.find? name = some value := by
  constructor
  · intro h
    obtain ⟨e, he, rfl⟩ := List.mem_map.1 h
    exact ⟨e.1, find?_of_mem he⟩
  · rintro ⟨name, found⟩
    obtain ⟨e, he, rfl⟩ := Option.map_eq_some_iff.1 found
    exact List.mem_map_of_mem (List.mem_of_find?_eq_some he)

theorem find?_modify (m : NameMap β) (name : Text) (f : β → β) (key : Text) :
    (m.modify name f).find? key = if name = key then (m.find? key).map f else m.find? key := by
  have sameKey : (fun e : Text × β => decide (e.1 = key)) ∘
      (fun e : Text × β => if e.1 = name then (e.1, f e.2) else e) = fun e => decide (e.1 = key) := by
    funext e
    by_cases h : e.1 = name <;> simp [h]
  simp only [find?, modify, List.find?_map, sameKey, Option.map_map]
  cases found : m.entries.find? (·.1 = key) with
  | none => simp
  | some e =>
    have named : e.1 = key := by simpa using List.find?_some found
    by_cases h : name = key
    · simp [named, h]
    · have ne : ¬ key = name := fun eq => h eq.symm
      simp [named, h, ne]

theorem insertEntry_perm {name : Text} (value : β) {l : List (Text × β)}
    (new : name ∉ l.map (·.1)) : (insertEntry name value l).Perm ((name, value) :: l) := by
  induction l with
  | nil => exact .refl _
  | cons e l ih =>
    rw [List.map_cons, List.mem_cons, not_or] at new
    rw [insertEntry]
    split
    · exact .refl _
    · next notBefore =>
      split
      · exact ((ih new.2).cons e).trans (.swap _ _ l)
      · next notAfter =>
        have same : name = e.1 :=
          Text.eq_of_not_isBefore (by simpa using notBefore) (by simpa using notAfter)
        exact (new.1 same).elim

theorem entries_insertIfNew {m : NameMap β} {name : Text} (value : β) (new : name ∉ m.keys) :
    (m.insertIfNew name value).entries.Perm ((name, value) :: m.entries) := by
  rw [insertIfNew, if_neg (by simpa [contains] using new)]
  exact insertEntry_perm value new

theorem entries_foldl_insertIfNew (name : γ → Text) (value : γ → β) {l : List γ} {m : NameMap β}
    (distinct : (l.map name).Nodup) (new : ∀ c ∈ l, name c ∉ m.keys) :
    (l.foldl (fun m c => m.insertIfNew (name c) (value c)) m).entries.Perm
      (l.map (fun c => (name c, value c)) ++ m.entries) := by
  induction l generalizing m with
  | nil => exact .refl _
  | cons c l ih =>
    rw [List.map_cons, List.nodup_cons] at distinct
    obtain ⟨first, distinct⟩ := distinct
    have added := entries_insertIfNew (value c) (new c List.mem_cons_self)
    have stillNew : ∀ d ∈ l, name d ∉ (m.insertIfNew (name c) (value c)).keys := by
      intro d hd known
      rcases List.mem_cons.1 ((added.map Prod.fst).mem_iff.1 known) with same | old
      · exact first (List.mem_map.2 ⟨d, hd, same⟩)
      · exact new d (List.mem_cons_of_mem c hd) old
    rw [List.foldl_cons, List.map_cons]
    exact ((ih distinct stillNew).trans (added.append_left _)).trans List.perm_middle

end SchemaDiagram.NameMap
