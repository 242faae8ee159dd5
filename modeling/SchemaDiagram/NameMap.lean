import SchemaDiagram.Text.Basic

/-!
# Maps from names

A map keeps one value for each name, in the order of the names' code points. Names that differ in
case are different keys.
-/

namespace SchemaDiagram

def Text.isBefore : Text → Text → Bool
  | _, [] => false
  | [], _ :: _ => true
  | c :: a, d :: b => c.toNat < d.toNat || (c = d && isBefore a b)

namespace Text

theorem isBefore_irrefl (a : Text) : a.isBefore a = false := by
  induction a with
  | nil => rfl
  | cons c a ih => simp [isBefore, ih]

theorem isBefore_trans {a b c : Text} (hab : a.isBefore b) (hbc : b.isBefore c) :
    a.isBefore c := by
  induction a generalizing b c with
  | nil =>
    cases b <;> cases c <;> simp_all [isBefore]
  | cons x a ih =>
    cases b with
    | nil => simp [isBefore] at hab
    | cons y b =>
      cases c with
      | nil => simp [isBefore] at hbc
      | cons z c =>
        simp only [isBefore, Bool.or_eq_true, decide_eq_true_eq, Bool.and_eq_true] at hab hbc ⊢
        rcases hab with hab | ⟨rfl, hab⟩ <;> rcases hbc with hbc | ⟨rfl, hbc⟩
        · exact .inl (by omega)
        · exact .inl hab
        · exact .inl hbc
        · exact .inr ⟨rfl, ih hab hbc⟩

theorem eq_of_not_isBefore {a b : Text} (hab : a.isBefore b = false) (hba : b.isBefore a = false) :
    a = b := by
  induction a generalizing b with
  | nil => cases b <;> simp_all [isBefore]
  | cons c a ih =>
    cases b with
    | nil => simp [isBefore] at hba
    | cons d b =>
      simp only [isBefore, Bool.or_eq_false_iff, decide_eq_false_iff_not, Nat.not_lt] at hab hba
      obtain rfl : c = d := Char.toNat_inj.1 (Nat.le_antisymm hba.1 hab.1)
      simp only [decide_true, Bool.true_and] at hab hba
      rw [ih hab.2 hba.2]

end Text

structure NameMap (β : Type) where
  entries : List (Text × β)
  ascending : entries.Pairwise fun a b => a.1.isBefore b.1

namespace NameMap

variable {β : Type}

def empty : NameMap β := ⟨[], .nil⟩

def keys (m : NameMap β) : List Text := m.entries.map (·.1)

def values (m : NameMap β) : List β := m.entries.map (·.2)

def size (m : NameMap β) : Nat := m.entries.length

def isEmpty (m : NameMap β) : Bool := m.entries.isEmpty

def find? (m : NameMap β) (name : Text) : Option β :=
  (m.entries.find? (·.1 = name)).map (·.2)

def contains (m : NameMap β) (name : Text) : Bool := m.keys.contains name

def insertEntry (name : Text) (value : β) : List (Text × β) → List (Text × β)
  | [] => [(name, value)]
  | e :: rest =>
    if name.isBefore e.1 then (name, value) :: e :: rest
    else if e.1.isBefore name then e :: insertEntry name value rest
    else (name, value) :: rest

theorem mem_insertEntry {name : Text} {value : β} {l : List (Text × β)} {e : Text × β}
    (h : e ∈ insertEntry name value l) : e = (name, value) ∨ e ∈ l := by
  induction l with
  | nil => simpa [insertEntry] using h
  | cons a l ih =>
    simp only [insertEntry] at h
    split at h
    · simpa using h
    · split at h
      · rcases List.mem_cons.1 h with rfl | h
        · exact .inr (by simp)
        · exact (ih h).imp_right (List.mem_cons_of_mem a)
      · rcases List.mem_cons.1 h with rfl | h
        · exact .inl rfl
        · exact .inr (List.mem_cons_of_mem a h)

theorem insertEntry_ascending (name : Text) (value : β) {l : List (Text × β)}
    (h : l.Pairwise fun a b => a.1.isBefore b.1) :
    (insertEntry name value l).Pairwise fun a b => a.1.isBefore b.1 := by
  induction l with
  | nil => simp [insertEntry]
  | cons e l ih =>
    obtain ⟨first, rest⟩ := List.pairwise_cons.1 h
    simp only [insertEntry]
    split
    · rename_i before
      refine List.pairwise_cons.2 ⟨fun b hb => ?_, h⟩
      rcases List.mem_cons.1 hb with rfl | hb
      · exact before
      · exact Text.isBefore_trans before (first b hb)
    · rename_i notBefore
      split
      · rename_i after
        refine List.pairwise_cons.2 ⟨fun b hb => ?_, ih rest⟩
        rcases mem_insertEntry hb with rfl | hb
        · exact after
        · exact first b hb
      · rename_i notAfter
        have same : name = e.1 :=
          Text.eq_of_not_isBefore (by simpa using notBefore) (by simpa using notAfter)
        exact List.pairwise_cons.2 ⟨fun b hb => same ▸ first b hb, rest⟩

def insert (m : NameMap β) (name : Text) (value : β) : NameMap β :=
  ⟨insertEntry name value m.entries, insertEntry_ascending name value m.ascending⟩

def insertIfNew (m : NameMap β) (name : Text) (value : β) : NameMap β :=
  if m.contains name then m else m.insert name value

def modify (m : NameMap β) (name : Text) (f : β → β) : NameMap β where
  entries := m.entries.map fun e => if e.1 = name then (e.1, f e.2) else e
  ascending := by
    refine List.pairwise_map.2 (m.ascending.imp fun {a b} h => ?_)
    split <;> split <;> exact h

theorem keys_modify (m : NameMap β) (name : Text) (f : β → β) :
    (m.modify name f).keys = m.keys := by
  simp only [keys, modify, List.map_map]
  refine List.map_congr_left fun e _ => ?_
  by_cases h : e.1 = name <;> simp [h]

end NameMap

end SchemaDiagram
