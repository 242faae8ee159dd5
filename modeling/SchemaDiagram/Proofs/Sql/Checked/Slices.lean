import SchemaDiagram.Proofs.Sql.Spans

/-!
# Checked slices

Text can also be cut by offsets in bytes. Then a cut can fail, and whoever cuts has to know that his
offsets are good.
-/

namespace SchemaDiagram.Sql

/-- What can be wrong about an access to a text or to a list. -/
inductive Fault where
  /-- An offset behind the end or within a character, or an end before its start. -/
  | slice
  /-- An element that is not there. -/
  | index
  /-- A loop that goes on without having moved on. -/
  | stuck
  deriving DecidableEq, Repr

abbrev Checked (α : Type) : Type := Except Fault α

namespace Checked

theorem ok_bind {α β : Type} (a : α) (f : α → Checked β) : (Except.ok a >>= f) = f a := rfl

/-- Does not fault, and what comes out stands in the relation to `b`. -/
def Gives {α β : Type} (R : α → β → Prop) (c : Checked α) (b : β) : Prop := ∃ a, c = .ok a ∧ R a b

namespace Gives

variable {α β γ δ : Type} {R : α → β → Prop} {S : γ → δ → Prop}

theorem pure {a : α} {b : β} (h : R a b) : Gives R (pure a) b := ⟨a, rfl, h⟩

theorem bind {c : Checked α} {b : β} {f : α → Checked γ} {d : δ} (h : Gives R c b)
    (k : ∀ a, R a b → Gives S (f a) d) : Gives S (c >>= f) d := by
  obtain ⟨a, rfl, related⟩ := h
  exact k a related

theorem next {c : Checked α} {a : α} {f : α → Checked γ} {d : δ} (h : c = .ok a)
    (k : Gives S (f a) d) : Gives S (c >>= f) d := by
  rwa [h]

theorem option {c : Checked (Option α)} {o : Option β} {f : Option α → Checked γ} {d : δ}
    (h : Gives (Option.Rel R) c o) (none : o = none → Gives S (f none) d)
    (some : ∀ a b, o = some b → R a b → Gives S (f (some a)) d) : Gives S (c >>= f) d := by
  obtain ⟨found, rfl, related⟩ := h
  cases o with
  | none =>
    cases related
    exact none rfl
  | some b =>
    cases related with
    | some related => exact some _ b rfl related

theorem mono {c : Checked α} {b : β} {T : α → δ → Prop} {d : δ} (h : Gives R c b)
    (k : ∀ a, R a b → T a d) : Gives T c d := by
  obtain ⟨a, rfl, related⟩ := h
  exact ⟨a, rfl, k a related⟩

end Gives

/-- The text in front of an offset and the text behind it. -/
def cutAt? : Nat → Text → Option (Text × Text)
  | 0, t => some ([], t)
  | _ + 1, [] => none
  | n + 1, c :: t =>
    if c.utf8Size ≤ n + 1 then
      (cutAt? (n + 1 - c.utf8Size) t).map fun (before, behind) => (c :: before, behind)
    else none

def sliceFrom (t : Text) (start : Nat) : Checked Text :=
  match cutAt? start t with
  | some (_, behind) => .ok behind
  | none => .error .slice

def slice (t : Text) (start stop : Nat) : Checked Text := do
  let behind ← sliceFrom t start
  if stop < start then throw .slice
  else
    match cutAt? (stop - start) behind with
    | some (before, _) => return before
    | none => throw .slice

def first {α : Type} : List α → Checked α
  | [] => .error .index
  | a :: _ => .ok a

theorem first_of_ne_nil {α : Type} {as : List α} (some : as ≠ []) : ∃ a, first as = .ok a := by
  cases as with
  | nil => contradiction
  | cons a as => exact ⟨a, rfl⟩

theorem cutAt?_append (a b : Text) : cutAt? a.byteLength (a ++ b) = some (a, b) := by
  induction a with
  | nil => rw [Text.byteLength_nil, cutAt?.eq_def]; rfl
  | cons c a ih =>
    obtain ⟨n, size⟩ := Nat.exists_eq_add_of_lt (Text.byteLength_pos (t := c :: a) (by simp))
    rw [Nat.zero_add] at size
    have behind : n + 1 - c.utf8Size = Text.byteLength a := by
      rw [← size, Text.byteLength_cons]
      omega
    have within : c.utf8Size ≤ n + 1 := by
      rw [← size, Text.byteLength_cons]
      omega
    rw [size, List.cons_append, cutAt?, if_pos within, behind, ih]
    rfl

theorem cutAt?_eq_some {n : Nat} {t a b : Text} (h : cutAt? n t = some (a, b)) :
    t = a ++ b ∧ n = a.byteLength := by
  induction t generalizing n a with
  | nil =>
    cases n with
    | zero =>
      obtain ⟨rfl, rfl⟩ : [] = a ∧ [] = b := by simpa [cutAt?] using h
      exact ⟨rfl, rfl⟩
    | succ n => simp [cutAt?] at h
  | cons c t ih =>
    cases n with
    | zero =>
      obtain ⟨rfl, rfl⟩ : [] = a ∧ c :: t = b := by simpa [cutAt?] using h
      exact ⟨rfl, rfl⟩
    | succ n =>
      rw [cutAt?] at h
      split at h
      · next within =>
        obtain ⟨⟨front, back⟩, cut, same⟩ := Option.map_eq_some_iff.1 h
        obtain ⟨rfl, rfl⟩ : c :: front = a ∧ back = b := by simpa using same
        obtain ⟨rfl, size⟩ := ih cut
        refine ⟨rfl, ?_⟩
        rw [Text.byteLength_cons]
        omega
      · contradiction

/-- From the offset on, the text is `t`. -/
def StartsAt (text : Text) (offset : Nat) (t : Text) : Prop :=
  ∃ front : Text, text = front ++ t ∧ offset = front.byteLength

namespace StartsAt

variable {text t a : Text} {offset : Nat}

theorem start (t : Text) : StartsAt t 0 t := ⟨[], rfl, rfl⟩

theorem stop (t : Text) : StartsAt t t.byteLength [] := ⟨t, by simp, rfl⟩

theorem behind (h : StartsAt text offset (a ++ t)) : StartsAt text (offset + a.byteLength) t := by
  obtain ⟨front, rfl, rfl⟩ := h
  exact ⟨front ++ a, by simp, by simp⟩

theorem trans {rest : Text} {inner : Nat} (h : StartsAt text offset t) (k : StartsAt t inner rest) :
    StartsAt text (offset + inner) rest := by
  obtain ⟨front, rfl, rfl⟩ := k
  exact h.behind

theorem behind_cons {c : Char} (h : StartsAt text offset (c :: t)) :
    StartsAt text (offset + c.utf8Size) t :=
  h.behind (a := [c])

theorem add_byteLength (h : StartsAt text offset t) : offset + t.byteLength = text.byteLength := by
  obtain ⟨front, rfl, rfl⟩ := h
  rw [Text.byteLength_append]

theorem unique {other : Nat} (h : StartsAt text offset t) (k : StartsAt text other t) :
    offset = other := by
  have := h.add_byteLength
  have := k.add_byteLength
  omega

theorem le_byteLength (h : StartsAt text offset t) : offset ≤ text.byteLength := by
  rw [← h.add_byteLength]
  exact Nat.le_add_right _ _

theorem lt_of_shorter {rest : Text} {stop : Nat} (h : StartsAt text offset t)
    (k : StartsAt text stop rest) (shorter : rest.length < t.length) : offset < stop := by
  obtain ⟨front, rfl, rfl⟩ := h
  obtain ⟨longer, same, rfl⟩ := k
  obtain ⟨between, rfl, rfl⟩ | ⟨between, rfl, rfl⟩ := List.append_eq_append_iff.1 same
  · rw [List.length_append] at shorter
    have positive : 0 < Text.byteLength between := by
      apply Text.byteLength_pos
      rintro rfl
      simp at shorter
    rw [Text.byteLength_append]
    omega
  · rw [List.length_append] at shorter
    omega

theorem sliceFrom (h : StartsAt text offset t) : sliceFrom text offset = .ok t := by
  obtain ⟨front, rfl, rfl⟩ := h
  rw [Checked.sliceFrom, cutAt?_append]

theorem slice (h : StartsAt text offset (a ++ t)) :
    slice text offset (offset + a.byteLength) = .ok a := by
  have ordered : ¬ offset + a.byteLength < offset := by omega
  rw [Checked.slice, h.sliceFrom, ok_bind, if_neg ordered, Nat.add_sub_cancel_left, cutAt?_append]
  rfl

end StartsAt

/-- Nothing but a text between characters can be sliced, with its end behind its start. -/
theorem slice_eq_ok {text a : Text} {start stop : Nat} :
    slice text start stop = .ok a ↔
      ∃ front back, text = front ++ (a ++ back) ∧
        start = Text.byteLength front ∧ stop = start + a.byteLength := by
  constructor
  · intro sliced
    rw [slice, sliceFrom] at sliced
    split at sliced
    · next front behind cut =>
      obtain ⟨rfl, rfl⟩ := cutAt?_eq_some cut
      rw [ok_bind] at sliced
      split at sliced
      · contradiction
      · next ordered =>
        split at sliced
        · next before back inner =>
          obtain rfl := Except.ok.inj sliced
          obtain ⟨rfl, size⟩ := cutAt?_eq_some inner
          exact ⟨front, back, rfl, rfl, by omega⟩
        · contradiction
    · contradiction
  · rintro ⟨front, back, rfl, rfl, rfl⟩
    exact StartsAt.slice ⟨front, rfl, rfl⟩

example : slice (Text.ofString "é)") 2 3 = .ok (Text.ofString ")") := rfl

example : slice (Text.ofString "é)") 1 3 = .error .slice := rfl

theorem StartsAt.eq_of_slice {text t a : Text} {offset stop : Nat} (h : StartsAt text offset t)
    (sliced : Checked.slice text offset stop = .ok a) :
    ∃ rest, t = a ++ rest ∧ stop = offset + a.byteLength := by
  obtain ⟨front, rfl, rfl⟩ := h
  obtain ⟨other, back, same, size, stop⟩ := slice_eq_ok.1 sliced
  exact ⟨back, (Text.append_inj_of_byteLength same size).2, stop⟩

end Checked

end SchemaDiagram.Sql
