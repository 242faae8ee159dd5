import SchemaDiagram.Text.Blank

/-!
# Letters and blanks

Making letters small changes nothing but letters. Trimming changes nothing but blank ends.
-/

namespace SchemaDiagram.Text

/-- What holds for all characters of a text is decided by going through the text, not through all
characters there are. -/
instance {p : Char → Prop} [DecidablePred p] (t : Text) : Decidable (∀ c ∈ t, p c) :=
  List.decidableBAll p t

theorem toNat_lowered {c : Char} (most : c.val.toNat ≤ 90) :
    (c.val + ('a'.val - 'A'.val)).toNat = c.val.toNat + 32 := by
  rw [UInt32.toNat_add, show ('a'.val - 'A'.val).toNat = 32 from rfl]
  exact Nat.mod_eq_of_lt (by omega)

theorem toLower_eq_iff {c d : Char} (notLetter : d.isAlpha = false) : c.toLower = d ↔ c = d := by
  have letters :
      (65 ≤ d.val.toNat → 90 < d.val.toNat) ∧ (97 ≤ d.val.toNat → 122 < d.val.toNat) := by
    have outside : (decide ('A'.val ≤ d.val ∧ d.val ≤ 'Z'.val) ||
        decide ('a'.val ≤ d.val) && decide (d.val ≤ 'z'.val)) = false := notLetter
    simpa [UInt32.le_iff_toNat_le, UInt32.lt_iff_toNat_lt] using outside
  unfold Char.toLower
  split
  · next upper =>
    have least : 65 ≤ c.val.toNat := UInt32.le_iff_toNat_le.1 upper.1
    have most : c.val.toNat ≤ 90 := UInt32.le_iff_toNat_le.1 upper.2
    have lowered := toNat_lowered most
    constructor
    · rintro rfl
      dsimp only at letters
      omega
    · rintro rfl
      omega
  · rfl

theorem mem_lower {d : Char} (notLetter : d.isAlpha = false) {t : Text} : d ∈ lower t ↔ d ∈ t := by
  simp [lower, toLower_eq_iff notLetter]

theorem trimStart_eq_self {t : Text} (h : ∀ c ∈ t.head?, isBlankChar c = false) :
    trimStart t = t := by
  cases t with
  | nil => rfl
  | cons c t => exact List.dropWhile_cons_of_neg (by simp [h c rfl])

theorem trim_eq_self {t : Text} (first : ∀ c ∈ t.head?, isBlankChar c = false)
    (last : ∀ c ∈ t.getLast?, isBlankChar c = false) : trim t = t := by
  have back : t.reverse.dropWhile isBlankChar = t.reverse :=
    trimStart_eq_self (by rwa [List.head?_reverse])
  rw [trim, trimStart_eq_self first, trimEnd, back, List.reverse_reverse]

theorem exists_blank_of_dropWhile (t : Text) :
    ∃ front, t = front ++ trimStart t ∧ ∀ c ∈ front, isBlankChar c :=
  ⟨t.takeWhile isBlankChar, List.takeWhile_append_dropWhile.symm,
    fun c hc => List.all_eq_true.1 List.all_takeWhile c hc⟩

theorem exists_trim (t : Text) :
    ∃ front back, t = front ++ (trim t ++ back) ∧ (∀ c ∈ front, isBlankChar c) ∧
      ∀ c ∈ back, isBlankChar c := by
  obtain ⟨front, whole, blankFront⟩ := exists_blank_of_dropWhile t
  obtain ⟨back, rest, blankBack⟩ := exists_blank_of_dropWhile (trimStart t).reverse
  refine ⟨front, back.reverse, ?_, blankFront, fun c hc => blankBack c (List.mem_reverse.1 hc)⟩
  have inner : trimStart t = trim t ++ back.reverse := by
    rw [← List.reverse_inj, rest, List.reverse_append, List.reverse_reverse, trim, trimEnd,
      List.reverse_reverse]
    rfl
  rw [← inner, ← whole]

theorem trim_of_isBlank {t : Text} (h : isBlank t) : trim t = [] := by
  have start := @List.dropWhile_append_of_pos _ isBlankChar t [] (List.all_eq_true.1 h)
  rw [List.append_nil] at start
  rw [trim, trimStart, start]
  rfl

end SchemaDiagram.Text
