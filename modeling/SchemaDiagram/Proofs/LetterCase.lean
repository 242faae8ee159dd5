import SchemaDiagram.Proofs.Letters
import SchemaDiagram.Text.Alphanumeric
import SchemaDiagram.Text.Upper

/-!
# Text in lower case

White space, letters, digits and the upper case of a text are the same before and after its letters
are made small, so text that is cut at such characters is cut at the same places.
-/

namespace SchemaDiagram.Text

theorem toLower_congr {α : Type} {f : Char → α}
    (letters : ∀ k < 26, f (Char.ofNat (97 + k)) = f (Char.ofNat (65 + k))) (c : Char) :
    f c.toLower = f c := by
  unfold Char.toLower
  split
  · next upper =>
    have least : 65 ≤ c.val.toNat := UInt32.le_iff_toNat_le.1 upper.1
    have most : c.val.toNat ≤ 90 := UInt32.le_iff_toNat_le.1 upper.2
    have lowered := toNat_lowered most
    obtain ⟨k, hk⟩ := Nat.exists_eq_add_of_le least
    have same := letters k (by omega)
    have small : c.val.toNat + 32 = 97 + k := by omega
    have back (d : Char) : Char.ofNat d.val.toNat = d := Char.ofNat_toNat d
    rw [← small, ← lowered, ← hk] at same
    rwa [back c, back ⟨_, _⟩] at same
  · rfl

theorem beq_toLower {d : Char} (notLetter : d.isAlpha = false) (c : Char) :
    (c.toLower == d) = (c == d) := by
  rw [Bool.eq_iff_iff, beq_iff_eq, beq_iff_eq, toLower_eq_iff notLetter]

@[simp] theorem isBlankChar_toLower (c : Char) : isBlankChar c.toLower = isBlankChar c :=
  toLower_congr (by decide) c

@[simp] theorem isAsciiDigit_toLower (c : Char) : isAsciiDigit c.toLower = isAsciiDigit c :=
  toLower_congr (by decide) c

@[simp] theorem isAlphanumeric_toLower (c : Char) : isAlphanumeric c.toLower = isAlphanumeric c :=
  toLower_congr (by decide) c

@[simp] theorem isWordChar_toLower (c : Char) : isWordChar c.toLower = isWordChar c :=
  toLower_congr (by decide) c

@[simp] theorem toLower_toLower (c : Char) : c.toLower.toLower = c.toLower :=
  toLower_congr (by decide) c

theorem upperChar_toLower (c : Char) : upperChar c.toLower = upperChar c :=
  toLower_congr (by decide) c

@[simp] theorem lower_nil : lower [] = [] := rfl

@[simp] theorem lower_cons (c : Char) (t : Text) : lower (c :: t) = c.toLower :: lower t := rfl

@[simp] theorem lower_append (a b : Text) : lower (a ++ b) = lower a ++ lower b :=
  List.map_append

@[simp] theorem length_lower (t : Text) : (lower t).length = t.length :=
  List.length_map _

@[simp] theorem isEmpty_lower (t : Text) : (lower t).isEmpty = t.isEmpty := by
  cases t <;> rfl

theorem lower_lower (t : Text) : lower (lower t) = lower t := by
  simp [lower, Function.comp_def]

theorem upper_lower (t : Text) : upper (lower t) = upper t := by
  have capital (c : Char) : c.toLower.toUpper = c.toUpper := toLower_congr (by decide) c
  simp [lower, upper, Function.comp_def, capital]

theorem upperFull_lower (t : Text) : upperFull (lower t) = upperFull t := by
  simp [lower, upperFull, List.flatMap_map, upperChar_toLower]

theorem takeWhile_lower {p : Char → Bool} (hp : ∀ c, p c.toLower = p c) (t : Text) :
    (lower t).takeWhile p = lower (t.takeWhile p) := by
  simp [lower, List.takeWhile_map, Function.comp_def, hp]

theorem dropWhile_lower {p : Char → Bool} (hp : ∀ c, p c.toLower = p c) (t : Text) :
    (lower t).dropWhile p = lower (t.dropWhile p) := by
  simp [lower, List.dropWhile_map, Function.comp_def, hp]

theorem exists_of_lower_eq_cons {d : Char} (notLetter : d.isAlpha = false) {t rest : Text}
    (h : lower t = d :: rest) : ∃ rest', t = d :: rest' := by
  obtain ⟨c, rest', rfl, first, -⟩ := List.map_eq_cons_iff.1 h
  exact ⟨rest', by rw [(toLower_eq_iff notLetter).1 first]⟩

theorem head?_lower {d : Char} (notLetter : d.isAlpha = false) (t : Text) :
    (lower t).head? = some d ↔ t.head? = some d := by
  cases t <;> simp [toLower_eq_iff notLetter]

theorem head?_any_lower {p : Char → Bool} (hp : ∀ c, p c.toLower = p c) (t : Text) :
    (lower t).head?.any p = t.head?.any p := by
  cases t <;> simp [hp]

theorem all_lower {p : Char → Bool} (hp : ∀ c, p c.toLower = p c) (t : Text) :
    (lower t).all p = t.all p := by
  simp [lower, List.all_map, Function.comp_def, hp]

theorem trimStart_lower (t : Text) : trimStart (lower t) = lower (trimStart t) :=
  dropWhile_lower isBlankChar_toLower t

theorem trimStart_lower_cons {d : Char} (notLetter : d.isAlpha = false) {t rest : Text}
    (h : trimStart t = d :: rest) : trimStart (lower t) = d :: lower rest := by
  rw [trimStart_lower, h, lower_cons, (toLower_eq_iff notLetter).2 rfl]

theorem head?_trimStart_lower {d : Char} (notLetter : d.isAlpha = false) (t : Text) :
    (trimStart (lower t)).head? = some d ↔ (trimStart t).head? = some d := by
  rw [trimStart_lower, head?_lower notLetter]

theorem reverse_lower (t : Text) : (lower t).reverse = lower t.reverse :=
  List.map_reverse.symm

theorem trim_lower (t : Text) : trim (lower t) = lower (trim t) := by
  rw [trim, trimStart_lower, trimEnd, reverse_lower, dropWhile_lower isBlankChar_toLower,
    reverse_lower, trim, trimEnd]

theorem sameName_lower_left (a b : Text) : SameName (lower a) b ↔ SameName a b := by
  rw [SameName, lower_lower, SameName]

theorem sameName_lower (a b : Text) : SameName (lower a) (lower b) ↔ SameName a b := by
  rw [SameName, lower_lower, lower_lower, SameName]

theorem isAmong_lower_left (word : Text) (words : List Text) :
    isAmong (lower word) words = isAmong word words := by
  simp [isAmong, sameName_lower_left]

theorem isAmong_lower (word : Text) (words : List Text) :
    isAmong (lower word) (words.map lower) = isAmong word words := by
  simp [isAmong, sameName_lower, Function.comp_def]

end SchemaDiagram.Text
