import SchemaDiagram.Proofs.Sql.LetterCase.Tokens
import SchemaDiagram.Proofs.Sql.Types

/-!
# Types and letter case

A type is written in capital letters, however the script spells it, so it is the same for a text and
for the text in lower case.
-/

namespace SchemaDiagram.Sql

open Text (lower)

theorem behindWord?_lower (w t : Text) : behindWord? w (lower t) = (behindWord? w t).map lower := by
  induction w generalizing t with
  | nil =>
    rw [behindWord?, Text.head?_any_lower Text.isWordChar_toLower, behindWord?]
    split <;> rfl
  | cons d w ih =>
    cases t with
    | nil => rfl
    | cons c t =>
      simp only [Text.lower_cons, behindWord?, Text.toLower_toLower, ih]
      split <;> rfl

theorem behindWords?_lower (words : List Text) (t : Text) :
    behindWords? words (lower t) = (behindWords? words t).map lower := by
  induction words generalizing t with
  | nil => rfl
  | cons v words ih =>
    cases words with
    | nil => exact behindWord?_lower v t
    | cons w words =>
      rw [behindWords?, behindWord?_lower, behindWords?]
      · rcases behindWord? v t with _ | _ | ⟨c, rest⟩
        · rfl
        · rfl
        · simp only [Option.map_some, Text.lower_cons, Text.isBlankChar_toLower,
            Text.trimStart_lower, ih]
          split <;> rfl
      · simp
      · simp

theorem dottedWord_lower (started : Bool) (t : Text) :
    dottedWord started (lower t) = Prod.map lower lower (dottedWord started t) := by
  induction t generalizing started with
  | nil => rfl
  | cons c rest ih =>
    simp only [Text.lower_cons, dottedWord, Text.isWordChar_toLower, Text.beq_toLower,
      Char.reduceIsAlpha, Text.head?_any_lower Text.isWordChar_toLower, ih]
    split <;> rfl

theorem typeName?_lower (t : Text) :
    typeName? (lower t) = (typeName? t).map (Prod.map id lower) := by
  have known (words : List Text) :
      (behindWords? words (lower t)).map (fun rest => (Text.join [' '] words, rest)) =
        ((behindWords? words t).map fun rest => (Text.join [' '] words, rest)).map
          (Prod.map id lower) := by
    rw [behindWords?_lower, Option.map_map, Option.map_map]
    rfl
  simp only [typeName?, known, Option.map_or, List.map_findSome?, Function.comp_def,
    dottedWord_lower]
  rcases dottedWord false t with ⟨_ | ⟨c, word⟩, rest⟩
  · rfl
  · simp only [Prod.map, Text.lower_cons, Option.map_some, id]
    rw [← Text.lower_cons, Text.upper_lower]

theorem typeArguments_lower (t : Text) :
    typeArguments (lower t) = Prod.map id lower (typeArguments t) := by
  by_cases opens : (Text.trimStart t).head? = some '('
  · obtain ⟨rest, start⟩ := List.head?_eq_some_iff.1 opens
    simp only [typeArguments, Text.trimStart_lower_cons rfl start, start, closeGroup?_lower]
    rcases closeGroup? rest with _ | ⟨inside, behind⟩
    · rfl
    · have group : '(' :: lower inside ++ [')'] = lower ('(' :: inside ++ [')']) := by
        rw [Text.lower_append, Text.lower_cons]
        rfl
      simp only [Option.map_some, Prod.map, group, Text.upperFull_lower, id]
  · rw [typeArguments_of_head (opens ∘ (Text.head?_trimStart_lower rfl t).1),
      typeArguments_of_head opens]
    rfl

theorem lower_of_digits {t : Text} (h : t.all Text.isAsciiDigit) : lower t = t := by
  have digit (c : Char) (hc : c ∈ t) : c.toLower = c := by
    have same : ∀ d ∈ ['0', '1', '2', '3', '4', '5', '6', '7', '8', '9'], d.toLower = d := by
      decide
    exact same c (mem_digits (List.all_eq_true.1 h c hc))
  rw [lower, List.map_congr_left digit, List.map_id']

theorem arraySuffix?_lower (t : Text) :
    arraySuffix? (lower t) = (arraySuffix? t).map (Prod.map id lower) := by
  have inside (c : Char) : decide (c.toLower ≠ ']') = decide (c ≠ ']') := by
    simp [Text.toLower_eq_iff]
  by_cases opens : (Text.trimStart t).head? = some '['
  · obtain ⟨rest, start⟩ := List.head?_eq_some_iff.1 opens
    have taken := Text.takeWhile_lower (p := fun c => decide (c ≠ ']')) inside rest
    have left := Text.dropWhile_lower (p := fun c => decide (c ≠ ']')) inside rest
    simp only [arraySuffix?, Text.trimStart_lower_cons rfl start, start, taken, left,
      Text.trim_lower, Text.all_lower Text.isAsciiDigit_toLower]
    rcases rest.dropWhile (· ≠ ']') with _ | ⟨c, behind⟩
    · rfl
    · -- A suffix holds no letters, so it is not only equal up to case but the same.
      by_cases digits : (Text.trim (rest.takeWhile (· ≠ ']'))).all Text.isAsciiDigit
      · simp only [Text.lower_cons, if_pos digits, lower_of_digits digits]
        rfl
      · simp only [Text.lower_cons, if_neg digits]
        rfl
  · rw [arraySuffix?_of_head (opens ∘ (Text.head?_trimStart_lower rfl t).1),
      arraySuffix?_of_head opens]
    rfl

theorem arraySuffixes_lower (t : Text) :
    arraySuffixes (lower t) = Prod.map id lower (arraySuffixes t) := by
  fun_induction arraySuffixes t with
  | case1 t ended =>
    rw [arraySuffixes_eq, arraySuffix?_lower, ended]
    rfl
  | case2 t suffix rest found others left behind ih =>
    rw [arraySuffixes_eq, arraySuffix?_lower, found]
    simp only [Option.map_some, Prod.map, id, ih, behind]

def ColumnType.lowered (type : ColumnType) : ColumnType := { type with rest := lower type.rest }

theorem columnType?_lower (t : Text) :
    columnType? (lower t) = (columnType? t).map ColumnType.lowered := by
  have nonblank (c : Char) : (!Text.isBlankChar c.toLower) = !Text.isBlankChar c := by
    rw [Text.isBlankChar_toLower]
  by_cases blank : Text.trimStart t = []
  · have blank' : Text.trimStart (lower t) = [] := by
      rw [Text.trimStart_lower, blank]
      rfl
    rw [columnType?, blank', columnType?, blank]
    rfl
  · have blank' : Text.trimStart (lower t) ≠ [] := by
      rwa [Text.trimStart_lower, ne_eq, lower, List.map_eq_nil_iff]
    rw [columnType?_eq blank', columnType?_eq blank, Text.trimStart_lower, typeName?_lower,
      Text.takeWhile_lower nonblank, Text.dropWhile_lower nonblank, Text.upperFull_lower]
    rcases typeName? (Text.trimStart t) with _ | ⟨base, rest⟩
    · rfl
    · simp only [Option.map_some, Prod.map, id, typeArguments_lower, arraySuffixes_lower]
      split <;> rfl

end SchemaDiagram.Sql
