import SchemaDiagram.Proofs.LetterCase

/-!
# Text in upper case

A character that has another upper case is a letter or a number, and its upper case has none of its
own, holds no white space and no mark of a scan. So making a text large a second time changes
nothing, and the structure of a text stays.
-/

namespace SchemaDiagram

def pointBits (points : List Nat) : Nat := points.foldr (fun n others => 1 <<< n ||| others) 0

theorem testBit_pointBits {points : List Nat} {n : Nat} :
    (pointBits points).testBit n ↔ n ∈ points := by
  induction points with
  | nil => simp [pointBits]
  | cons m points ih =>
    rw [pointBits, List.foldr_cons, ← pointBits, Nat.testBit_or, Bool.or_eq_true, ih,
      List.mem_cons, Nat.one_shiftLeft, Nat.testBit_two_pow, decide_eq_true_eq, eq_comm]

theorem not_mem_of_pointBits {these others : List Nat}
    (apart : pointBits these &&& pointBits others = 0) {n : Nat} (h : n ∈ these) : n ∉ others := by
  intro also
  have both : (pointBits these &&& pointBits others).testBit n := by
    rw [Nat.testBit_and, testBit_pointBits.2 h, testBit_pointBits.2 also]
    rfl
  simp [apart] at both

namespace CodePoints

def bits : CodePoints → Nat
  | [] => 0
  | (first, last) :: rest => (1 <<< (last + 1 - first) - 1) <<< first ||| bits rest

/-- Each range begins behind the one in front of it, and the first one not below `bound`. -/
def ascending (bound : Nat) : CodePoints → Bool
  | [] => true
  | (first, last) :: rest => bound ≤ first && ascending (max first last + 1) rest

theorem testBit_bits_cons {first last n : Nat} {rest : CodePoints} :
    (bits ((first, last) :: rest)).testBit n ↔
      first ≤ n ∧ n ≤ last ∨ (bits rest).testBit n := by
  rw [bits, Nat.testBit_or, Bool.or_eq_true, Nat.testBit_shiftLeft, Nat.one_shiftLeft,
    Nat.testBit_two_pow_sub_one, Bool.and_eq_true, decide_eq_true_eq, decide_eq_true_eq]
  refine or_congr_left ?_
  omega

theorem le_of_testBit {ranges : CodePoints} {bound n : Nat} (ordered : ascending bound ranges)
    (h : (bits ranges).testBit n) : bound ≤ n := by
  induction ranges generalizing bound with
  | nil => simp [bits] at h
  | cons range rest ih =>
    obtain ⟨first, last⟩ := range
    rw [ascending, Bool.and_eq_true, decide_eq_true_eq] at ordered
    rcases testBit_bits_cons.1 h with inside | behind
    · omega
    · have later := ih ordered.2 behind
      omega

theorem has_of_testBit {ranges : CodePoints} {bound n : Nat} (ordered : ascending bound ranges)
    (h : (bits ranges).testBit n) : CodePoints.has n ranges := by
  induction ranges generalizing bound with
  | nil => simp [bits] at h
  | cons range rest ih =>
    obtain ⟨first, last⟩ := range
    rw [ascending, Bool.and_eq_true, decide_eq_true_eq] at ordered
    rw [CodePoints.has]
    rcases testBit_bits_cons.1 h with inside | behind
    · simp [Nat.not_lt.2 inside.1, inside.2]
    · have later := le_of_testBit ordered.2 behind
      rw [if_neg (by omega), ih ordered.2 behind, Bool.or_true]

def points (ranges : CodePoints) : List Nat :=
  ranges.flatMap fun range => List.range' range.1 (range.2 + 1 - range.1)

theorem mem_points_of_has {ranges : CodePoints} {n : Nat} (h : CodePoints.has n ranges) :
    n ∈ ranges.points := by
  induction ranges with
  | nil => contradiction
  | cons range rest ih =>
    obtain ⟨first, last⟩ := range
    rw [points, List.flatMap_cons, List.mem_append]
    rw [CodePoints.has] at h
    split at h
    · contradiction
    · next least =>
      rcases Bool.or_eq_true_iff.1 h with most | behind
      · left
        have most := of_decide_eq_true most
        exact List.mem_range'_1.2 (by omega)
      · exact .inr (ih behind)

end CodePoints

namespace Text

namespace CaseRun

def sources (r : CaseRun) : List Nat :=
  (List.range ((r.last - r.first) / r.stride + 1)).map fun k => r.first + k * r.stride

def targets (r : CaseRun) : List Nat :=
  r.sources.map fun n : Nat => ((n : Int) + r.shift).toNat

theorem mem_of_shifted? {r : CaseRun} {n p : Nat} (h : shifted? n r = some p) :
    n ∈ r.sources ∧ p ∈ r.targets := by
  unfold shifted? at h
  split at h
  · next within =>
    obtain ⟨least, most, multiple⟩ := within
    have place : n = r.first + (n - r.first) / r.stride * r.stride := by
      have whole := Nat.div_add_mod' (n - r.first) r.stride
      omega
    have source : n ∈ r.sources := by
      refine List.mem_map.2 ⟨(n - r.first) / r.stride, ?_, place.symm⟩
      have quotients : (n - r.first) / r.stride ≤ (r.last - r.first) / r.stride :=
        Nat.div_le_div_right (by omega)
      exact List.mem_range.2 (by omega)
    exact ⟨source, List.mem_map.2 ⟨n, source, Option.some.inj h⟩⟩
  · contradiction

end CaseRun

def casedPoints : List Nat :=
  List.range' 97 26 ++ upperExpansions.map (·.1) ++ upperRuns.flatMap CaseRun.sources

def capitalPoints : List Nat :=
  List.range' 65 26 ++ upperExpansions.flatMap (·.2) ++ upperRuns.flatMap CaseRun.targets

theorem upperChar_ascii : ∀ n < 0x80, upperChar (Char.ofNat n) = [Char.ofNat n] ∨
    n ∈ List.range' 97 26 ∧ upperChar (Char.ofNat n) = [Char.ofNat (n - 32)] := by
  decide +kernel

theorem upperExpansions_ne_nil : ∀ expansion ∈ upperExpansions, expansion.2 ≠ [] := by
  decide +kernel

/-- A character that has another upper case stands in the tables, and so does its upper case. -/
theorem upperChar_eq_or_cased (c : Char) :
    upperChar c = [c] ∨ c.toNat ∈ casedPoints ∧
      ∃ points, points ≠ [] ∧ upperChar c = points.map Char.ofNat ∧
        ∀ p ∈ points, p ∈ capitalPoints := by
  by_cases ascii : c.toNat < 0x80
  · have table := upperChar_ascii c.toNat ascii
    rw [Char.ofNat_toNat] at table
    refine table.imp_right fun ⟨small, upper⟩ => ⟨?_, [c.toNat - 32], by simp, upper, ?_⟩
    · simp only [casedPoints, List.mem_append]
      exact .inl (.inl small)
    · simp only [capitalPoints, List.forall_mem_singleton, List.mem_append]
      rw [List.mem_range'_1] at small
      exact .inl (.inl (List.mem_range'_1.2 (by omega)))
  · unfold upperChar
    rw [if_neg ascii]
    split
    · next points expands =>
      obtain ⟨before, after, eq, -⟩ := List.lookup_eq_some_iff.1 expands
      have known : (c.toNat, points) ∈ upperExpansions := by
        rw [eq]
        exact List.mem_append_right _ List.mem_cons_self
      refine .inr ⟨?_, points, upperExpansions_ne_nil _ known, rfl, fun p hp => ?_⟩
      · simp only [casedPoints, List.mem_append]
        exact .inl (.inr (List.mem_map_of_mem known))
      · simp only [capitalPoints, List.mem_append]
        exact .inl (.inr (List.mem_flatMap_of_mem known hp))
    · split
      · next point shifts =>
        obtain ⟨r, known, shifted⟩ := List.exists_of_findSome?_eq_some shifts
        obtain ⟨source, target⟩ := CaseRun.mem_of_shifted? shifted
        refine .inr ⟨?_, [point], by simp, rfl, ?_⟩
        · simp only [casedPoints, List.mem_append]
          exact .inr (List.mem_flatMap_of_mem known source)
        · simp only [capitalPoints, List.forall_mem_singleton, List.mem_append]
          exact .inr (List.mem_flatMap_of_mem known target)
      · exact .inl rfl

theorem isWordChar_ascii : ∀ n ∈ casedPoints, n < 0x80 → isWordChar (Char.ofNat n) := by
  decide +kernel

theorem ascending_alphanumericRanges : alphanumericRanges.ascending 0 := by decide +kernel

theorem casedPoints_alphanumeric :
    pointBits casedPoints &&& (alphanumericRanges.bits ||| (1 <<< 0x80 - 1)) =
      pointBits casedPoints := by
  decide +kernel

theorem isWordChar_of_cased {c : Char} (h : c.toNat ∈ casedPoints) : isWordChar c := by
  by_cases ascii : c.toNat < 0x80
  · have word := isWordChar_ascii c.toNat h ascii
    rwa [Char.ofNat_toNat] at word
  · have bit := testBit_pointBits.2 h
    rw [← casedPoints_alphanumeric, Nat.testBit_and, Bool.and_eq_true, Nat.testBit_or,
      Nat.one_shiftLeft, Nat.testBit_two_pow_sub_one, decide_eq_false ascii, Bool.or_false] at bit
    have found := CodePoints.has_of_testBit ascending_alphanumericRanges bit.2
    simp [isWordChar, isAlphanumeric, found, Nat.not_lt.1 ascii]

/-- The characters that open and close literals and groups, and the one that escapes others. -/
def structureMarks : List Char := ['\'', '"', '(', ')', '\\']

theorem upperChar_of_mark : ∀ c ∈ structureMarks, upperChar c = [c] := by decide

theorem capitalPoints_apart : pointBits capitalPoints &&&
    pointBits (casedPoints ++ (blankRanges.points ++ structureMarks.map Char.toNat)) = 0 := by
  decide +kernel

theorem isValidChar_of_capital : ∀ p ∈ capitalPoints, p.isValidChar := by decide +kernel

/-- A character that is its own upper case and no part of a text's structure. -/
structure Capital (c : Char) : Prop where
  settled : upperChar c = [c]
  noBlank : isBlankChar c = false
  noMark : c ∉ structureMarks

theorem capital_ofNat {p : Nat} (h : p ∈ capitalPoints) : Capital (Char.ofNat p) := by
  have point : (Char.ofNat p).toNat = p := by
    rw [Char.ofNat, dif_pos (isValidChar_of_capital p h)]
    rfl
  have apart := not_mem_of_pointBits capitalPoints_apart h
  simp only [List.mem_append, not_or] at apart
  obtain ⟨uncased, noBlank, noMark⟩ := apart
  refine ⟨?_, ?_, ?_⟩
  · rcases upperChar_eq_or_cased (Char.ofNat p) with settled | ⟨cased, -⟩
    · exact settled
    · rw [point] at cased
      contradiction
  · rw [isBlankChar, point, Bool.eq_false_iff]
    exact mt CodePoints.mem_points_of_has noBlank
  · intro mark
    have listed := List.mem_map_of_mem (f := Char.toNat) mark
    rw [point] at listed
    exact noMark listed

/-- Only word characters have another upper case. It is not empty, and none of it changes again. -/
theorem upperChar_eq_or (c : Char) :
    upperChar c = [c] ∨ isWordChar c ∧ upperChar c ≠ [] ∧ ∀ d ∈ upperChar c, Capital d := by
  refine (upperChar_eq_or_cased c).imp_right fun ⟨cased, points, nonempty, upper, capitals⟩ => ?_
  refine ⟨isWordChar_of_cased cased, ?_, ?_⟩
  · rw [upper]
    exact mt List.map_eq_nil_iff.1 nonempty
  · rw [upper, List.forall_mem_map]
    exact fun p hp => capital_ofNat (capitals p hp)

theorem upperChar_of_noWord {c : Char} (h : isWordChar c = false) : upperChar c = [c] := by
  rcases upperChar_eq_or c with same | ⟨word, -⟩
  · exact same
  · rw [h] at word
    contradiction

theorem upperChar_settled {c d : Char} (h : d ∈ upperChar c) : upperChar d = [d] := by
  rcases upperChar_eq_or c with same | ⟨-, -, capitals⟩
  · rw [same, List.mem_singleton] at h
    rwa [h]
  · exact (capitals d h).settled

@[simp] theorem upperFull_nil : upperFull [] = [] := rfl

@[simp] theorem upperFull_cons (c : Char) (t : Text) :
    upperFull (c :: t) = upperChar c ++ upperFull t := rfl

@[simp] theorem upperFull_append (a b : Text) :
    upperFull (a ++ b) = upperFull a ++ upperFull b :=
  List.flatMap_append

theorem upperFull_eq_self {t : Text} (h : ∀ c ∈ t, upperChar c = [c]) : upperFull t = t := by
  induction t with
  | nil => rfl
  | cons c t ih =>
    rw [List.forall_mem_cons] at h
    rw [upperFull_cons, h.1, ih h.2, List.singleton_append]

theorem upperFull_upperFull (t : Text) : upperFull (upperFull t) = upperFull t := by
  apply upperFull_eq_self
  intro d hd
  obtain ⟨c, -, made⟩ := List.mem_flatMap.1 hd
  exact upperChar_settled made

theorem upperFull_no_blank {t : Text} (h : ∀ c ∈ t, isBlankChar c = false) :
    ∀ c ∈ upperFull t, isBlankChar c = false := by
  intro d hd
  obtain ⟨c, mem, made⟩ := List.mem_flatMap.1 hd
  rcases upperChar_eq_or c with same | ⟨-, -, capitals⟩
  · rw [same, List.mem_singleton] at made
    rw [made]
    exact h c mem
  · exact (capitals d made).noBlank

end Text

end SchemaDiagram
