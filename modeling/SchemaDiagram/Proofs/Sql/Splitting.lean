import Mathlib.Data.List.Basic
import SchemaDiagram.Proofs.Sql.Segments

/-!
# Cutting lists at their commas

A text is cut at the commas that stand outside literals while no parenthesis is open. Behind such a
comma the scan is where it started, so the text behind it is cut as it would be on its own: a piece
is never cut again, and two texts with a cut between them are cut one after the other.
-/

namespace SchemaDiagram.Sql

/-- The scan of the text ends outside literals at depth zero. -/
def Returns (t : Text) : Prop :=
  (Scan.start.run t).inLiteral = false ∧ (Scan.start.run t).depth = 0

instance (t : Text) : Decidable (Returns t) := inferInstanceAs (Decidable (_ ∧ _))

theorem returns_iff {t : Text} : Returns t ↔ Scan.start.run t = .start := by
  rw [Returns, Scan.inLiteral]
  generalize Scan.start.run t = s
  obtain ⟨place, depth⟩ := s
  simp [Scan.start]

/-- A list is cut at no comma of the text. -/
def Uncut (t : Text) : Prop := Scan.start.avoids Scan.cuts t

instance (t : Text) : Decidable (Uncut t) := inferInstanceAs (Decidable (_ = true))

namespace Scan

variable {stop : Scan → Char → Bool} {s : Scan} {t : Text}

theorem avoids_iff : s.avoids stop t ↔ ∀ a c b, t = a ++ c :: b → stop (s.run a) c = false := by
  induction t generalizing s with
  | nil =>
    constructor
    · intro _ a c b text
      simp at text
    · intro _
      rfl
  | cons d t ih =>
    rw [avoids, Bool.and_eq_true, Bool.not_eq_true', ih]
    constructor
    · rintro ⟨first, behind⟩ a c b text
      cases a with
      | nil =>
        obtain ⟨rfl, -⟩ := List.cons.inj text
        exact first
      | cons e a =>
        obtain ⟨rfl, rest⟩ := List.cons.inj text
        exact behind a c b rest
    · intro h
      constructor
      · exact h [] d t rfl
      · intro a c b text
        exact h (d :: a) c b (by rw [text, List.cons_append])

theorem exists_stop (h : ¬ s.avoids stop t) :
    ∃ a c b, t = a ++ c :: b ∧ s.avoids stop a ∧ stop (s.run a) c := by
  induction t generalizing s with
  | nil => exact absurd rfl h
  | cons d t ih =>
    by_cases first : stop s d
    · exact ⟨[], d, t, rfl, rfl, first⟩
    · have behind : ¬ (s.step d).avoids stop t := by
        intro avoids
        apply h
        simp [Scan.avoids, first, avoids]
      obtain ⟨a, c, b, rfl, avoids, stops⟩ := ih behind
      refine ⟨d :: a, c, b, rfl, ?_, stops⟩
      simp [Scan.avoids, first, avoids]

theorem cuts_iff {c : Char} : s.cuts c ↔ c = ',' ∧ s = .start := by
  obtain ⟨place, depth⟩ := s
  rw [cuts, decide_eq_true_iff]
  constructor
  · rintro ⟨comma, rfl⟩
    obtain rfl := eq_of_mark_comma comma
    cases place with
    | plain => exact ⟨rfl, rfl⟩
    | literal => contradiction
  · rintro ⟨rfl, same⟩
    rw [same]
    exact ⟨rfl, rfl⟩

end Scan

theorem uncut_iff {t : Text} : Uncut t ↔ ∀ a b, t = a ++ ',' :: b → ¬ Returns a := by
  rw [Uncut, Scan.avoids_iff]
  constructor
  · intro h a b text returns
    have stays := h a ',' b text
    rw [Scan.cuts_iff.2 ⟨rfl, returns_iff.1 returns⟩] at stays
    contradiction
  · intro h a c b text
    rw [Bool.eq_false_iff]
    intro stops
    obtain ⟨rfl, back⟩ := Scan.cuts_iff.1 stops
    exact h a b text (returns_iff.2 back)

/-- Behind a comma at which a list is cut, the scan starts anew. -/
theorem returns_append_comma {a : Text} (h : Returns a) (b : Text) :
    Returns (a ++ ',' :: b) ↔ Returns b := by
  rw [returns_iff, returns_iff, Scan.run_append, returns_iff.1 h]
  rfl

/-- The text is these pieces, with a cut between any two neighbours. -/
inductive CutInto : Text → List Text → Prop where
  | whole {t} : Uncut t → CutInto t [t]
  | comma {p t ps} : Uncut p → Returns p → CutInto t ps → CutInto (p ++ ',' :: t) (p :: ps)

theorem cutInto_pieces (t : Text) : CutInto t (pieces t) := by
  by_cases uncut : Uncut t
  · rw [pieces_of_uncut uncut]
    exact .whole uncut
  · obtain ⟨a, c, b, rfl, first, stops⟩ := Scan.exists_stop uncut
    obtain ⟨rfl, back⟩ := Scan.cuts_iff.1 stops
    rw [pieces_append_comma back, pieces_of_uncut first]
    exact .comma first (returns_iff.2 back) (cutInto_pieces b)
termination_by t.length
decreasing_by
  subst_vars
  simp only [List.length_append, List.length_cons]
  omega

theorem pieces_ne_nil (t : Text) : pieces t ≠ [] := List.cons_ne_nil _ _

theorem join_comma_cons {p : Text} {ps : List Text} (some : ps ≠ []) :
    Text.join [','] (p :: ps) = p ++ ',' :: Text.join [','] ps := by
  obtain ⟨q, ps, rfl⟩ := List.exists_cons_of_ne_nil some
  simp [Text.join, List.intercalate_cons_cons]

namespace CutInto

variable {t : Text} {ps qs : List Text}

theorem eq_pieces (h : CutInto t ps) : ps = pieces t := by
  induction h with
  | whole uncut => exact (pieces_of_uncut uncut).symm
  | comma uncut returns _ ih =>
    rw [pieces_append_comma (returns_iff.1 returns), pieces_of_uncut uncut, ih]
    rfl

theorem unique (h : CutInto t ps) (h' : CutInto t qs) : ps = qs :=
  h.eq_pieces.trans h'.eq_pieces.symm

theorem ne_nil (h : CutInto t ps) : ps ≠ [] := by
  cases h <;> exact List.cons_ne_nil _ _

theorem join (h : CutInto t ps) : Text.join [','] ps = t := by
  induction h with
  | whole => simp [Text.join]
  | comma _ _ behind ih => rw [join_comma_cons behind.ne_nil, ih]

theorem uncut (h : CutInto t ps) : ∀ p ∈ ps, Uncut p := by
  induction h with
  | whole uncut => exact List.forall_mem_singleton.2 uncut
  | comma uncut _ _ ih => exact List.forall_mem_cons.2 ⟨uncut, ih⟩

/-- In front of a further piece, the scan has come back to its start. -/
theorem returns (h : CutInto t (ps ++ qs)) (some : ps ≠ []) (more : qs ≠ []) :
    Returns (Text.join [','] ps) := by
  induction ps generalizing t with
  | nil => contradiction
  | cons p ps ih =>
    generalize whole : p :: ps ++ qs = pieces at h
    cases h with
    | whole => simp_all
    | @comma _ t _ _ returns behind =>
      obtain ⟨rfl, rfl⟩ := List.cons.inj whole
      by_cases last : ps = []
      · rw [last]
        simpa [Text.join] using returns
      · rw [join_comma_cons last, returns_append_comma returns]
        exact ih behind last

end CutInto

theorem dropBlankLast_append (ps : List Text) {qs : List Text} (some : qs ≠ []) :
    dropBlankLast (ps ++ qs) = ps ++ dropBlankLast qs := by
  induction ps with
  | nil => rfl
  | cons p ps ih =>
    have more : ps ++ qs ≠ [] := List.append_ne_nil_of_right_ne_nil ps some
    rw [List.cons_append, dropBlankLast, ih, List.cons_append]
    exact more

theorem dropBlankLast_prefix_self (ps : List Text) : dropBlankLast ps <+: ps := by
  fun_induction dropBlankLast ps with
  | case1 => exact List.prefix_refl _
  | case2 => exact List.nil_prefix
  | case3 => exact List.prefix_refl _
  | case4 p ps _ ih => exact (List.prefix_cons_inj p).2 ih

theorem splitTopLevel_of_uncut {t : Text} (h : Uncut t) :
    splitTopLevel t = if Text.isBlank t then [] else [t] := by
  rw [splitTopLevel, pieces_of_uncut h, dropBlankLast]

theorem splitTopLevel_append_comma {a : Text} (h : Returns a) (b : Text) :
    splitTopLevel (a ++ ',' :: b) = pieces a ++ splitTopLevel b := by
  rw [splitTopLevel, pieces_append_comma (returns_iff.1 h),
    dropBlankLast_append _ (pieces_ne_nil b)]
  rfl

theorem mem_pieces_of_mem_splitTopLevel {t p : Text} (h : p ∈ splitTopLevel t) : p ∈ pieces t :=
  (dropBlankLast_prefix_self (pieces t)).subset h

/-- The parts that stand in front of a comma end there just if the text is cut there. -/
theorem returns_iff_exists_parts (a b : Text) :
    Returns a ↔ ∃ ps, ps ≠ [] ∧ ps <+: splitTopLevel (a ++ ',' :: b) ∧ Text.join [','] ps = a := by
  constructor
  · intro returns
    refine ⟨pieces a, pieces_ne_nil a, ?_, (cutInto_pieces a).join⟩
    rw [splitTopLevel_append_comma returns]
    exact List.prefix_append _ _
  · rintro ⟨ps, some, front, rfl⟩
    obtain ⟨qs, eq⟩ := front.trans (dropBlankLast_prefix_self _)
    have cut := cutInto_pieces (Text.join [','] ps ++ ',' :: b)
    rw [← eq] at cut
    refine cut.returns some ?_
    -- were these all pieces, they would be all of the text
    rintro rfl
    have whole := cut.join
    rw [List.append_nil] at whole
    simpa using congrArg List.length whole

theorem join_splitTopLevel {a b : Text} (returns : Returns a) (uncut : Uncut b) :
    Text.join [','] (splitTopLevel (a ++ ',' :: b)) =
      if Text.isBlank b then a else a ++ ',' :: b := by
  rw [splitTopLevel_append_comma returns, splitTopLevel_of_uncut uncut]
  by_cases blank : Text.isBlank b
  · rw [if_pos blank, if_pos blank, List.append_nil, (cutInto_pieces a).join]
  · have whole := (cutInto_pieces (a ++ ',' :: b)).join
    rw [pieces_append_comma (returns_iff.1 returns), pieces_of_uncut uncut] at whole
    rw [if_neg blank, if_neg blank, whole]

/-- A list is cut just at the commas that stand outside literals at depth zero, and nothing else of
it is lost than a blank text behind the last of them, with that comma. Parts are whole: none of them
is cut again. In front of a cut all pieces are kept, and the text behind it is cut on its own. -/
theorem splitTopLevel_cuts (t : Text) :
    (∀ a b, t = a ++ ',' :: b → Returns a → (∀ x y, b = x ++ ',' :: y → ¬ Returns (a ++ ',' :: x)) →
      Text.join [','] (splitTopLevel t) = if Text.isBlank b then a else t) ∧
    ((∀ a b, t = a ++ ',' :: b → ¬ Returns a) →
      splitTopLevel t = if Text.isBlank t then [] else [t]) ∧
    (∀ a b, t = a ++ ',' :: b →
      (Returns a ↔ ∃ ps, ps ≠ [] ∧ ps <+: splitTopLevel t ∧ Text.join [','] ps = a)) ∧
    (∀ p ∈ splitTopLevel t, splitTopLevel p = if Text.isBlank p then [] else [p]) ∧
    (Returns t → ∃ ps, CutInto t ps ∧
      ∀ b, splitTopLevel (t ++ ',' :: b) = ps ++ splitTopLevel b) := by
  refine ⟨?_, ?_, ?_, ?_, ?_⟩
  · rintro a b rfl returns last
    apply join_splitTopLevel returns
    rw [uncut_iff]
    intro x y text again
    exact last x y text ((returns_append_comma returns x).2 again)
  · intro none
    exact splitTopLevel_of_uncut (uncut_iff.2 none)
  · rintro a b rfl
    exact returns_iff_exists_parts a b
  · intro p hp
    have piece := mem_pieces_of_mem_splitTopLevel hp
    exact splitTopLevel_of_uncut ((cutInto_pieces t).uncut p piece)
  · intro returns
    exact ⟨pieces t, cutInto_pieces t, splitTopLevel_append_comma returns⟩

def mixedList : Text := Text.ofString "a,'x,\\',y', ,(b,c)"

/-- With a blank end the list is what stands in front of its last comma; with an end that closes too
much, no further cut is made. -/
theorem splitTopLevel_mixedList :
    Returns mixedList ∧
      Text.join [','] (splitTopLevel (mixedList ++ Text.ofString ", \n")) = mixedList ∧
      splitTopLevel (mixedList ++ Text.ofString ",d),e,'") =
        [['a'], Text.ofString "'x,\\',y'", [' '], Text.ofString "(b,c)", Text.ofString "d),e,'"] := by
  have returns : Returns mixedList := by decide +kernel
  have last : ∀ x y, Text.ofString " \n" = x ++ ',' :: y → ¬ Returns (mixedList ++ ',' :: x) := by
    intro x y text
    have noComma : ',' ∉ Text.ofString " \n" := by decide
    exact absurd (by rw [text]; simp) noComma
  obtain ⟨joined, -⟩ := splitTopLevel_cuts (mixedList ++ Text.ofString ", \n")
  obtain ⟨-, -, -, -, behind⟩ := splitTopLevel_cuts mixedList
  obtain ⟨ps, cut, all⟩ := behind returns
  refine ⟨returns, joined mixedList _ rfl returns last, ?_⟩
  have pieces : ps = [['a'], Text.ofString "'x,\\',y'", [' '], Text.ofString "(b,c)"] := by
    rw [cut.eq_pieces]
    decide +kernel
  have tail : splitTopLevel (Text.ofString "d),e,'") = [Text.ofString "d),e,'"] := by
    decide +kernel
  have whole := all (Text.ofString "d),e,'")
  rw [pieces, tail] at whole
  exact whole

end SchemaDiagram.Sql
