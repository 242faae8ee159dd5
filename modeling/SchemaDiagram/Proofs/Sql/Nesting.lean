import SchemaDiagram.Proofs.Sql.Agreement
import SchemaDiagram.Proofs.Sql.Checked.Scans
import SchemaDiagram.Proofs.Sql.Complete
import SchemaDiagram.Proofs.Sql.Splitting

/-!
# Nested groups

A grammar for text with closed literals and parentheses in pairs, and that the scan, which only
counts, accepts just the texts of this grammar: the parenthesis that closes a group is the one with
such a text in front of it.
-/

namespace SchemaDiagram.Sql

/-- What a literal may hold: a backslash with the character behind it, and any character that is
neither a backslash nor the quote. -/
inductive LiteralContent (quote : Char) : Text → Prop where
  | nil : LiteralContent quote []
  | other {c t} : c ≠ quote → c ≠ '\\' → LiteralContent quote t → LiteralContent quote (c :: t)
  | escaped {c t} : LiteralContent quote t → LiteralContent quote ('\\' :: c :: t)

/-- Ordinary characters, literals and groups, one after the other. -/
inductive WellNested : Text → Prop where
  | nil : WellNested []
  | ordinary {c} : c ∉ ['\'', '"', '(', ')'] → WellNested [c]
  | literal {quote t} : quote = '\'' ∨ quote = '"' → LiteralContent quote t →
      WellNested (quote :: t ++ [quote])
  | group {t} : WellNested t → WellNested ('(' :: t ++ [')'])
  | append {a b} : WellNested a → WellNested b → WellNested (a ++ b)

namespace Scan

variable {quote : Char} {depth : Int}

theorem run_content {t : Text} (h : LiteralContent quote t) :
    (reading quote depth).run t = reading quote depth := by
  induction h with
  | nil => rfl
  | @other c t hc hb _ ih =>
    change ((reading quote depth).run [c]).run t = reading quote depth
    rw [run_reading_other hc hb, ih]
  | escaped _ ih => exact ih

theorem avoids_content {t : Text} (nonneg : 0 ≤ depth) (h : LiteralContent quote t) :
    (reading quote depth).avoids falls t := by
  have level : ∀ place c, ((Scan.mk (.literal quote place) depth).step c).depth = depth := by
    intro place c
    simp only [step]
    repeat' split
    all_goals rfl
  have stays : ∀ place c, falls ⟨.literal quote place, depth⟩ c = false := by
    intro place c
    rw [falls, level, decide_eq_false_iff_not]
    omega
  induction h with
  | nil => rfl
  | @other c t hc hb _ ih =>
    have same : (reading quote depth).step c = reading quote depth := run_reading_other hc hb
    rw [avoids, same, ih, Bool.and_true, Bool.not_eq_true']
    exact stays false c
  | @escaped c t _ ih =>
    rw [avoids, avoids]
    change (!falls ⟨.literal quote false, depth⟩ '\\' &&
      (!falls ⟨.literal quote true, depth⟩ c && (reading quote depth).avoids falls t)) = true
    rw [stays, stays, ih]
    rfl

theorem exists_content :
    ∀ {t : Text}, ((reading quote depth).run t).place = .plain →
      ∃ content behind, t = content ++ quote :: behind ∧ LiteralContent quote content
  | [], ends => by contradiction
  | [c], ends => by
    by_cases hc : c = quote
    · exact ⟨[], [], by rw [hc]; rfl, .nil⟩
    · change ((reading quote depth).step c).place = .plain at ends
      simp only [reading, step, hc, if_false, Bool.false_eq_true] at ends
      split at ends <;> contradiction
  | c :: d :: t, ends => by
    by_cases hb : c = '\\'
    · subst hb
      obtain ⟨content, behind, rfl, inside⟩ := exists_content (t := t) ends
      exact ⟨'\\' :: d :: content, behind, rfl, .escaped inside⟩
    · by_cases hc : c = quote
      · exact ⟨[], d :: t, by rw [hc]; rfl, .nil⟩
      · have same : (reading quote depth).step c = reading quote depth := run_reading_other hc hb
        change (((reading quote depth).step c).run (d :: t)).place = .plain at ends
        rw [same] at ends
        obtain ⟨content, behind, eq, inside⟩ := exists_content ends
        exact ⟨c :: content, behind, by rw [eq, List.cons_append], .other hc hb inside⟩

/-- What is cut off in front of a closing parenthesis brings the scan back, and never below. -/
theorem close?_inside {s : Scan} {t inside behind : Text} (nonneg : 0 ≤ s.depth)
    (h : (s.raise 1).close? t = some (inside, behind)) :
    s.run inside = .start ∧ s.avoids falls inside := by
  induction t generalizing s inside with
  | nil => simp [close?] at h
  | cons c t ih =>
    rw [close?, step_raise, depth_raise] at h
    split at h
    · next closes =>
      obtain ⟨rfl, -⟩ := by simpa using h
      obtain ⟨place, depth⟩ := s
      cases place with
      | literal => exact absurd closes.1 (by simp [raise, mark])
      | plain =>
        obtain rfl := eq_of_mark_closing closes.1
        have zero : depth = 0 := by
          have down : depth - 1 + 1 = 0 := closes.2
          omega
        rw [zero]
        exact ⟨rfl, rfl⟩
    · next open' =>
      obtain ⟨⟨front, rest⟩, found, eq⟩ := Option.map_eq_some_iff.1 h
      obtain ⟨rfl, rfl⟩ := Prod.mk.inj eq
      have still : 0 ≤ (s.step c).depth := by
        by_contra low
        obtain ⟨closing, depth⟩ := mark_of_depth_lt (s := s) (c := c) (by omega)
        exact open' ⟨closing, by omega⟩
      obtain ⟨back, stays⟩ := ih still found
      refine ⟨back, ?_⟩
      rw [avoids, stays, Bool.and_true, Bool.not_eq_true', falls, decide_eq_false_iff_not]
      omega

end Scan

theorem Balanced.literal {quote : Char} {t : Text} (hq : quote = '\'' ∨ quote = '"')
    (h : LiteralContent quote t) : Balanced (quote :: t ++ [quote]) := by
  have opened : Scan.start.step quote = .reading quote 0 := Scan.step_quote hq rfl
  have closed : (Scan.reading quote 0).step quote = .start := Scan.run_reading_quote hq
  have inside : (Scan.reading quote 0).run t = .reading quote 0 := Scan.run_content h
  constructor
  · change ((Scan.start.step quote).run (t ++ [quote])) = .start
    rw [opened, Scan.run_append, inside]
    exact closed
  · rw [List.cons_append, Scan.avoids, opened, Scan.avoids_append, inside,
      Scan.avoids_content (Int.le_refl 0) h, Scan.avoids, Scan.falls, Scan.falls, opened, closed]
    rfl

theorem WellNested.balanced {t : Text} (h : WellNested t) : Balanced t := by
  induction h with
  | nil => exact .nil
  | @ordinary c hc => exact balanced_of_ordinary (List.forall_mem_singleton.2 (decide_eq_true hc))
  | literal hq content => exact .literal hq content
  | group _ ih => exact ih.group
  | append _ _ iha ihb => exact iha.append ihb

theorem Balanced.of_append {a b : Text} (ha : Balanced a) (h : Balanced (a ++ b)) : Balanced b := by
  obtain ⟨returns, stays⟩ := h
  rw [Scan.run_append, ha.returns] at returns
  rw [Scan.avoids_append, ha.returns, Bool.and_eq_true] at stays
  exact ⟨returns, stays.2⟩

theorem balanced_of_closeGroup? {t inside behind : Text}
    (h : closeGroup? t = some (inside, behind)) : Balanced inside := by
  obtain ⟨returns, stays⟩ := Scan.close?_inside (s := .start) (Int.le_refl 0) h
  exact ⟨returns, stays⟩

theorem Balanced.exists_group {rest : Text} (h : Balanced ('(' :: rest)) :
    ∃ inside behind, rest = inside ++ ')' :: behind ∧ Balanced inside := by
  have low : (Scan.nested.run rest).depth ≤ 0 := by
    have returns : Scan.nested.run rest = .start := h.returns
    rw [returns]
    exact Int.le_refl 0
  obtain ⟨inside, behind, eq, found⟩ := Scan.exists_close (s := .nested) (by decide) low
  have close := found []
  rw [List.append_nil, List.append_nil] at close
  exact ⟨inside, behind, eq, balanced_of_closeGroup? close⟩

theorem Balanced.exists_literal {quote : Char} {rest : Text} (hq : quote = '\'' ∨ quote = '"')
    (h : Balanced (quote :: rest)) :
    ∃ content behind, rest = content ++ quote :: behind ∧ LiteralContent quote content := by
  have opened : Scan.start.step quote = .reading quote 0 := Scan.step_quote hq rfl
  have returns : (Scan.start.step quote).run rest = .start := h.returns
  rw [opened] at returns
  exact Scan.exists_content (by rw [returns]; rfl)

theorem Balanced.wellNested {t : Text} (h : Balanced t) : WellNested t := by
  match t with
  | [] => exact .nil
  | c :: rest =>
    by_cases quote : c = '\'' ∨ c = '"'
    · obtain ⟨content, behind, rfl, inside⟩ := h.exists_literal quote
      have first : WellNested (c :: content ++ [c]) := .literal quote inside
      have whole : c :: (content ++ c :: behind) = (c :: content ++ [c]) ++ behind := by simp
      rw [whole] at h ⊢
      exact .append first (first.balanced.of_append h).wellNested
    by_cases opening : c = '('
    · subst opening
      obtain ⟨inside, behind, rfl, balanced⟩ := h.exists_group
      have whole : '(' :: (inside ++ ')' :: behind) = ('(' :: inside ++ [')']) ++ behind := by simp
      rw [whole] at h ⊢
      exact .append (.group balanced.wellNested) (balanced.group.of_append h).wellNested
    by_cases closing : c = ')'
    · -- the scan would fall at once
      subst closing
      have stays := h.stays
      contradiction
    · have first : WellNested [c] := .ordinary (by simp_all)
      exact .append first (first.balanced.of_append (b := rest) h).wellNested
termination_by t.length
decreasing_by all_goals (subst_vars; simp only [List.length_append, List.length_cons]; omega)

/-- Counting parentheses outside literals is enough to tell whether a text is well nested. -/
theorem wellNested_iff {t : Text} : WellNested t ↔ Balanced t :=
  ⟨WellNested.balanced, Balanced.wellNested⟩

/-- A group is closed by the parenthesis that well-nested text stands in front of. -/
theorem closeGroup?_eq_some_iff {t inside behind : Text} :
    closeGroup? t = some (inside, behind) ↔ t = inside ++ ')' :: behind ∧ WellNested inside := by
  constructor
  · intro found
    exact ⟨(Scan.close?_append found).symm, (balanced_of_closeGroup? found).wellNested⟩
  · rintro ⟨rfl, nested⟩
    exact nested.balanced.closeGroup? behind

theorem closeGroup?_eq_none_iff {t : Text} :
    closeGroup? t = none ↔ ∀ inside behind, t = inside ++ ')' :: behind → ¬ WellNested inside := by
  rw [Option.eq_none_iff_forall_ne_some]
  constructor
  · intro none inside behind text nested
    exact none (inside, behind) (closeGroup?_eq_some_iff.2 ⟨text, nested⟩)
  · rintro none ⟨inside, behind⟩ found
    obtain ⟨text, nested⟩ := closeGroup?_eq_some_iff.1 found
    exact none inside behind text nested

theorem Balanced.pieces {t : Text} {ps : List Text} (h : Balanced t) (cut : CutInto t ps) :
    ∀ p ∈ ps, Balanced p := by
  induction cut with
  | whole => exact List.forall_mem_singleton.2 h
  | @comma p t ps uncut returns _ ih =>
    have stays := h.stays
    rw [Scan.avoids_append, Bool.and_eq_true] at stays
    have first : Balanced p := ⟨returns_iff.1 returns, stays.1⟩
    have behind : Balanced (',' :: t) := first.of_append h
    have comma : Balanced [','] := ⟨rfl, rfl⟩
    exact List.forall_mem_cons.2 ⟨first, ih (comma.of_append (b := t) behind)⟩

theorem WellNested.splitTopLevel {t : Text} (h : WellNested t) :
    ∀ p ∈ splitTopLevel t, WellNested p := by
  intro p hp
  have piece := mem_pieces_of_mem_splitTopLevel hp
  exact (h.balanced.pieces (cutInto_pieces t) p piece).wellNested

/-- Well-nested text stands between the offsets, and a closing parenthesis behind it. -/
def ClosesAt (text : Text) (start stop : Nat) : Prop :=
  ∃ inside, Checked.slice text start stop = .ok inside ∧ WellNested inside ∧
    Checked.slice text stop (stop + 1) = .ok [')']

theorem Checked.StartsAt.of_sliceFrom {text t : Text} {start : Nat}
    (h : Checked.sliceFrom text start = .ok t) : StartsAt text start t := by
  unfold Checked.sliceFrom at h
  split at h
  · next front behind cut =>
    obtain rfl := Except.ok.inj h
    obtain ⟨rfl, size⟩ := cutAt?_eq_some cut
    exact ⟨front, rfl, size⟩
  · contradiction

theorem closesAt_iff {text t : Text} {start stop : Nat} (h : Checked.StartsAt text start t) :
    ClosesAt text start stop ↔
      ∃ cut, closeGroup? t = some cut ∧ start + cut.1.byteLength = stop := by
  constructor
  · rintro ⟨inside, sliced, nested, closing⟩
    obtain ⟨rest, rfl, rfl⟩ := h.eq_of_slice sliced
    obtain ⟨behind, rfl, -⟩ := h.behind.eq_of_slice closing
    exact ⟨(inside, behind), closeGroup?_eq_some_iff.2 ⟨rfl, nested⟩, rfl⟩
  · rintro ⟨⟨inside, behind⟩, found, rfl⟩
    obtain ⟨rfl, nested⟩ := closeGroup?_eq_some_iff.1 found
    have closing : Checked.StartsAt text (start + inside.byteLength) ([')'] ++ behind) := h.behind
    exact ⟨inside, h.slice, nested, closing.slice⟩

/-- The parenthesis that closes a group is the one behind well-nested text. -/
theorem closingParen?_eq_some_iff {text t : Text} {start k : Nat}
    (h : Checked.StartsAt text start t) :
    Checked.closingParen? text start = .ok (some k) ↔ ClosesAt text start k := by
  rw [h.closingParen?, closesAt_iff h, Except.ok.injEq, Option.map_eq_some_iff]

theorem ClosesAt.unique {text t : Text} {start k k' : Nat} (h : Checked.StartsAt text start t)
    (closes : ClosesAt text start k) (closes' : ClosesAt text start k') : k = k' := by
  have same := ((closingParen?_eq_some_iff h).2 closes).symm.trans
    ((closingParen?_eq_some_iff h).2 closes')
  simpa using same

end SchemaDiagram.Sql
