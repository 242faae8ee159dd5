import SchemaDiagram.Sql.Comment

/-!
# Scans over balanced text

A scan passes over balanced text and comes out as it went in, at any depth. None of the places at
which text is cut lies inside, so every cut is made behind it.
-/

namespace SchemaDiagram.Sql.Scan

theorem run_append (s : Scan) (a b : Text) : s.run (a ++ b) = (s.run a).run b :=
  List.foldl_append

/-- No character of the text is one at which a scan that starts at `s` stops. -/
def avoids (stop : Scan → Char → Bool) (s : Scan) : Text → Bool
  | [] => true
  | c :: rest => !stop s c && avoids stop (s.step c) rest

theorem avoids_append (stop : Scan → Char → Bool) (s : Scan) (a b : Text) :
    s.avoids stop (a ++ b) = (s.avoids stop a && (s.run a).avoids stop b) := by
  induction a generalizing s with
  | nil => rfl
  | cons c a ih => rw [List.cons_append, avoids, avoids, ih, Bool.and_assoc]; rfl

/-- The scan goes below depth zero behind `c`. -/
def falls (s : Scan) (c : Char) : Bool := (s.step c).depth < 0

def closes (s : Scan) (c : Char) : Bool := s.mark c = .closing ∧ (s.step c).depth = 0

def cuts (s : Scan) (c : Char) : Bool := s.mark c = .comma ∧ s.depth = 0

def ends (s : Scan) (c : Char) : Bool := s.mark c = .semicolon ∧ s.depth ≤ 0

theorem close?_append_of_avoids {s : Scan} {a : Text} (h : s.avoids closes a) (b : Text) :
    s.close? (a ++ b) = ((s.run a).close? b).map fun (inside, behind) => (a ++ inside, behind) := by
  induction a generalizing s with
  | nil => simp [run]
  | cons c a ih =>
    simp only [avoids, closes, Bool.and_eq_true, Bool.not_eq_true', decide_eq_false_iff_not] at h
    rw [List.cons_append, close?, if_neg h.1, ih h.2, Option.map_map]
    rfl

theorem cut_append_of_avoids {s : Scan} {a : Text} (h : s.avoids cuts a) (b : Text) :
    s.cut (a ++ b) = (a ++ ((s.run a).cut b).1, ((s.run a).cut b).2) := by
  induction a generalizing s with
  | nil => simp [run]
  | cons c a ih =>
    simp only [avoids, cuts, Bool.and_eq_true, Bool.not_eq_true', decide_eq_false_iff_not] at h
    rw [List.cons_append, cut, ih h.2]
    dsimp only
    rw [if_neg h.1]
    rfl

theorem expression_append_of_avoids {s : Scan} {a : Text} (h : s.avoids stops a) (b : Text) :
    s.expression (a ++ b) =
      (a ++ ((s.run a).expression b).1, ((s.run a).expression b).2) := by
  induction a generalizing s with
  | nil => simp [run]
  | cons c a ih =>
    simp only [avoids, Bool.and_eq_true, Bool.not_eq_true'] at h
    rw [List.cons_append, expression, ih h.2]
    dsimp only
    rw [h.1, if_neg Bool.false_ne_true]
    rfl

theorem statement_append_of_avoids {s : Scan} {a : Text} (h : s.avoids ends a) (b : Text) :
    (s.statement (a ++ b)).1 = a ++ ((s.run a).statement b).1 := by
  induction a generalizing s with
  | nil => rfl
  | cons c a ih =>
    simp only [avoids, ends, Bool.and_eq_true, Bool.not_eq_true', decide_eq_false_iff_not] at h
    rw [List.cons_append, statement, if_neg h.1]
    exact congrArg (c :: ·) (ih h.2)

theorem eq_of_mark_comma {s : Scan} {c : Char} (h : s.mark c = .comma) : c = ',' := by
  unfold mark at h
  split at h
  · contradiction
  · repeat' split at h
    all_goals first | assumption | contradiction

theorem mark_of_blank {s : Scan} {c : Char} (plain : s.place = .plain)
    (h : Text.isBlankChar c) : s.mark c = .blank := by
  have marks : c ≠ '(' ∧ c ≠ ')' ∧ c ≠ ',' ∧ c ≠ ';' := by
    refine ⟨?_, ?_, ?_, ?_⟩ <;> rintro rfl <;> exact absurd h (by decide)
  simp [mark, plain, marks, h]

theorem stops_of_blank {s : Scan} {c : Char} (plain : s.place = .plain) (depth : s.depth = 0)
    (h : Text.isBlankChar c) : s.stops c := by
  simp [stops, mark_of_blank plain h, depth]

theorem avoids_cuts_of_stops {s : Scan} {t : Text} (h : s.avoids stops t) : s.avoids cuts t := by
  induction t generalizing s with
  | nil => rfl
  | cons c t ih =>
    simp only [avoids, Bool.and_eq_true, Bool.not_eq_true'] at h ⊢
    refine ⟨decide_eq_false fun cut => ?_, ih h.2⟩
    simp [stops, cut.1, cut.2] at h

/-- If the scan stands in a literal, it is one that a scan opens. -/
def InQuotes (s : Scan) : Prop :=
  ∀ quote escaped, s.place = .literal quote escaped → quote = '\'' ∨ quote = '"'

theorem inQuotes_step {s : Scan} (h : s.InQuotes) (c : Char) : (s.step c).InQuotes := by
  obtain ⟨place, depth⟩ := s
  intro quote escaped inside
  cases place with
  | literal quote' escaped' =>
    have mark : quote' = '\'' ∨ quote' = '"' := h quote' escaped' rfl
    simp only [step] at inside
    repeat' split at inside
    all_goals simp_all
  | plain =>
    simp only [step] at inside
    repeat' split at inside
    all_goals simp_all

theorem inQuotes_run {s : Scan} (h : s.InQuotes) (t : Text) : (s.run t).InQuotes := by
  induction t generalizing s with
  | nil => exact h
  | cons c t ih => exact ih (inQuotes_step h c)

theorem inQuotes_start : start.InQuotes := nofun

def reading (quote : Char) (depth : Int) : Scan := ⟨.literal quote false, depth⟩

variable {quote : Char} {depth : Int}

theorem run_reading_quote (hq : quote = '\'' ∨ quote = '"') :
    (reading quote depth).run [quote] = ⟨.plain, depth⟩ := by
  rcases hq with rfl | rfl <;> rfl

theorem run_reading_doubled (hq : quote = '\'' ∨ quote = '"') :
    (reading quote depth).run [quote, quote] = reading quote depth := by
  rcases hq with rfl | rfl <;> rfl

theorem run_reading_other {c : Char} (hc : c ≠ quote) (hb : c ≠ '\\') :
    (reading quote depth).run [c] = reading quote depth := by
  simp [run, step, reading, hc, hb]

def raise (k : Int) (s : Scan) : Scan := { s with depth := s.depth + k }

theorem depth_raise (k : Int) (s : Scan) : (s.raise k).depth = s.depth + k := rfl

theorem eq_raise {s t : Scan} (h : s.place = t.place) : s = t.raise (s.depth - t.depth) := by
  obtain ⟨place, depth⟩ := s
  obtain ⟨_, _⟩ := t
  obtain rfl : place = _ := h
  simp only [raise, Scan.mk.injEq, true_and]
  omega

theorem step_raise (k : Int) (s : Scan) (c : Char) : (s.raise k).step c = (s.step c).raise k := by
  obtain ⟨place, depth⟩ := s
  cases place with
  | literal quote escaped =>
    simp only [raise, step]
    repeat' split
    all_goals rfl
  | plain =>
    simp only [raise, step]
    repeat' split
    all_goals simp only [Scan.mk.injEq, true_and]
    all_goals omega

theorem run_raise (k : Int) (s : Scan) (t : Text) : (s.raise k).run t = (s.run t).raise k := by
  induction t generalizing s with
  | nil => rfl
  | cons c t ih =>
    change ((s.raise k).step c).run t = ((s.step c).run t).raise k
    rw [step_raise, ih]

/-- What stops a scan at no depth from zero up stops none that started further up. -/
theorem avoids_raise {k : Int} {stop : Scan → Char → Bool}
    (quiet : ∀ s c, 0 ≤ s.depth → falls s c = false → stop (s.raise k) c = false) {s : Scan}
    {t : Text} (nonneg : 0 ≤ s.depth) (h : s.avoids falls t) : (s.raise k).avoids stop t := by
  induction t generalizing s with
  | nil => rfl
  | cons c t ih =>
    simp only [avoids, Bool.and_eq_true, Bool.not_eq_true'] at h ⊢
    have stays : 0 ≤ (s.step c).depth := by
      simpa [falls] using h.1
    rw [step_raise]
    exact ⟨quiet s c nonneg h.1, ih stays h.2⟩

end Scan

/-- Literals are closed, and every parenthesis has its partner. -/
structure Balanced (t : Text) : Prop where
  returns : Scan.start.run t = .start
  stays : Scan.start.avoids Scan.falls t

instance (t : Text) : Decidable (Balanced t) :=
  decidable_of_iff (Scan.start.run t = .start ∧ Scan.start.avoids Scan.falls t)
    ⟨fun ⟨returns, stays⟩ => ⟨returns, stays⟩, fun ⟨returns, stays⟩ => ⟨returns, stays⟩⟩

namespace Balanced

open Scan

theorem nil : Balanced [] := ⟨rfl, rfl⟩

theorem append {a b : Text} (ha : Balanced a) (hb : Balanced b) : Balanced (a ++ b) where
  returns := by rw [run_append, ha.returns, hb.returns]
  stays := by rw [avoids_append, ha.returns, ha.stays, hb.stays]; rfl

theorem returns_nested {t : Text} (h : Balanced t) : Scan.nested.run t = .nested := by
  have raised := run_raise 1 start t
  rw [h.returns] at raised
  exact raised

theorem group {t : Text} (h : Balanced t) : Balanced ('(' :: t ++ [')']) where
  returns := by
    rw [List.cons_append, ← List.singleton_append, run_append, run_append]
    change (Scan.nested.run t).run [')'] = start
    rw [h.returns_nested]
    rfl
  stays := by
    have inside : Scan.nested.avoids falls t := by
      refine avoids_raise (k := 1) (s := start) (fun s c _ stays => ?_) (Int.le_refl _) h.stays
      simp only [falls, step_raise, depth_raise, decide_eq_false_iff_not] at stays ⊢
      omega
    rw [List.cons_append, ← List.singleton_append, avoids_append, avoids_append]
    change (true && (Scan.nested.avoids falls t && (Scan.nested.run t).avoids falls [')'])) = true
    rw [inside, h.returns_nested]
    rfl

theorem avoids_closes {t : Text} (h : Balanced t) : Scan.nested.avoids closes t := by
  refine avoids_raise (k := 1) (s := start) (fun s c _ stays => ?_) (Int.le_refl _) h.stays
  simp only [falls, closes, step_raise, depth_raise, decide_eq_false_iff_not] at stays ⊢
  omega

theorem closeGroup? {t : Text} (h : Balanced t) (behind : Text) :
    closeGroup? (t ++ ')' :: behind) = some (t, behind) := by
  rw [Sql.closeGroup?, close?_append_of_avoids h.avoids_closes, h.returns_nested]
  simp [close?, nested, mark, step]

theorem avoids_cuts_group {t : Text} (h : Balanced t) :
    Scan.start.avoids cuts ('(' :: t ++ [')']) := by
  have inside : Scan.nested.avoids cuts t := by
    refine avoids_raise (k := 1) (s := start) (fun s c nonneg _ => ?_) (Int.le_refl _) h.stays
    apply decide_eq_false
    intro cut
    have := cut.2
    rw [depth_raise] at this
    omega
  rw [List.cons_append, ← List.singleton_append, avoids_append, avoids_append]
  change (true && (Scan.nested.avoids cuts t && (Scan.nested.run t).avoids cuts [')'])) = true
  rw [inside, h.returns_nested]
  rfl

end Balanced

end SchemaDiagram.Sql
