import SchemaDiagram.Proofs.Sql.Checked.Scans
import SchemaDiagram.Proofs.Sql.Complete

/-!
# Scans that count in 32 bits

The depth of a scan is a number without bounds here, where a program keeps it in 32 bits and wraps
around. Wrapping commutes with every step, so the two scans differ only where the depth is looked
at, and there they agree as long as it is in range.
-/

namespace SchemaDiagram.Sql

structure WrappingScan where
  place : Place := .plain
  depth : Int32 := 0
  deriving DecidableEq, Repr

namespace WrappingScan

def start : WrappingScan := {}

def nested : WrappingScan := { depth := 1 }

/-- The depth has no part in what a character means. -/
def mark (s : WrappingScan) (c : Char) : Mark := (Scan.mk s.place 0).mark c

/-- The scan behind `c`. -/
def step (s : WrappingScan) (c : Char) : WrappingScan :=
  match s.place with
  | .literal quote escaped =>
    if escaped then { s with place := .literal quote false }
    else if c = '\\' then { s with place := .literal quote true }
    else if c = quote then { s with place := .plain }
    else s
  | .plain =>
    if c = '\'' ∨ c = '"' then { s with place := .literal c false }
    else if c = '(' then { s with depth := s.depth + 1 }
    else if c = ')' then { s with depth := s.depth - 1 }
    else s

def run (s : WrappingScan) (t : Text) : WrappingScan := t.foldl step s

def close? (s : WrappingScan) (offset : Nat) : Text → Option Nat
  | [] => none
  | c :: rest =>
    if s.mark c = .closing ∧ (s.step c).depth = 0 then some offset
    else close? (s.step c) (offset + c.utf8Size) rest

end WrappingScan

namespace Checked.Wrapping

/-- The offset of the parenthesis that closes the group whose inside starts at `start`. -/
def closingParen? (text : Text) (start : Nat) : Checked (Option Nat) := do
  let behind ← sliceFrom text start
  let some close := WrappingScan.nested.close? start behind | return none
  bounds text start close
  return some close

/-- The pieces of the body from `start` on, where a scan has come from `start` to `offset`. -/
def splitFrom (body : Text) (s : WrappingScan) (start offset : Nat) : Text → Checked (List Text)
  | [] => do
    let tail ← sliceFrom body start
    return if Text.isBlank tail then [] else [tail]
  | c :: rest => do
    if s.mark c = .comma ∧ (s.step c).depth = 0 then
      let piece ← slice body start offset
      return piece :: (← splitFrom body (s.step c) (offset + 1) (offset + c.utf8Size) rest)
    else splitFrom body (s.step c) start (offset + c.utf8Size) rest

def splitTopLevel (body : Text) : Checked (List Text) := splitFrom body .start 0 0 body

end Checked.Wrapping

namespace Scan

/-- The scan with its depth wrapped to 32 bits. -/
def wrap (s : Scan) : WrappingScan := ⟨s.place, .ofInt s.depth⟩

theorem wrap_mark (s : Scan) (c : Char) : s.wrap.mark c = s.mark c := rfl

theorem wrap_step (s : Scan) (c : Char) : (s.step c).wrap = s.wrap.step c := by
  obtain ⟨place, depth⟩ := s
  cases place with
  | literal quote escaped =>
    simp only [step, wrap, WrappingScan.step]
    repeat' split
    all_goals rfl
  | plain =>
    simp only [step, wrap, WrappingScan.step]
    repeat' split
    · rfl
    · simp only [Int32.ofInt_add]
      rfl
    · simp only [Int32.ofInt_sub]
      rfl
    · rfl

theorem wrap_run (s : Scan) (t : Text) : (s.run t).wrap = s.wrap.run t := by
  induction t generalizing s with
  | nil => rfl
  | cons c t ih =>
    change ((s.step c).run t).wrap = (s.wrap.step c).run t
    rw [ih, wrap_step]

theorem toInt_wrap_depth {s : Scan} (nonneg : 0 ≤ s.depth) (low : s.depth < 2 ^ 31) :
    s.wrap.depth.toInt = s.depth :=
  Int32.toInt_ofInt_of_le (by omega) low

theorem wrap_depth_eq_zero_iff {s : Scan} (nonneg : 0 ≤ s.depth) (low : s.depth < 2 ^ 31) :
    s.wrap.depth = 0 ↔ s.depth = 0 := by
  rw [← Int32.toInt_inj, toInt_wrap_depth nonneg low]
  rfl

/-- Fewer than `2 ^ 31` parentheses are open as long as the scan has not come down to zero. -/
def Shallow (s : Scan) (t : Text) : Prop :=
  ∀ a, a <+: t → s.close? a = none → (s.run a).depth < 2 ^ 31

namespace Shallow

variable {s : Scan} {c : Char} {t : Text}

theorem depth_lt (h : s.Shallow t) : s.depth < 2 ^ 31 := h [] List.nil_prefix rfl

theorem step (h : s.Shallow (c :: t)) (stays : ¬ (s.mark c = .closing ∧ (s.step c).depth = 0)) :
    (s.step c).Shallow t := by
  intro a front never
  refine h (c :: a) ((List.prefix_cons_inj c).2 front) ?_
  rw [close?, if_neg stays, never]
  rfl

end Shallow

theorem depth_step_pos {s : Scan} {c : Char} (opened : 0 < s.depth)
    (stays : ¬ (s.mark c = .closing ∧ (s.step c).depth = 0)) : 0 < (s.step c).depth := by
  by_contra low
  obtain ⟨closing, depth⟩ := mark_of_depth_lt (s := s) (c := c) (by omega)
  exact stays ⟨closing, by omega⟩

/-- No more parentheses are open than there are characters. -/
theorem depth_run_le (s : Scan) (t : Text) : (s.run t).depth ≤ s.depth + t.length := by
  induction t generalizing s with
  | nil => simp [run]
  | cons c t ih =>
    have behind : ((s.step c).run t).depth ≤ (s.step c).depth + t.length := ih (s.step c)
    have rises : (s.step c).depth ≤ s.depth + 1 := by
      simp only [Scan.step]
      repeat' split
      all_goals first | omega | (dsimp only; omega)
    change ((s.step c).run t).depth ≤ s.depth + (c :: t).length
    rw [List.length_cons]
    omega

theorem shallow_of_length {t : Text} (short : t.length + 1 < 2 ^ 31) : Scan.nested.Shallow t := by
  intro a front _
  have few := front.length_le
  have bound := depth_run_le .nested a
  change _ ≤ 1 + (a.length : Int) at bound
  omega

theorem depth_step_of_closing {s : Scan} {c : Char} (h : s.mark c = .closing) :
    (s.step c).depth = s.depth - 1 := by
  obtain ⟨place, depth⟩ := s
  obtain rfl := eq_of_mark_closing h
  cases place with
  | literal => contradiction
  | plain => rfl

theorem closes_wrap_iff {s : Scan} {c : Char} (opened : 0 < s.depth) (low : s.depth < 2 ^ 31) :
    s.wrap.mark c = .closing ∧ (s.wrap.step c).depth = 0 ↔
      s.mark c = .closing ∧ (s.step c).depth = 0 := by
  rw [wrap_mark, ← wrap_step]
  apply and_congr_right
  intro closing
  have depth := depth_step_of_closing closing
  exact wrap_depth_eq_zero_iff (by omega) (by omega)

theorem close?_wrap {s : Scan} {t : Text} (opened : 0 < s.depth) (shallow : s.Shallow t)
    (offset : Nat) : s.wrap.close? offset t = s.offset? closes offset t := by
  induction t generalizing s offset with
  | nil => rfl
  | cons c t ih =>
    have same := closes_wrap_iff (c := c) opened shallow.depth_lt
    rw [WrappingScan.close?, offset?]
    by_cases closing : s.mark c = .closing ∧ (s.step c).depth = 0
    · rw [if_pos (same.2 closing), if_pos (by simpa [closes] using closing)]
    · rw [if_neg (mt same.1 closing), if_neg (by simpa [closes] using closing), ← wrap_step,
        ih (depth_step_pos opened closing) (shallow.step closing)]

theorem depth_run_pos {s : Scan} {t : Text} (opened : 0 < s.depth) (never : s.close? t = none) :
    0 < (s.run t).depth := by
  by_contra low
  obtain ⟨inside, behind, rfl, found⟩ := exists_close opened (Int.not_lt.1 low)
  have close := found []
  rw [List.append_nil, never] at close
  contradiction

/-- As long as the group is open, the counter has not wrapped around. -/
theorem Shallow.toInt_depth_run {t a : Text} (shallow : nested.Shallow t) (front : a <+: t)
    (never : nested.close? a = none) :
    (WrappingScan.nested.run a).depth.toInt = (nested.run a).depth := by
  have positive : 0 < (nested.run a).depth := depth_run_pos (by decide) never
  have wrapped : (nested.run a).wrap = WrappingScan.nested.run a := wrap_run nested a
  rw [← wrapped, toInt_wrap_depth (Int.le_of_lt positive) (shallow a front never)]

/-- Wherever the scan stands in the text, its depth fits into 31 bits. -/
def InRange (s : Scan) (t : Text) : Prop :=
  ∀ a, a <+: t → 0 ≤ (s.run a).depth ∧ (s.run a).depth < 2 ^ 31

theorem InRange.step {s : Scan} {c : Char} {t : Text} (h : s.InRange (c :: t)) :
    (s.step c).InRange t :=
  fun a front => h (c :: a) ((List.prefix_cons_inj c).2 front)

theorem InRange.start {s : Scan} {t : Text} (h : s.InRange t) : 0 ≤ s.depth ∧ s.depth < 2 ^ 31 :=
  h [] List.nil_prefix

end Scan

/-- Inside a shallow group the counter of a list does not wrap around. -/
theorem Balanced.inRange {inside behind : Text} (h : Balanced inside)
    (shallow : Scan.nested.Shallow (inside ++ ')' :: behind)) : Scan.start.InRange inside := by
  rintro a ⟨b, rfl⟩
  have stays := h.stays
  have opened := h.avoids_closes
  rw [Scan.avoids_append, Bool.and_eq_true] at stays opened
  have never : Scan.nested.close? a = none := by
    have close := Scan.close?_append_of_avoids opened.1 []
    rwa [List.append_nil] at close
  have front : a <+: a ++ b ++ ')' :: behind := by simp
  have low := shallow a front never
  have raised : (Scan.nested.run a).depth = (Scan.start.run a).depth + 1 :=
    congrArg Scan.depth (Scan.run_raise 1 .start a)
  have nonneg : 0 ≤ (Scan.start.run a).depth := Scan.nonneg_run (Int.le_refl 0) stays.1
  omega

namespace Checked.Wrapping

theorem closingParen?_eq {text t : Text} {start : Nat} (h : StartsAt text start t)
    (shallow : Scan.nested.Shallow t) :
    closingParen? text start = Checked.closingParen? text start := by
  have same : WrappingScan.nested.close? start t = Scan.nested.offset? Scan.closes start t :=
    Scan.close?_wrap (s := .nested) (by decide) shallow start
  rw [closingParen?, h.sliceFrom, ok_bind, same, Checked.closingParen?, h.sliceFrom]
  rfl

theorem splitFrom_eq {body t : Text} {s : Scan} (range : s.InRange t) (start offset : Nat) :
    splitFrom body s.wrap start offset t = Checked.splitFrom body s start offset t := by
  induction t generalizing s start offset with
  | nil => rfl
  | cons c t ih =>
    have depth := range.step.start
    have same : s.wrap.mark c = .comma ∧ (s.wrap.step c).depth = 0 ↔
        s.mark c = .comma ∧ (s.step c).depth = 0 := by
      rw [Scan.wrap_mark, ← Scan.wrap_step, Scan.wrap_depth_eq_zero_iff depth.1 depth.2]
    rw [splitFrom, Checked.splitFrom]
    by_cases comma : s.mark c = .comma ∧ (s.step c).depth = 0
    · rw [if_pos (same.2 comma), if_pos comma, ← Scan.wrap_step, ih range.step]
    · rw [if_neg (mt same.1 comma), if_neg comma, ← Scan.wrap_step, ih range.step]

theorem splitTopLevel_eq {body : Text} (range : Scan.start.InRange body) :
    splitTopLevel body = .ok (Sql.splitTopLevel body) :=
  (splitFrom_eq range 0 0).trans (StartsAt.splitTopLevel body)

end Checked.Wrapping

end SchemaDiagram.Sql
