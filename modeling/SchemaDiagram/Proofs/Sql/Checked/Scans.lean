import SchemaDiagram.Proofs.Sql.Checked.Slices
import SchemaDiagram.Proofs.Sql.Scanning

/-!
# Cutting by offsets

The places at which text is cut, found as offsets. Each offset is used to slice the text, and every
slice is good: what comes out is what the scans cut from the text itself.
-/

namespace SchemaDiagram.Sql

def Scan.offset? (stop : Scan → Char → Bool) (s : Scan) (offset : Nat) : Text → Option Nat
  | [] => none
  | c :: rest =>
    if stop s c then some offset
    else Scan.offset? stop (s.step c) (offset + c.utf8Size) rest

/-- The group that opens at the head of a text, parentheses included, and the text behind it. -/
def headGroup? : Text → Option (Text × Text)
  | '(' :: rest => (closeGroup? rest).map fun cut => ('(' :: cut.1 ++ [')'], cut.2)
  | _ => none

def blanks (t : Text) : Text := t.takeWhile Text.isBlankChar

namespace Checked

def bounds (text : Text) (start stop : Nat) : Checked Unit := do
  let _ ← slice text start stop

/-- The offset of the parenthesis that closes the group whose inside starts at `start`. -/
def closingParen? (text : Text) (start : Nat) : Checked (Option Nat) := do
  let behind ← sliceFrom text start
  let some close := Scan.nested.offset? Scan.closes start behind | return none
  bounds text start close
  return some close

def balancedGroup? (text : Text) (start : Nat) : Checked (Option (Text × Nat)) := do
  let behind ← sliceFrom text start
  unless behind.head? = some '(' do return none
  let some close ← closingParen? text (start + 1) | return none
  return some (← slice text start (close + 1), close + 1)

/-- The pieces of the body from `start` on, where a scan has come from `start` to `offset`. -/
def splitFrom (body : Text) (s : Scan) (start offset : Nat) : Text → Checked (List Text)
  | [] => do
    let tail ← sliceFrom body start
    return if Text.isBlank tail then [] else [tail]
  | c :: rest => do
    if s.mark c = .comma ∧ (s.step c).depth = 0 then
      let piece ← slice body start offset
      return piece :: (← splitFrom body (s.step c) (offset + 1) (offset + c.utf8Size) rest)
    else splitFrom body (s.step c) start (offset + c.utf8Size) rest

def splitTopLevel (body : Text) : Checked (List Text) := splitFrom body .start 0 0 body

def statementEnd (text : Text) (start : Nat) : Checked Nat := do
  let behind ← sliceFrom text start
  let stop := (Scan.start.offset? Scan.ends start behind).getD text.byteLength
  bounds text start stop
  return stop

def skipBlanks (text : Text) (offset : Nat) : Checked Nat := do
  let behind ← sliceFrom text offset
  return offset + (behind.byteLength - (Text.trimStart behind).byteLength)

def captureExpression (text : Text) (start : Nat) : Checked (Text × Nat) := do
  let first ← skipBlanks text start
  let behind ← sliceFrom text first
  let stop := (Scan.start.offset? Scan.stops first behind).getD text.byteLength
  return (← slice text first stop, stop)

theorem offset?_closes (s : Scan) (offset : Nat) (t : Text) :
    s.offset? Scan.closes offset t = (s.close? t).map (offset + ·.1.byteLength) := by
  induction t generalizing s offset with
  | nil => rfl
  | cons c rest ih =>
    by_cases close : s.mark c = .closing ∧ (s.step c).depth = 0
    · rw [Scan.offset?, if_pos (by simpa [Scan.closes] using close), Scan.close?, if_pos close]
      rfl
    · rw [Scan.offset?, if_neg (by simpa [Scan.closes] using close), Scan.close?, if_neg close, ih,
        Option.map_map]
      simp [Function.comp_def, Nat.add_assoc]

/-- A scan that cuts its text in two at the first character at which it stops. -/
structure CutsAt (stop : Scan → Char → Bool) (cut : Scan → Text → Text × Text) : Prop where
  nil : ∀ s, cut s [] = ([], [])
  cons : ∀ s c rest, cut s (c :: rest) =
    if stop s c then ([], c :: rest)
    else (c :: (cut (s.step c) rest).1, (cut (s.step c) rest).2)

theorem cutsAt_statement : CutsAt Scan.ends Scan.statement where
  nil _ := rfl
  cons _ _ _ := by simp only [Scan.statement, Scan.ends, decide_eq_true_eq]

theorem cutsAt_expression : CutsAt Scan.stops Scan.expression where
  nil _ := rfl
  cons _ _ _ := by simp only [Scan.expression]

theorem CutsAt.offset?_getD {stop : Scan → Char → Bool} {cut : Scan → Text → Text × Text}
    (h : CutsAt stop cut) (s : Scan) (offset : Nat) (t : Text) :
    (s.offset? stop offset t).getD (offset + t.byteLength) = offset + (cut s t).1.byteLength := by
  induction t generalizing s offset with
  | nil => rw [h.nil]; rfl
  | cons c rest ih =>
    rw [Scan.offset?, h.cons]
    by_cases stopped : stop s c
    · rw [if_pos stopped, if_pos stopped]
      rfl
    · rw [if_neg stopped, if_neg stopped, Text.byteLength_cons, ← Nat.add_assoc, ih,
        Text.byteLength_cons, Nat.add_assoc]

theorem cut_cons (s : Scan) (c : Char) (rest : Text) : s.cut (c :: rest) =
    if s.mark c = .comma ∧ s.depth = 0 then
      ([], ((s.step c).cut rest).1 :: ((s.step c).cut rest).2)
    else (c :: ((s.step c).cut rest).1, ((s.step c).cut rest).2) := rfl

/-- A comma leaves the depth as it is. -/
theorem cut_condition (s : Scan) (c : Char) :
    s.mark c = .comma ∧ (s.step c).depth = 0 ↔ s.mark c = .comma ∧ s.depth = 0 := by
  apply and_congr_right
  intro comma
  obtain rfl := Scan.eq_of_mark_comma comma
  unfold Scan.step
  split
  · next inside => simp [Scan.mark, inside] at comma
  · rfl

theorem byteLength_group (inside : Text) :
    Text.byteLength ('(' :: inside ++ [')']) = 1 + inside.byteLength + 1 := by
  simp [show Char.utf8Size '(' = 1 from rfl, show Char.utf8Size ')' = 1 from rfl, Nat.add_assoc]

theorem headGroup?_append {t : Text} {cut : Text × Text} (h : headGroup? t = some cut) :
    cut.1 ++ cut.2 = t := by
  unfold headGroup? at h
  split at h
  · obtain ⟨⟨inside, behind⟩, close, rfl⟩ := Option.map_eq_some_iff.1 h
    simp [← Scan.close?_append close]
  · contradiction

namespace StartsAt

variable {text t : Text} {offset : Nat}

theorem bounds {a : Text} (h : StartsAt text offset (a ++ t)) :
    bounds text offset (offset + a.byteLength) = .ok () := by
  simp only [Checked.bounds, h.slice]
  rfl

theorem bounds_start (h : StartsAt text offset t) : Checked.bounds text 0 offset = .ok () := by
  obtain ⟨front, rfl, rfl⟩ := h
  simpa using (start (front ++ t)).bounds

theorem closingParen? (h : StartsAt text offset t) :
    closingParen? text offset = .ok ((closeGroup? t).map (offset + ·.1.byteLength)) := by
  rw [Checked.closingParen?, h.sliceFrom, ok_bind, offset?_closes]
  cases closed : Scan.nested.close? t with
  | none => rw [closeGroup?, closed]; rfl
  | some cut =>
    rw [← Scan.close?_append closed] at h
    rw [closeGroup?, closed]
    simp only [Option.map_some, h.bounds, ok_bind]
    rfl

theorem balancedGroup? (h : StartsAt text offset t) :
    balancedGroup? text offset =
      .ok ((headGroup? t).map fun cut => (cut.1, offset + cut.1.byteLength)) := by
  rw [Checked.balancedGroup?, h.sliceFrom, ok_bind]
  by_cases opens : t.head? = some '('
  · obtain ⟨rest, rfl⟩ := List.head?_eq_some_iff.1 opens
    have behind : StartsAt text (offset + 1) rest := h.behind_cons
    simp only [if_pos opens, behind.closingParen?, headGroup?, ok_bind]
    cases closed : closeGroup? rest with
    | none => rfl
    | some cut =>
      have whole : '(' :: rest = ('(' :: cut.1 ++ [')']) ++ cut.2 := by
        simp [← Scan.close?_append closed]
      have stop : offset + 1 + cut.1.byteLength + 1 =
          offset + Text.byteLength ('(' :: cut.1 ++ [')']) := by
        rw [byteLength_group]
        omega
      rw [whole] at h
      simp only [Option.map_some, stop, h.slice, ok_bind]
      rfl
  · have absent : headGroup? t = none := by
      unfold headGroup?
      split
      · exact absurd rfl opens
      · rfl
    rw [absent]
    simp only [if_neg opens]
    rfl

theorem splitFrom {body : Text} {start : Nat} (s : Scan) (piece : Text)
    (h : StartsAt body start (piece ++ t)) :
    splitFrom body s start (start + piece.byteLength) t =
      .ok (dropBlankLast ((piece ++ (s.cut t).1) :: (s.cut t).2)) := by
  induction t generalizing s start piece with
  | nil =>
    rw [List.append_nil] at h
    rw [Checked.splitFrom, h.sliceFrom, Scan.cut, List.append_nil]
    rfl
  | cons c rest ih =>
    rw [Checked.splitFrom, cut_cons]
    by_cases comma : s.mark c = .comma ∧ s.depth = 0
    · obtain rfl := Scan.eq_of_mark_comma comma.1
      have behind : StartsAt body (start + piece.byteLength + 1) ([] ++ rest) :=
        h.behind.behind_cons
      have others : Checked.splitFrom body (s.step ',') (start + piece.byteLength + 1)
          (start + piece.byteLength + ','.utf8Size) rest =
            .ok (dropBlankLast (((s.step ',').cut rest).1 :: ((s.step ',').cut rest).2)) :=
        ih (s.step ',') [] behind
      rw [if_pos ((cut_condition s ',').2 comma), if_pos comma, h.slice, ok_bind]
      simp only [others, ok_bind, List.append_nil]
      rfl
    · have longer : StartsAt body start ((piece ++ [c]) ++ rest) := by simpa using h
      have others := ih (s.step c) (piece ++ [c]) longer
      rw [if_neg (mt (cut_condition s c).1 comma), if_neg comma]
      simpa [Nat.add_assoc] using others

theorem splitTopLevel (body : Text) :
    splitTopLevel body = .ok (Sql.splitTopLevel body) :=
  splitFrom .start [] (start body)

theorem statementEnd (h : StartsAt text offset t) :
    statementEnd text offset = .ok (offset + (Scan.start.statement t).1.byteLength) := by
  rw [Checked.statementEnd, h.sliceFrom, ok_bind, ← h.add_byteLength,
    cutsAt_statement.offset?_getD]
  rw [← Scan.statement_append .start t] at h
  simp only [h.bounds, ok_bind]
  rfl

theorem trimStart (h : StartsAt text offset t) :
    StartsAt text (offset + (blanks t).byteLength) (Text.trimStart t) := by
  apply behind
  rwa [blanks, Text.trimStart, List.takeWhile_append_dropWhile]

theorem skipBlanks (h : StartsAt text offset t) :
    skipBlanks text offset = .ok (offset + (blanks t).byteLength) := by
  have split : t.byteLength =
      (blanks t).byteLength + (Text.trimStart t).byteLength := by
    rw [← Text.byteLength_append, blanks, Text.trimStart,
      List.takeWhile_append_dropWhile]
  rw [Checked.skipBlanks, h.sliceFrom, ok_bind, split, Nat.add_sub_cancel]
  rfl

theorem captureExpression (h : StartsAt text offset t) :
    captureExpression text offset = .ok ((Scan.start.expression (Text.trimStart t)).1,
      offset + (blanks t).byteLength +
        (Scan.start.expression (Text.trimStart t)).1.byteLength) := by
  have first := h.trimStart
  rw [Checked.captureExpression, h.skipBlanks, ok_bind, first.sliceFrom, ok_bind,
    ← first.add_byteLength, cutsAt_expression.offset?_getD]
  rw [← Scan.expression_append .start (Text.trimStart t)] at first
  simp only [first.slice]
  rfl

end StartsAt

end Checked

end SchemaDiagram.Sql
