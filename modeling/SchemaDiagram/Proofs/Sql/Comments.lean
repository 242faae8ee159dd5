import SchemaDiagram.Proofs.Sql.Uncommented
import SchemaDiagram.Sql.Script

/-!
# Comments are blanks

Behind text that ends outside literals and comments, a block comment stands for one space and a line
comment for its line end, whatever is inside and whatever follows.
-/

namespace SchemaDiagram.Sql

/-- Where a scan that starts at `s` stands behind `t`, comments passed over; nowhere if `t` ends
inside a comment. -/
def Scan.past? (s : Scan) (t : Text) : Option Scan :=
  match t with
  | [] => some s
  | c :: rest =>
    if s.inLiteral then Scan.past? (s.step c) rest
    else
      match c, rest with
      | '-', '-' :: line => if '\n' ∈ line then Scan.past? s (fromLineEnd line) else none
      | '/', '*' :: block =>
        if Text.contains ['*', '/'] block then Scan.past? s (behindBlock block) else none
      | c, rest => Scan.past? (s.step c) rest
termination_by t.length
decreasing_by
  · simp
  · have := fromLineEnd_length_le line
    simp; omega
  · have := behindBlock_length_le block
    simp; omega
  · simp

/-- A scan for literals and comments that goes over the whole text ends outside both. -/
def EndsOutside (t : Text) : Prop :=
  ∃ s, Scan.start.past? (unifyLineEnds t) = some s ∧ s.place = .plain

def blockComment (inside : Text) : Text := '/' :: '*' :: (inside ++ ['*', '/'])

def lineComment (inside : Text) : Text := '-' :: '-' :: (inside ++ ['\n'])

theorem fromLineEnd_append {a : Text} (h : '\n' ∈ a) (b : Text) :
    fromLineEnd (a ++ b) = fromLineEnd a ++ b := by
  induction a with
  | nil => simp at h
  | cons c a ih =>
    by_cases lineEnd : c = '\n'
    · subst lineEnd
      rfl
    · have behind : '\n' ∈ a := (List.mem_cons.1 h).resolve_left fun eq => lineEnd eq.symm
      have goesOn (t : Text) : fromLineEnd (c :: t) = fromLineEnd t :=
        List.dropWhile_cons_of_pos (by simp [lineEnd])
      rw [List.cons_append, goesOn, goesOn, ih behind]

theorem contains_cons (part : Text) (c : Char) (t : Text) :
    Text.contains part (c :: t) = (part.isPrefixOf (c :: t) || Text.contains part t) := rfl

theorem behindBlock_cons {c : Char} {t : Text} (h : ['*', '/'].isPrefixOf (c :: t) = false) :
    behindBlock (c :: t) = behindBlock t := by
  rw [behindBlock]
  rintro rest rfl rfl
  simp [List.isPrefixOf] at h

theorem behindBlock_append {a : Text} (h : Text.contains ['*', '/'] a) (b : Text) :
    behindBlock (a ++ b) = behindBlock a ++ b := by
  induction a with
  | nil => simp [Text.contains] at h
  | cons c a ih =>
    by_cases ends : ['*', '/'].isPrefixOf (c :: a)
    · obtain ⟨rest, eq⟩ := List.isPrefixOf_iff_prefix.1 ends
      rw [← eq]
      rfl
    · have ends : ['*', '/'].isPrefixOf (c :: a) = false := Bool.eq_false_iff.2 ends
      rw [contains_cons, ends, Bool.false_or] at h
      have still : ['*', '/'].isPrefixOf (c :: (a ++ b)) = false := by
        cases a with
        | nil => simp [Text.contains] at h
        | cons d a => exact ends
      rw [List.cons_append, behindBlock_cons still, behindBlock_cons ends, ih h]

theorem behindBlock_of_not_contains {a : Text} (h : Text.contains ['*', '/'] a = false) (b : Text) :
    behindBlock (a ++ '*' :: '/' :: b) = b := by
  induction a with
  | nil => rfl
  | cons c a ih =>
    rw [contains_cons, Bool.or_eq_false_iff] at h
    have still : ['*', '/'].isPrefixOf (c :: (a ++ '*' :: '/' :: b)) = false := by
      cases a with
      | nil => simp [List.isPrefixOf]
      | cons d a => exact h.1
    rw [List.cons_append, behindBlock_cons still, ih h.2]

theorem getLast?_unifyLineEnds (t : Text) : (unifyLineEnds t).getLast? = t.getLast? := by
  fun_induction unifyLineEnds t with
  | case1 rest ih => simp [List.getLast?_cons, ih]
  | case2 c rest _ ih => simp [List.getLast?_cons, ih]
  | case3 => rfl

theorem unifyLineEnds_append_of_getLast {a : Text} (h : a.getLast? ≠ some '\r') (b : Text) :
    unifyLineEnds (a ++ b) = unifyLineEnds a ++ unifyLineEnds b := by
  fun_induction unifyLineEnds a with
  | case1 rest ih =>
    refine congrArg ('\n' :: ·) (ih fun last => h ?_)
    simp [List.getLast?_cons, last]
  | case2 c rest other ih =>
    have behind : rest.getLast? ≠ some '\r' := fun last => h (by simp [List.getLast?_cons, last])
    rw [List.cons_append, unifyLineEnds, ih behind, List.cons_append]
    rintro rest' rfl eq
    cases rest with
    | nil => simp at h
    | cons d rest =>
      obtain ⟨rfl, -⟩ := List.cons.inj eq
      exact other rest rfl rfl
  | case3 => rfl

theorem contains_unifyLineEnds {t : Text} (h : Text.contains ['*', '/'] t = false) :
    Text.contains ['*', '/'] (unifyLineEnds t) = false := by
  fun_induction unifyLineEnds t with
  | case1 rest ih =>
    rw [contains_cons, contains_cons, Bool.or_eq_false_iff, Bool.or_eq_false_iff] at h
    rw [contains_cons, ih h.2.2]
    simp [List.isPrefixOf]
  | case2 c rest _ ih =>
    rw [contains_cons, Bool.or_eq_false_iff] at h
    rw [contains_cons, ih h.2, Bool.or_false]
    by_cases star : c = '*'
    · subst star
      have noSlash : (unifyLineEnds rest).head? ≠ some '/' := by
        intro head
        obtain ⟨rest', rfl⟩ := List.head?_eq_some_iff.1 (head?_of_unifyLineEnds (by decide) head)
        simp [List.isPrefixOf] at h
      cases unified : unifyLineEnds rest with
      | nil => rfl
      | cons d rest' =>
        rw [unified] at noSlash
        have noSlash : d ≠ '/' := by simpa using noSlash
        simp [List.isPrefixOf, Ne.symm noSlash]
    · simp [List.isPrefixOf, Ne.symm star]
  | case3 => exact h

theorem unifyLineEnds_blockComment (inside b : Text) :
    unifyLineEnds (blockComment inside ++ b) =
      '/' :: '*' :: (unifyLineEnds inside ++ '*' :: '/' :: unifyLineEnds b) := by
  have closed : unifyLineEnds (inside ++ '*' :: '/' :: b) =
      unifyLineEnds inside ++ unifyLineEnds ('*' :: '/' :: b) :=
    unifyLineEnds_append_of_head (by simp) inside
  have text : blockComment inside ++ b = '/' :: '*' :: (inside ++ '*' :: '/' :: b) := by
    simp [blockComment]
  simpa [text, unifyLineEnds] using closed

theorem fromLineEnd_unifyLineEnds {inside : Text} (h : '\n' ∉ inside) (b : Text) :
    fromLineEnd (unifyLineEnds (inside ++ '\n' :: b)) = '\n' :: unifyLineEnds b := by
  induction inside with
  | nil => rfl
  | cons c inside ih =>
    rw [List.mem_cons, not_or] at h
    have goesOn (t : Text) : fromLineEnd (c :: t) = fromLineEnd t :=
      List.dropWhile_cons_of_pos (by simp [Ne.symm h.1])
    by_cases lineEnd : c = '\r' ∧ inside = []
    · obtain ⟨rfl, rfl⟩ := lineEnd
      rfl
    · rw [List.cons_append, unifyLineEnds, goesOn, ih h.2]
      rintro rest rfl eq
      cases inside with
      | nil => exact lineEnd ⟨rfl, rfl⟩
      | cons d inside =>
        obtain ⟨rfl, -⟩ := List.cons.inj eq
        simp at h

namespace Scan

theorem uncomment_raise (k : Int) (s : Scan) (t : Text) :
    (s.raise k).uncomment t = s.uncomment t := by
  induction s, t using comment_induction with
  | nil s => simp [uncomment]
  | char s c t kept ih =>
    have kept' : (s.raise k).opensComment c t = false := kept
    rw [uncomment_cons kept, uncomment_cons kept', step_raise, ih]
  | line s t outside ih =>
    have outside' : (s.raise k).inLiteral = false := outside
    rw [uncomment_line outside, uncomment_line outside', ih]
  | block s t outside ih =>
    have outside' : (s.raise k).inLiteral = false := outside
    rw [uncomment_block outside, uncomment_block outside', ih]

theorem uncomment_of_plain {s : Scan} (plain : s.place = .plain) (t : Text) :
    s.uncomment t = start.uncomment t := by
  rw [eq_raise (t := start) plain, uncomment_raise]

theorem past?_cons {s : Scan} {c : Char} {t : Text} (h : s.opensComment c t = false) :
    s.past? (c :: t) = (s.step c).past? t := by
  rw [past?.eq_def]
  dsimp only
  split
  · rfl
  · next outside =>
    split
    · simp [opensComment, outside] at h
    · simp [opensComment, outside] at h
    · rfl

theorem past?_line {s : Scan} (outside : s.inLiteral = false) (t : Text) :
    s.past? ('-' :: '-' :: t) = if '\n' ∈ t then s.past? (fromLineEnd t) else none := by
  rw [past?.eq_def]
  simp [outside]

theorem past?_block {s : Scan} (outside : s.inLiteral = false) (t : Text) :
    s.past? ('/' :: '*' :: t) =
      if Text.contains ['*', '/'] t then s.past? (behindBlock t) else none := by
  rw [past?.eq_def]
  simp [outside]

theorem opensComment_append {s : Scan} {c : Char} {a b : Text}
    (h : s.opensComment c a = false) (dash : (c :: a).getLast? = some '-' → b.head? ≠ some '-')
    (star : b.head? ≠ some '*') : s.opensComment c (a ++ b) = false := by
  cases a with
  | cons d a => exact h
  | nil =>
    by_cases last : c = '-'
    · simp [opensComment, last, dash (by simp [last])]
    · simp [opensComment, last, star]

theorem getLast?_of_suffix {a b : Text} (h : a <:+ b) {c : Char} (last : a.getLast? = some c) :
    b.getLast? = some c := by
  rw [← List.singleton_suffix_iff_getLast?_eq_some] at last ⊢
  exact last.trans h

/-- Text that ends outside comments is left in front of other text as it is left alone, if no
comment opens across the boundary. -/
theorem uncomment_append {s s' : Scan} {a b : Text} (h : s.past? a = some s')
    (dash : a.getLast? = some '-' → b.head? ≠ some '-') (star : b.head? ≠ some '*') :
    s.uncomment (a ++ b) = s.uncomment a ++ s'.uncomment b := by
  induction s, a using comment_induction with
  | nil s =>
    have same : s = s' := by simpa [past?] using h
    simp [uncomment, same]
  | char s c a kept ih =>
    have kept' : s.opensComment c (a ++ b) = false := opensComment_append kept dash star
    rw [past?_cons kept] at h
    rw [List.cons_append, uncomment_cons kept', uncomment_cons kept, ih h fun last =>
      dash (getLast?_of_suffix (List.suffix_cons c a) last)]
    rfl
  | line s line outside ih =>
    rw [past?_line outside] at h
    split at h
    · next ended =>
      have behind : fromLineEnd line <:+ '-' :: '-' :: line :=
        (List.dropWhile_suffix _).trans ((List.suffix_cons _ _).trans (List.suffix_cons _ _))
      rw [List.cons_append, List.cons_append, uncomment_line outside, uncomment_line outside,
        fromLineEnd_append ended, ih h fun last => dash (getLast?_of_suffix behind last)]
    · contradiction
  | block s block outside ih =>
    rw [past?_block outside] at h
    split at h
    · next ended =>
      have behind : behindBlock block <:+ '/' :: '*' :: block :=
        (behindBlock_suffix block).trans ((List.suffix_cons _ _).trans (List.suffix_cons _ _))
      rw [List.cons_append, List.cons_append, uncomment_block outside, uncomment_block outside,
        behindBlock_append ended, ih h fun last => dash (getLast?_of_suffix behind last)]
      rfl
    · contradiction

end Scan

/-- Behind text that ends outside, comments are left out as if the text began there. -/
theorem stripComments_append {a b : Text} (outside : EndsOutside a)
    (unified : unifyLineEnds (a ++ b) = unifyLineEnds a ++ unifyLineEnds b)
    (dash : a.getLast? = some '-' → b.head? ≠ some '-') (star : b.head? ≠ some '*') :
    stripComments (a ++ b) = stripComments a ++ stripComments b := by
  obtain ⟨s, past, plain⟩ := outside
  have dash' : (unifyLineEnds a).getLast? = some '-' → (unifyLineEnds b).head? ≠ some '-' := by
    rw [getLast?_unifyLineEnds]
    exact fun last head => dash last (head?_of_unifyLineEnds (by decide) head)
  have star' : (unifyLineEnds b).head? ≠ some '*' :=
    fun head => star (head?_of_unifyLineEnds (by decide) head)
  rw [stripComments, unified, Scan.uncomment_append past dash' star', Scan.uncomment_of_plain plain]
  rfl

theorem stripComments_blockComment {inside : Text}
    (h : Text.contains ['*', '/'] inside = false) (b : Text) :
    stripComments (blockComment inside ++ b) = ' ' :: stripComments b := by
  rw [stripComments, unifyLineEnds_blockComment, Scan.uncomment_block rfl,
    behindBlock_of_not_contains (contains_unifyLineEnds h)]
  rfl

theorem stripComments_lineComment {inside : Text} (h : '\n' ∉ inside) (b : Text) :
    stripComments (lineComment inside ++ b) = '\n' :: stripComments b := by
  have text : unifyLineEnds (lineComment inside ++ b) =
      '-' :: '-' :: unifyLineEnds (inside ++ '\n' :: b) := by
    simp [lineComment, unifyLineEnds]
  rw [stripComments, text, Scan.uncomment_line rfl, fromLineEnd_unifyLineEnds h,
    Scan.uncomment_cons (by simp [Scan.opensComment])]
  rfl

theorem stripComments_blank {c : Char} (h : c = ' ' ∨ c = '\n') (b : Text) :
    stripComments (c :: b) = c :: stripComments b := by
  have unified : unifyLineEnds (c :: b) = c :: unifyLineEnds b := by
    rcases h with rfl | rfl <;> rfl
  have kept : Scan.start.opensComment c (unifyLineEnds b) = false := by
    rcases h with rfl | rfl <;> simp [Scan.opensComment]
  have still : Scan.start.step c = .start := by
    rcases h with rfl | rfl <;> rfl
  rw [stripComments, unified, Scan.uncomment_cons kept, still]
  rfl

/-- Behind text that ends outside literals and comments, a block comment is a space and a line
comment its line end, so that whatever stands inside the comment makes no difference, and what
stands behind it is not joined to what stands in front. A dash at the end of the text would begin
the line comment earlier, and a return would belong to the line end. -/
theorem extract_comment {a : Text} (outside : EndsOutside a) (b : Text) :
    (∀ inside, Text.contains ['*', '/'] inside = false →
      stripComments (a ++ (blockComment inside ++ b)) = stripComments a ++ ' ' :: stripComments b ∧
        extract (a ++ (blockComment inside ++ b)) = extract (a ++ ' ' :: b)) ∧
    (a.getLast? ≠ some '-' → a.getLast? ≠ some '\r' → ∀ inside, '\n' ∉ inside →
      stripComments (a ++ (lineComment inside ++ b)) = stripComments a ++ '\n' :: stripComments b ∧
        extract (a ++ (lineComment inside ++ b)) = extract (a ++ '\n' :: b)) := by
  constructor
  · intro inside unended
    have space : stripComments (a ++ ' ' :: b) = stripComments a ++ ' ' :: stripComments b := by
      rw [stripComments_append outside (unifyLineEnds_append_of_head (by simp) a) (by simp)
        (by simp), stripComments_blank (.inl rfl)]
    have comment : stripComments (a ++ (blockComment inside ++ b)) =
        stripComments a ++ ' ' :: stripComments b := by
      rw [stripComments_append outside (unifyLineEnds_append_of_head (by simp [blockComment]) a)
        (by simp [blockComment]) (by simp [blockComment]), stripComments_blockComment unended]
    exact ⟨comment, by rw [extract, comment, extract, space]⟩
  · intro dash noReturn inside unended
    have lineEnd : stripComments (a ++ '\n' :: b) = stripComments a ++ '\n' :: stripComments b := by
      rw [stripComments_append outside (unifyLineEnds_append_of_getLast noReturn _) (by simp)
        (by simp), stripComments_blank (.inr rfl)]
    have comment : stripComments (a ++ (lineComment inside ++ b)) =
        stripComments a ++ '\n' :: stripComments b := by
      rw [stripComments_append outside (unifyLineEnds_append_of_getLast noReturn _)
        (fun last => absurd last dash) (by simp [lineComment]), stripComments_lineComment unended]
    exact ⟨comment, by rw [extract, comment, extract, lineEnd]⟩

def slashed : Text := Text.ofString "CREATE TABLE t (x TEXT DEFAULT '--/*' /* ' */ NOT/"

theorem extract_slashed_comment :
    EndsOutside slashed ∧
      (∀ inside ∈ [Text.ofString "/ ' ( -- *", Text.ofString "NULL UNIQUE"],
        extract (slashed ++ (blockComment inside ++ Text.ofString "NULL)")) =
          extract (slashed ++ ' ' :: Text.ofString "NULL)")) ∧
      extract (slashed ++ (lineComment (Text.ofString "' /* \r") ++ Text.ofString "NULL)")) =
        extract (slashed ++ '\n' :: Text.ofString "NULL)") ∧
      (extract (slashed ++ ' ' :: Text.ofString "NULL)")).tables.map
        (fun t => t.columns.map (·.isNotNull)) = [[true]] := by
  have outside : EndsOutside slashed := ⟨⟨.plain, 1⟩, by decide +kernel, rfl⟩
  have blanks := extract_comment outside (Text.ofString "NULL)")
  have unended : ∀ inside ∈ [Text.ofString "/ ' ( -- *", Text.ofString "NULL UNIQUE"],
      Text.contains ['*', '/'] inside = false := by
    decide
  refine ⟨outside, fun inside mem => (blanks.1 inside (unended inside mem)).2, ?_, by decide +kernel⟩
  exact (blanks.2 (by decide) (by decide) _ (by decide)).2

end SchemaDiagram.Sql
