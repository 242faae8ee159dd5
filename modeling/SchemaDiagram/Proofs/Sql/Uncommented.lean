import SchemaDiagram.Proofs.Sql.Scanning

/-!
# Text without comments

Text in which no comment opens outside the literals is left as it is. Behind a semicolon that is
left, comments are left out as if the text began there.
-/

namespace SchemaDiagram.Sql

def Scan.opensComment (s : Scan) (c : Char) (rest : Text) : Bool :=
  !s.inLiteral && (c == '-' && rest.head? == some '-' || c == '/' && rest.head? == some '*')

def Scan.commentFree (s : Scan) : Text → Bool
  | [] => true
  | c :: rest => !s.opensComment c rest && (s.step c).commentFree rest

namespace Scan

theorem uncomment_of_commentFree {s : Scan} {t : Text} (h : s.commentFree t) :
    s.uncomment t = t := by
  fun_induction uncomment s t with
  | case1 => rfl
  | case2 s c rest inside ih =>
    simp only [commentFree, Bool.and_eq_true] at h
    rw [ih h.2]
  | case3 s outside line ih =>
    simp [commentFree, opensComment, outside] at h
  | case4 s outside block ih =>
    simp [commentFree, opensComment, outside] at h
  | case5 s outside c rest _ _ ih =>
    simp only [commentFree, Bool.and_eq_true] at h
    rw [ih h.2]

theorem commentFree_raise (k : Int) (s : Scan) (t : Text) :
    (s.raise k).commentFree t = s.commentFree t := by
  induction t generalizing s with
  | nil => rfl
  | cons c t ih => rw [commentFree, commentFree, step_raise, ih]; rfl

theorem commentFree_append {s : Scan} {a b : Text} (ha : s.commentFree a)
    (hb : (s.run a).commentFree b) (dash : b.head? ≠ some '-') (star : b.head? ≠ some '*') :
    s.commentFree (a ++ b) := by
  induction a generalizing s with
  | nil => exact hb
  | cons c a ih =>
    simp only [List.cons_append, commentFree, Bool.and_eq_true, Bool.not_eq_true'] at ha ⊢
    refine ⟨?_, ih ha.2 hb⟩
    cases a with
    | nil => simp [opensComment, dash, star]
    | cons d a => exact ha.1

end Scan

theorem unifyLineEnds_of_not_mem {t : Text} (h : '\r' ∉ t) : unifyLineEnds t = t := by
  fun_induction unifyLineEnds t with
  | case1 rest ih => simp at h
  | case2 c rest _ ih =>
    rw [ih fun hr => h (List.mem_cons_of_mem _ hr)]
  | case3 => rfl

theorem stripComments_of_commentFree {t : Text} (noReturn : '\r' ∉ t)
    (free : Scan.start.commentFree t) : stripComments t = t := by
  rw [stripComments, unifyLineEnds_of_not_mem noReturn, Scan.uncomment_of_commentFree free]

/-- A line comment that is still open at a semicolon goes on behind it. -/
theorem fromLineEnd_semicolon (a : Text) :
    (∀ b, fromLineEnd (a ++ ';' :: b) = fromLineEnd a ++ ';' :: b) ∨
      ∀ b, fromLineEnd (a ++ ';' :: b) = fromLineEnd b := by
  induction a with
  | nil => exact .inr fun b => rfl
  | cons c a ih =>
    by_cases lineEnd : c = '\n'
    · subst lineEnd
      exact .inl fun b => rfl
    · have goesOn (b : Text) : fromLineEnd (c :: b) = fromLineEnd b :=
        List.dropWhile_cons_of_pos (by simp [lineEnd])
      simpa only [List.cons_append, goesOn] using ih

/-- A block comment that is still open at a semicolon goes on behind it. -/
theorem behindBlock_semicolon (a : Text) :
    (∀ b, behindBlock (a ++ ';' :: b) = behindBlock a ++ ';' :: b) ∨
      ∀ b, behindBlock (a ++ ';' :: b) = behindBlock b := by
  fun_induction behindBlock a with
  | case1 rest => exact .inl fun b => rfl
  | case2 c rest other ih =>
    have goesOn (b : Text) :
        behindBlock (c :: rest ++ ';' :: b) = behindBlock (rest ++ ';' :: b) := by
      rw [List.cons_append, behindBlock]
      rintro rest' rfl eq
      cases rest with
      | nil => simp at eq
      | cons d rest =>
        obtain ⟨rfl, -⟩ := List.cons.inj eq
        exact other rest rfl rfl
    simpa only [goesOn] using ih
  | case3 =>
    right
    intro b
    rw [List.nil_append, behindBlock]
    simp

theorem behindBlock_suffix (t : Text) : behindBlock t <:+ t := by
  fun_induction behindBlock t with
  | case1 rest => exact (List.suffix_cons _ _).trans (List.suffix_cons _ _)
  | case2 c rest _ ih => exact ih.trans (List.suffix_cons _ _)
  | case3 => exact List.suffix_rfl

namespace Scan

theorem uncomment_cons {s : Scan} {c : Char} {t : Text} (h : s.opensComment c t = false) :
    s.uncomment (c :: t) = c :: (s.step c).uncomment t := by
  rw [uncomment.eq_def]
  dsimp only
  split
  · rfl
  · next outside =>
    split
    · simp [opensComment, outside] at h
    · simp [opensComment, outside] at h
    · rfl

theorem uncomment_line {s : Scan} (outside : s.inLiteral = false) (t : Text) :
    s.uncomment ('-' :: '-' :: t) = s.uncomment (fromLineEnd t) := by
  rw [uncomment.eq_def]
  simp [outside]

theorem uncomment_block {s : Scan} (outside : s.inLiteral = false) (t : Text) :
    s.uncomment ('/' :: '*' :: t) = ' ' :: s.uncomment (behindBlock t) := by
  rw [uncomment.eq_def]
  simp [outside]

theorem opensComment_semicolon (s : Scan) (c : Char) (t b : Text) :
    s.opensComment c (t ++ ';' :: b) = s.opensComment c t := by
  cases t <;> simp [opensComment]

/-- A scan goes over a text by single characters, by line comments and by block comments. -/
theorem comment_induction {motive : Scan → Text → Prop} (nil : ∀ s, motive s [])
    (char : ∀ s c t, s.opensComment c t = false → motive (s.step c) t → motive s (c :: t))
    (line : ∀ s t, s.inLiteral = false → motive s (fromLineEnd t) → motive s ('-' :: '-' :: t))
    (block : ∀ s t, s.inLiteral = false → motive s (behindBlock t) → motive s ('/' :: '*' :: t))
    (s : Scan) (t : Text) : motive s t := by
  fun_induction uncomment s t with
  | case1 s => exact nil s
  | case2 s c t inside ih =>
    refine char s c t ?_ ih
    simp [opensComment, inside]
  | case3 s outside t ih => exact line s t (by simpa using outside) ih
  | case4 s outside t ih => exact block s t (by simpa using outside) ih
  | case5 s outside c t noLine noBlock ih =>
    refine char s c t ?_ ih
    cases t with
    | nil => simp [opensComment]
    | cons d t =>
      simp only [opensComment, List.head?_cons, Option.some_beq_some, Bool.and_eq_false_iff,
        Bool.or_eq_false_iff, Bool.not_eq_false', beq_eq_false_iff_ne, ne_eq]
      refine .inr ⟨?_, ?_⟩
      · by_cases dash : c = '-'
        · exact .inr fun eq => noLine t dash (by simp_all)
        · exact .inl dash
      · by_cases slash : c = '/'
        · exact .inr fun eq => noBlock t slash (by simp_all)
        · exact .inl slash

/-- Behind a semicolon that stays, comments are left out as they are behind the text that is left
before it. -/
theorem uncomment_semicolon {s : Scan} {t : Text}
    (h : s.uncomment (t ++ [';']) = s.uncomment t ++ [';']) (b : Text) :
    s.uncomment (t ++ ';' :: b) =
      s.uncomment t ++ ';' :: ((s.run (s.uncomment t)).step ';').uncomment b := by
  induction s, t using comment_induction with
  | nil s => simp [uncomment, run, uncomment_cons, opensComment]
  | char s c t kept ih =>
    have kept' (b : Text) : s.opensComment c (t ++ ';' :: b) = false :=
      (opensComment_semicolon s c t b).trans kept
    rw [List.cons_append, uncomment_cons (kept' _), uncomment_cons kept] at h ⊢
    rw [ih (List.cons.inj h).2]
    rfl
  | line s line outside ih =>
    simp only [List.cons_append, uncomment_line outside] at h ⊢
    rcases fromLineEnd_semicolon line with ended | goesOn
    · rw [ended] at h ⊢
      exact ih h
    · rw [goesOn] at h
      simp [fromLineEnd, uncomment] at h
  | block s block outside ih =>
    simp only [List.cons_append, uncomment_block outside] at h ⊢
    have plain : s.step ' ' = s := by
      have place : s.place = .plain := by simpa [inLiteral] using outside
      simp [step, place]
    rcases behindBlock_semicolon block with ended | goesOn
    · rw [ended] at h ⊢
      rw [ih (List.cons.inj h).2]
      change _ = ' ' :: (_ ++ ';' :: (((s.step ' ').run _).step ';').uncomment b)
      rw [plain]
    · rw [goesOn] at h
      simp [behindBlock, uncomment] at h

/-- What is left without the comments was there before, but for the spaces. -/
theorem mem_of_mem_uncomment {s : Scan} {t : Text} {c : Char} (h : c ∈ s.uncomment t) :
    c ∈ t ∨ c = ' ' := by
  fun_induction uncomment s t with
  | case1 => simp at h
  | case2 s d t inside ih =>
    rcases List.mem_cons.1 h with rfl | h
    · simp
    · exact (ih h).imp_left (List.mem_cons_of_mem d)
  | case3 s outside line ih =>
    refine (ih h).imp_left fun mem => ?_
    exact List.mem_cons_of_mem _ (List.mem_cons_of_mem _ ((List.dropWhile_sublist _).subset mem))
  | case4 s outside block ih =>
    rcases List.mem_cons.1 h with rfl | h
    · simp
    · refine (ih h).imp_left fun mem => ?_
      exact List.mem_cons_of_mem _ (List.mem_cons_of_mem _ ((behindBlock_suffix block).subset mem))
  | case5 s outside d t _ _ ih =>
    rcases List.mem_cons.1 h with rfl | h
    · simp
    · exact (ih h).imp_left (List.mem_cons_of_mem d)

end Scan

theorem unifyLineEnds_append {p : Text} (h : '\r' ∉ p) (t : Text) :
    unifyLineEnds (p ++ t) = p ++ unifyLineEnds t := by
  induction p with
  | nil => rfl
  | cons c p ih =>
    rw [List.mem_cons, not_or] at h
    rw [List.cons_append, unifyLineEnds, ih h.2, List.cons_append]
    rintro rest rfl
    simp at h

/-- Comments are left out before and behind a semicolon apart, if the semicolon stays and no literal
is open there. -/
theorem stripComments_semicolon {p : Text} (noReturn : '\r' ∉ p)
    (stays : stripComments (p ++ [';']) = stripComments p ++ [';'])
    (returns : Scan.start.run (stripComments p) = .start) (t : Text) :
    stripComments (p ++ ';' :: t) = stripComments p ++ ';' :: stripComments t := by
  have unify (t : Text) : unifyLineEnds (p ++ t) = p ++ unifyLineEnds t :=
    unifyLineEnds_append noReturn t
  have whole : unifyLineEnds p = p := unifyLineEnds_of_not_mem noReturn
  have semicolon (t : Text) : unifyLineEnds (';' :: t) = ';' :: unifyLineEnds t := rfl
  simp only [stripComments, unify, whole, semicolon] at stays returns ⊢
  rw [Scan.uncomment_semicolon stays, returns]
  rfl

theorem unifyLineEnds_append_of_head {b : Text} (h : b.head? ≠ some '\n') (a : Text) :
    unifyLineEnds (a ++ b) = unifyLineEnds a ++ unifyLineEnds b := by
  fun_induction unifyLineEnds a with
  | case1 rest ih => exact congrArg ('\n' :: ·) ih
  | case2 c rest other ih =>
    rw [List.cons_append, unifyLineEnds, ih, List.cons_append]
    rintro rest' rfl eq
    cases rest with
    | nil =>
      rw [List.nil_append] at eq
      simp [eq] at h
    | cons d rest =>
      obtain ⟨rfl, -⟩ := List.cons.inj eq
      exact other rest rfl rfl
  | case3 => rfl

theorem head?_of_unifyLineEnds {d : Char} (hd : d ≠ '\n') {t : Text}
    (h : (unifyLineEnds t).head? = some d) : t.head? = some d := by
  fun_induction unifyLineEnds t with
  | case1 rest => exact absurd (Option.some_inj.1 h).symm hd
  | case2 c rest => exact h
  | case3 => exact h

namespace Scan

theorem step_return {s : Scan} (h : s.InQuotes) : (s.step '\r').step '\n' = s.step '\n' := by
  obtain ⟨place, depth⟩ := s
  cases place with
  | plain => rfl
  | literal quote escaped =>
    rcases h quote escaped rfl with rfl | rfl <;> cases escaped <;> rfl

theorem opensComment_unifyLineEnds {s : Scan} {c : Char} {t : Text}
    (h : s.opensComment c t = false) : s.opensComment c (unifyLineEnds t) = false := by
  simp only [opensComment, Bool.and_eq_false_iff, Bool.or_eq_false_iff, beq_eq_false_iff_ne,
    ne_eq] at h ⊢
  refine h.imp_right fun h => ⟨h.1.imp_right fun dash => ?_, h.2.imp_right fun star => ?_⟩
  · exact fun opens => dash (head?_of_unifyLineEnds (by decide) opens)
  · exact fun opens => star (head?_of_unifyLineEnds (by decide) opens)

theorem commentFree_unifyLineEnds {s : Scan} (known : s.InQuotes) {t : Text}
    (h : s.commentFree t) : s.commentFree (unifyLineEnds t) := by
  fun_induction unifyLineEnds t generalizing s with
  | case1 rest ih =>
    simp only [commentFree, Bool.and_eq_true] at h ⊢
    rw [step_return known] at h
    exact ⟨by simp [opensComment], ih (inQuotes_step known _) h.2.2⟩
  | case2 c rest _ ih =>
    simp only [commentFree, Bool.and_eq_true, Bool.not_eq_true'] at h ⊢
    exact ⟨opensComment_unifyLineEnds h.1, ih (inQuotes_step known _) h.2⟩
  | case3 => rfl

end Scan

theorem stripComments_eq_unifyLineEnds {t : Text} (free : Scan.start.commentFree t) :
    stripComments t = unifyLineEnds t :=
  Scan.uncomment_of_commentFree (Scan.commentFree_unifyLineEnds Scan.inQuotes_start free)

/-- A scan sees no comment in the text and ends outside the literals. -/
structure Clean (t : Text) : Prop where
  commentFree : Scan.start.commentFree t
  plain : (Scan.start.run t).place = .plain

instance (t : Text) : Decidable (Clean t) :=
  decidable_of_iff (Scan.start.commentFree t ∧ (Scan.start.run t).place = .plain)
    ⟨fun ⟨commentFree, plain⟩ => ⟨commentFree, plain⟩,
      fun ⟨commentFree, plain⟩ => ⟨commentFree, plain⟩⟩

theorem Clean.append {a b : Text} (ha : Clean a) (hb : Clean b) (dash : b.head? ≠ some '-')
    (star : b.head? ≠ some '*') : Clean (a ++ b) := by
  have raised := Scan.eq_raise (t := .start) ha.plain
  refine ⟨Scan.commentFree_append ha.commentFree ?_ dash star, ?_⟩
  · rw [raised, Scan.commentFree_raise]
    exact hb.commentFree
  · rw [Scan.run_append, raised, Scan.run_raise]
    exact hb.plain

/-- In front of clean text, what opens neither a literal nor a comment leaves it clean. -/
theorem Clean.behind {a b : Text} (h : ∀ c ∈ a, c ∉ ['\'', '"', '-', '/']) (hb : Clean b) :
    Clean (a ++ b) := by
  induction a with
  | nil => exact hb
  | cons c a ih =>
    rw [List.forall_mem_cons] at h
    have rest := ih h.2
    have marks := h.1
    simp only [List.mem_cons, List.not_mem_nil, or_false, not_or] at marks
    have plain : (Scan.start.step c).place = .plain := by
      simp only [Scan.step, Scan.start, marks, or_self, if_false]
      split
      · rfl
      · split <;> rfl
    have raised := Scan.eq_raise (t := .start) plain
    have noComment : Scan.start.opensComment c (a ++ b) = false := by
      simp [Scan.opensComment, marks]
    refine ⟨?_, ?_⟩
    · rw [List.cons_append, Scan.commentFree, noComment, raised, Scan.commentFree_raise,
        rest.commentFree]
      rfl
    · change ((Scan.start.step c).run (a ++ b)).place = .plain
      rw [raised, Scan.run_raise]
      exact rest.plain

end SchemaDiagram.Sql
