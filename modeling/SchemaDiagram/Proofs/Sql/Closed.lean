import SchemaDiagram.Proofs.Sql.Boundaries
import SchemaDiagram.Proofs.Sql.Uncommented

/-!
# Closed text

Text that every reader passes over as a whole: a scan comes out as it went in, no comment opens, and
the tokens end with it.
-/

namespace SchemaDiagram.Sql

structure Closed (t : Text) : Prop where
  balanced : Balanced t
  commentFree : Scan.start.commentFree t
  /-- Outside the literals no name is quoted in a way that a scan does not know. -/
  known : Scan.start.avoids Scan.opensName t
  noBackslash : '\\' ∉ t
  noReturn : '\r' ∉ t

instance (t : Text) : Decidable (Closed t) :=
  decidable_of_iff (Balanced t ∧ Scan.start.commentFree t ∧ Scan.start.avoids Scan.opensName t ∧
      '\\' ∉ t ∧ '\r' ∉ t)
    ⟨fun ⟨balanced, free, known, noBackslash, noReturn⟩ =>
      ⟨balanced, free, known, noBackslash, noReturn⟩,
      fun ⟨balanced, free, known, noBackslash, noReturn⟩ =>
        ⟨balanced, free, known, noBackslash, noReturn⟩⟩

/-- Text that a scan and the tokens agree on; what opens a comment elsewhere may stand in it. -/
structure Clear (t : Text) : Prop where
  balanced : Balanced t
  /-- Outside the literals no name is quoted in a way that a scan does not know. -/
  known : Scan.start.avoids Scan.opensName t
  noBackslash : '\\' ∉ t

theorem Closed.clear {t : Text} (h : Closed t) : Clear t := ⟨h.balanced, h.known, h.noBackslash⟩

/-- Balanced text is clear if no bracket, no backtick and no backslash stands in it. -/
theorem Clear.of_free {t : Text} (balanced : Balanced t) (free : ∀ c ∈ t, c ∉ ['\x60', '[', '\\']) :
    Clear t where
  balanced
  known := by
    have free' : ∀ s : Scan, s.avoids Scan.opensName t := by
      clear balanced
      induction t with
      | nil => exact fun _ => rfl
      | cons c t ih =>
        rw [List.forall_mem_cons] at free
        simp only [List.mem_cons, List.not_mem_nil, or_false, not_or] at free
        intro s
        rw [Scan.avoids, ih (by simpa using free.2) (s.step c)]
        simp [Scan.opensName, free.1]
    exact free' .start
  noBackslash mem := free _ mem (by simp)

theorem Clear.splits {t b : Text} (h : Clear t) (hb : Delimited b) : Splits t b :=
  splits_of_closed rfl h.noBackslash h.known (by rw [h.balanced.returns]; rfl) hb

/-- In front of `b`, the text `t` is read as on its own. -/
structure Standalone (t b : Text) : Prop where
  balanced : Balanced t
  commentFree : Scan.start.commentFree b → Scan.start.commentFree (t ++ b)
  splits : Splits t b
  noReturn : '\r' ∉ t

theorem Closed.standalone {t b : Text} (h : Closed t) (hb : Delimited b) : Standalone t b where
  balanced := h.balanced
  commentFree free := Scan.commentFree_append h.commentFree (by rw [h.balanced.returns]; exact free)
    (hb.head_ne rfl) (hb.head_ne rfl)
  splits := h.clear.splits hb
  noReturn := h.noReturn

namespace Standalone

theorem nil (b : Text) : Standalone [] b := ⟨.nil, id, .nil b, List.not_mem_nil⟩

theorem append {a b c : Text} (ha : Standalone a (b ++ c)) (hb : Standalone b c) :
    Standalone (a ++ b) c where
  balanced := ha.balanced.append hb.balanced
  commentFree free := by
    rw [List.append_assoc]
    exact ha.commentFree (hb.commentFree free)
  splits := ha.splits.append hb.splits
  noReturn := by simp [ha.noReturn, hb.noReturn]

theorem group {t b : Text} (h : Standalone t (')' :: b)) : Standalone ('(' :: t ++ [')']) b where
  balanced := h.balanced.group
  commentFree free := by
    have closing : Scan.start.commentFree (')' :: b) := by
      change (Scan.start.raise (-1)).commentFree b
      rw [Scan.commentFree_raise, free]
    have all : Scan.start.commentFree ('(' :: (t ++ ')' :: b)) := by
      change (Scan.start.raise 1).commentFree (t ++ ')' :: b)
      rw [Scan.commentFree_raise, h.commentFree closing]
    simpa using all
  splits := by
    have closing : Splits [')'] b := .mark rfl rfl (.nil b)
    exact .mark rfl rfl (h.splits.append closing)
  noReturn := by simp [h.noReturn]

theorem comma_space (b : Text) : Standalone [',', ' '] b where
  balanced := ⟨rfl, rfl⟩
  commentFree := id
  splits := .mark rfl rfl (.gap rfl (.nil b))
  noReturn := by decide

theorem join {parts : List Text} (h : ∀ p ∈ parts, ∀ b, Delimited b → Standalone p b) {b : Text}
    (hb : Delimited b) : Standalone (Text.join [',', ' '] parts) b := by
  induction parts with
  | nil => exact .nil b
  | cons p parts ih =>
    rw [List.forall_mem_cons] at h
    cases parts with
    | nil => simpa [Text.join] using h.1 b hb
    | cons q parts =>
      rw [Text.join, List.intercalate_cons_cons]
      exact .append (.append (h.1 _ rfl) (comma_space _)) (ih h.2)

end Standalone

/-- Text that stands alone and that no list is cut in. -/
structure Inline (t b : Text) : Prop extends Standalone t b where
  uncut : Scan.start.avoids Scan.cuts t

namespace Inline

theorem nil (b : Text) : Inline [] b := ⟨.nil b, rfl⟩

theorem append {a b c : Text} (ha : Inline a (b ++ c)) (hb : Inline b c) : Inline (a ++ b) c where
  toStandalone := ha.toStandalone.append hb.toStandalone
  uncut := by rw [Scan.avoids_append, ha.balanced.returns, ha.uncut, hb.uncut]; rfl

theorem group {t b : Text} (h : Standalone t (')' :: b)) : Inline ('(' :: t ++ [')']) b :=
  ⟨h.group, h.balanced.avoids_cuts_group⟩

end Inline

/-- A character without a meaning of its own for scans, comments and quotings. -/
def harmless (c : Char) : Bool := c ∉ ['\'', '"', '(', ')', '\x60', '[', '\\', '\r', '-', '/']

theorem harmless_of_isNameChar {c : Char} (h : isNameChar c) : harmless c := by
  apply decide_eq_true
  intro special
  simp only [List.mem_cons, List.not_mem_nil, or_false] at special
  rcases special with rfl | rfl | rfl | rfl | rfl | rfl | rfl | rfl | rfl | rfl <;>
    exact absurd h (by decide)

theorem ordinary_of_harmless {c : Char} (h : harmless c) : ordinary c := by
  simp [harmless, ordinary] at h ⊢
  simp [h]

theorem Scan.avoids_of_ordinary {stop : Scan → Char → Bool} {s : Scan} (plain : s.place = .plain)
    {t : Text} (h : ∀ c ∈ t, ordinary c ∧ stop s c = false) : s.avoids stop t := by
  induction t with
  | nil => rfl
  | cons c t ih =>
    rw [List.forall_mem_cons] at h
    rw [avoids, h.1.2, step_ordinary plain h.1.1, ih h.2]
    rfl

theorem balanced_of_ordinary {t : Text} (h : ∀ c ∈ t, ordinary c) : Balanced t := by
  refine ⟨Scan.run_ordinary rfl h, Scan.avoids_of_ordinary rfl fun c hc => ⟨h c hc, ?_⟩⟩
  rw [Scan.falls, Scan.step_ordinary rfl (h c hc)]
  rfl

theorem Scan.commentFree_append_of_ordinary {a b : Text}
    (h : ∀ c ∈ a, ordinary c ∧ c ≠ '-' ∧ c ≠ '/') (free : start.commentFree b) :
    start.commentFree (a ++ b) := by
  induction a with
  | nil => exact free
  | cons c a ih =>
    rw [List.forall_mem_cons] at h
    rw [List.cons_append, commentFree, step_ordinary rfl h.1.1, ih h.2]
    simp [opensComment, h.1.2]

theorem closed_of_harmless {t : Text} (h : ∀ c ∈ t, harmless c) : Closed t where
  balanced := balanced_of_ordinary fun c hc => ordinary_of_harmless (h c hc)
  commentFree := by
    have free := Scan.commentFree_append_of_ordinary (a := t) (b := []) (fun c hc => ?_) rfl
    · simpa using free
    · have marks := h c hc
      simp [harmless] at marks
      simp [ordinary_of_harmless (h c hc), marks]
  known := Scan.avoids_of_ordinary rfl fun c hc => by
    refine ⟨ordinary_of_harmless (h c hc), ?_⟩
    have marks := h c hc
    simp [harmless] at marks
    simp [Scan.opensName, marks]
  noBackslash := fun hc => absurd (h _ hc) (by decide)
  noReturn := fun hc => absurd (h _ hc) (by decide)

theorem Closed.clean {t : Text} (h : Closed t) : Clean t :=
  ⟨h.commentFree, by rw [h.balanced.returns]; rfl⟩

theorem Closed.cons {c : Char} {t : Text} (hc : harmless c) (h : Closed t) : Closed (c :: t) := by
  have single : Closed [c] := closed_of_harmless (List.forall_mem_singleton.2 hc)
  have marks := hc
  simp only [harmless, List.mem_cons, List.not_mem_nil, or_false, not_or,
    decide_eq_true_eq] at marks
  have noComment : Scan.start.opensComment c t = false := by simp [Scan.opensComment, marks]
  have still : Scan.start.step c = .start := Scan.step_ordinary rfl (ordinary_of_harmless hc)
  exact {
    balanced := single.balanced.append h.balanced
    commentFree := by rw [Scan.commentFree, noComment, still, h.commentFree]; rfl
    known := by rw [Scan.avoids, still, h.known]; simp [Scan.opensName, marks]
    noBackslash := List.not_mem_cons_of_ne_of_not_mem (Ne.symm (by simp [marks])) h.noBackslash
    noReturn := List.not_mem_cons_of_ne_of_not_mem (Ne.symm (by simp [marks])) h.noReturn }

theorem Closed.append {a b : Text} (ha : Closed a) (hb : Closed b) (behind : Delimited b) :
    Closed (a ++ b) where
  balanced := ha.balanced.append hb.balanced
  commentFree := (ha.standalone behind).commentFree hb.commentFree
  known := by rw [Scan.avoids_append, ha.balanced.returns, ha.known, hb.known]; rfl
  noBackslash := by simp [ha.noBackslash, hb.noBackslash]
  noReturn := by simp [ha.noReturn, hb.noReturn]

inductive Quoting where
  | doubleQuotes
  | backticks
  | brackets
  deriving DecidableEq, Repr

/-- The characters of a name, each `close` among them written twice. -/
def doubledBy (close : Char) (name : Text) : Text :=
  name.flatMap fun c => if c = close then [close, close] else [c]

theorem doubledBy_cons (close c : Char) (name : Text) :
    doubledBy close (c :: name) =
      (if c = close then [close, close] else [c]) ++ doubledBy close name :=
  List.flatMap_cons

theorem head?_doubledBy (close : Char) (t : Text) : (doubledBy close t).head? = t.head? := by
  cases t with
  | nil => rfl
  | cons c t =>
    rw [doubledBy_cons]
    by_cases hc : c = close
    · simp [hc]
    · simp [hc]

namespace Quoting

def opening : Quoting → Char
  | doubleQuotes => '"'
  | backticks => '\x60'
  | brackets => '['

def closing : Quoting → Char
  | doubleQuotes => '"'
  | backticks => '\x60'
  | brackets => ']'

def write (q : Quoting) (name : Text) : Text :=
  q.opening :: doubledBy q.closing name ++ [q.closing]

variable {q : Quoting} {name : Text}

theorem write_append (b : Text) :
    q.write name ++ b = q.opening :: (doubledBy q.closing name ++ q.closing :: b) := by
  simp [write]

theorem mem_write {c : Char} (h : c ∈ q.write name) :
    c = q.opening ∨ c ∈ name ∨ c = q.closing := by
  simp only [write, List.cons_append, List.mem_cons, List.mem_append, List.not_mem_nil,
    or_false] at h
  rcases h with first | body | last
  · exact .inl first
  · obtain ⟨d, hd, mem⟩ := List.mem_flatMap.1 body
    split at mem
    · next same => exact .inr (.inl (by simp_all))
    · exact .inr (.inl (List.mem_singleton.1 mem ▸ hd))
  · exact .inr (.inr last)

theorem not_mem_write {c : Char} (noName : c ∉ name) (noMark : c ≠ q.opening ∧ c ≠ q.closing) :
    c ∉ q.write name := by
  intro mem
  rcases mem_write mem with rfl | mem | rfl
  · exact noMark.1 rfl
  · exact noName mem
  · exact noMark.2 rfl

end Quoting

abbrev quoted (name : Text) : Text := Quoting.doubleQuotes.write name

/-- A name that can be written in double quotes. -/
structure Quotable (name : Text) : Prop where
  noBackslash : '\\' ∉ name
  noReturn : '\r' ∉ name

instance (name : Text) : Decidable (Quotable name) :=
  decidable_of_iff ('\\' ∉ name ∧ '\r' ∉ name)
    ⟨fun ⟨noBackslash, noReturn⟩ => ⟨noBackslash, noReturn⟩,
      fun ⟨noBackslash, noReturn⟩ => ⟨noBackslash, noReturn⟩⟩

namespace Scan

variable {depth : Int} {name : Text}

theorem run_reading_doubledBy (h : '\\' ∉ name) :
    (reading '"' depth).run (doubledBy '"' name) = reading '"' depth := by
  induction name with
  | nil => rfl
  | cons c name ih =>
    rw [List.mem_cons, not_or] at h
    rw [doubledBy_cons, run_append]
    have same : (reading '"' depth).run (if c = '"' then ['"', '"'] else [c]) =
        reading '"' depth := by
      by_cases hc : c = '"'
      · rw [if_pos hc]
        exact run_reading_doubled (.inr rfl)
      · rw [if_neg hc]
        exact run_reading_other hc (Ne.symm h.1)
    rw [same, ih h.2]

theorem run_quoted (h : '\\' ∉ name) : (mk .plain depth).run (quoted name) = ⟨.plain, depth⟩ := by
  change (reading '"' depth).run (doubledBy '"' name ++ ['"']) = _
  rw [run_append, run_reading_doubledBy h]
  rfl

/-- What stops no scan inside a literal, and none at a quote, stops none at a quoted name. -/
theorem avoids_quoted {stop : Scan → Char → Bool} (h : '\\' ∉ name)
    (inside : ∀ c, stop (reading '"' depth) c = false)
    (opening : stop ⟨.plain, depth⟩ '"' = false) :
    (mk .plain depth).avoids stop (quoted name) := by
  have body : (reading '"' depth).avoids stop (doubledBy '"' name) := by
    induction name with
    | nil => rfl
    | cons c name ih =>
      rw [List.mem_cons, not_or] at h
      rw [doubledBy_cons, avoids_append, Bool.and_eq_true]
      by_cases hc : c = '"'
      · rw [if_pos hc]
        have passed : (reading '"' depth).avoids stop ['"', '"'] := by
          change (!stop (reading '"' depth) '"' && (!stop ⟨.plain, depth⟩ '"' && true)) = true
          rw [inside, opening]
          rfl
        exact ⟨passed, ih h.2⟩
      · rw [if_neg hc]
        have same : (reading '"' depth).run [c] = reading '"' depth :=
          run_reading_other hc (Ne.symm h.1)
        change (!stop (reading '"' depth) c && true) = true ∧ _
        rw [inside, same]
        exact ⟨rfl, ih h.2⟩
  change (!stop ⟨.plain, depth⟩ '"' &&
    (reading '"' depth).avoids stop (doubledBy '"' name ++ ['"'])) = true
  rw [opening, avoids_append, body, run_reading_doubledBy h]
  simp [avoids, inside]

theorem commentFree_quoted (h : '\\' ∉ name) : start.commentFree (quoted name) := by
  have body : (reading '"' 0).commentFree (doubledBy '"' name ++ ['"']) := by
    induction name with
    | nil => rfl
    | cons c name ih =>
      rw [List.mem_cons, not_or] at h
      rw [doubledBy_cons, List.append_assoc]
      by_cases hc : c = '"'
      · rw [if_pos hc]
        exact ih h.2
      · rw [if_neg hc]
        change ((reading '"' 0).run [c]).commentFree (doubledBy '"' name ++ ['"']) = true
        rw [run_reading_other hc (Ne.symm h.1)]
        exact ih h.2
  exact body

end Scan

theorem Quotable.closed {name : Text} (h : Quotable name) : Closed (quoted name) where
  balanced := by
    refine ⟨Scan.run_quoted h.noBackslash, Scan.avoids_quoted h.noBackslash (fun c => ?_) rfl⟩
    have depth : ((Scan.reading '"' 0).step c).depth = 0 := by
      simp only [Scan.reading, Scan.step, Bool.false_eq_true, if_false]
      split
      · rfl
      · split <;> rfl
    simp [Scan.falls, depth]
  commentFree := Scan.commentFree_quoted h.noBackslash
  known := Scan.avoids_quoted h.noBackslash (fun c => rfl) rfl
  noBackslash := Quoting.not_mem_write h.noBackslash (by decide)
  noReturn := Quoting.not_mem_write h.noReturn (by decide)

theorem Quotable.inline {name b : Text} (h : Quotable name) (hb : Delimited b) :
    Inline (quoted name) b :=
  ⟨h.closed.standalone hb, Scan.avoids_quoted h.noBackslash (fun _ => rfl) rfl⟩

theorem Scan.avoids_cuts_of_harmless {t : Text} (h : ∀ c ∈ t, harmless c ∧ c ≠ ',') :
    Scan.start.avoids Scan.cuts t := by
  refine Scan.avoids_of_ordinary rfl fun c hc => ⟨ordinary_of_harmless (h c hc).1, ?_⟩
  exact decide_eq_false fun cut => (h c hc).2 (Scan.eq_of_mark_comma cut.1)

theorem inline_of_harmless {t b : Text} (h : ∀ c ∈ t, harmless c ∧ c ≠ ',') (hb : Delimited b) :
    Inline t b :=
  ⟨(closed_of_harmless fun c hc => (h c hc).1).standalone hb, Scan.avoids_cuts_of_harmless h⟩

theorem inline_of_isNameChar {t b : Text} (h : ∀ c ∈ t, isNameChar c) (hb : Delimited b) :
    Inline t b := by
  refine inline_of_harmless (fun c hc => ⟨harmless_of_isNameChar (h c hc), ?_⟩) hb
  rintro rfl
  exact absurd (h _ hc) (by decide)

theorem Inline.cons_space {t b : Text} (h : Inline t b) : Inline (' ' :: t) b := by
  have space : Inline [' '] (t ++ b) := {
    balanced := (closed_of_harmless (by decide)).balanced
    commentFree := id
    splits := .gap rfl (.nil _)
    noReturn := by decide
    uncut := rfl }
  exact space.append h

end SchemaDiagram.Sql
