import SchemaDiagram.Proofs.Sql.Boundaries

/-!
# Text that completes what was opened

What is left of a closed text behind one of its tokens closes every parenthesis that is still open.
Whatever is looked for in such text is found inside, so what stands behind does not matter, and
what is left behind a token is such text again.
-/

namespace SchemaDiagram.Sql

/-- A scan that stands at `s`, outside the literals, comes to its start at the end of `t`. -/
structure Completes (s : Scan) (t : Text) : Prop where
  plain : s.place = .plain
  nonneg : 0 ≤ s.depth
  stays : s.avoids Scan.falls t
  returns : s.run t = .start
  known : s.avoids Scan.opensName t
  noBackslash : '\\' ∉ t

def Complete (t : Text) : Prop := ∃ s, Completes s t

theorem Scan.nonneg_run {s : Scan} {u : Text} (nonneg : 0 ≤ s.depth) (stays : s.avoids falls u) :
    0 ≤ (s.run u).depth := by
  induction u generalizing s with
  | nil => exact nonneg
  | cons c u ih =>
    simp only [avoids, falls, Bool.and_eq_true, Bool.not_eq_true', decide_eq_false_iff_not] at stays
    exact ih (by omega) stays.2

namespace Completes

variable {s : Scan} {t : Text}

theorem behind {u v : Text} (h : Completes s (u ++ v)) (plain : (s.run u).place = .plain) :
    Completes (s.run u) v := by
  have stays := h.stays
  have known := h.known
  rw [Scan.avoids_append, Bool.and_eq_true] at stays known
  exact {
    plain
    nonneg := Scan.nonneg_run h.nonneg stays.1
    stays := stays.2
    returns := by rw [← Scan.run_append, h.returns]
    known := known.2
    noBackslash := fun mem => h.noBackslash (List.mem_append_right u mem) }

theorem nil : Completes .start [] := ⟨rfl, Int.le_refl _, rfl, rfl, rfl, List.not_mem_nil⟩

end Completes

theorem Complete.nil : Complete [] := ⟨_, .nil⟩

theorem Delimited.any_isAsciiDigit {b : Text} (hb : Delimited b) :
    b.head?.any Text.isAsciiDigit = false := by
  cases b with
  | nil => rfl
  | cons c b =>
    cases digit : Text.isAsciiDigit c with
    | false => simp [digit]
    | true => simp [Delimited, separates, isNameChar_of_isAsciiDigit digit] at hb

theorem startsToken_append_delimited {b : Text} (hb : Delimited b) (c : Char) (t : Text) :
    startsToken c (t ++ b) = startsToken c t := by
  cases t with
  | nil => simp [startsToken, hb.any_isAsciiDigit]
  | cons d t => simp [startsToken]

theorem eq_of_tokenAt_opening {c : Char} {t : Text} (h : (tokenAt c t).value = .opening) :
    c = '(' := by
  have noWord (w : Text) : Token.ofWord w ≠ .opening := by
    unfold Token.ofWord
    split <;> simp
  simp only [tokenAt] at h
  repeat' split at h
  all_goals simp_all

def Lexeme.behind (cs : Text) (l : Lexeme) : Lexeme := { l with before := cs ++ l.before }

theorem next?_of_startsToken {c : Char} {t : Text} (h : startsToken c t) :
    next? (c :: t) =
      some (⟨[], (tokenAt c t).value, (tokenAt c t).raw⟩, (tokenAt c t).rest) := by
  rw [next?, gap_of_startsToken h]

theorem next?_of_not_startsToken {c : Char} {t : Text} (h : startsToken c t = false) :
    next? (c :: t) = (next? t).map fun (l, rest) => (l.behind [c], rest) := by
  rw [next?, gap_of_not_startsToken h, next?]
  rcases gap t with ⟨before, _ | ⟨d, rest⟩⟩ <;> rfl

/-- Complete text is a gap, or it has a first token that ends in it, in front of complete text
again. -/
theorem Completes.next? {s : Scan} {t : Text} (h : Completes s t) :
    (∀ b, Delimited b →
      next? (t ++ b) = (Sql.next? b).map fun (l, rest) => (l.behind t, rest)) ∨
    ∃ l v s', Completes s' v ∧ (l.token = .opening → 0 < s'.depth) ∧
      ∀ b, Delimited b → Sql.next? (t ++ b) = some (l, v ++ b) := by
  induction t generalizing s with
  | nil =>
    refine .inl fun b _ => ?_
    simp [Lexeme.behind]
  | cons c t ih =>
    have known := h.known
    simp only [Scan.avoids, Bool.and_eq_true, Bool.not_eq_true'] at known
    by_cases starts : startsToken c t
    · right
      have bare : '\\' ∉ t := fun mem => h.noBackslash (List.mem_cons_of_mem c mem)
      have closed : ((s.step c).run t).place = .plain := by
        change (s.run (c :: t)).place = .plain
        rw [h.returns]
        rfl
      obtain ⟨token, u, v, rfl, back, reads⟩ := exists_token_end h.plain bare known.1 closed
      refine ⟨⟨[], token, c :: u⟩, v, s.run (c :: u), h.behind back, fun opening => ?_,
        fun b hb => ?_⟩
      · have here := reads [] rfl
        rw [List.append_nil] at here
        obtain rfl : c = '(' := eq_of_tokenAt_opening (by rw [here]; exact opening)
        obtain rfl : u = [] := by simpa [tokenAt] using congrArg Piece.raw here
        have nonneg := h.nonneg
        simp only [Scan.run, List.foldl, Scan.step, h.plain]
        simp
        omega
      · have starts' : startsToken c (u ++ v ++ b) := by rwa [startsToken_append_delimited hb]
        rw [List.cons_append, next?_of_startsToken starts', reads b hb]
    · have noMark : ¬ (c = '\'' ∨ c = '"') := fun h => starts (startsToken_quote h _)
      have stays := Scan.step_stays h.plain noMark
      have starts : startsToken c t = false := by simpa using starts
      have gap {b : Text} (hb : Delimited b) : Sql.next? (c :: t ++ b) =
          (Sql.next? (t ++ b)).map fun (l, rest) => (l.behind [c], rest) := by
        rw [List.cons_append,
          next?_of_not_startsToken ((startsToken_append_delimited hb c t).trans starts)]
      rcases ih (h.behind (u := [c]) stays) with none | ⟨l, v, s', complete, opens, reads⟩
      · left
        intro b hb
        rw [gap hb, none b hb, Option.map_map]
        rfl
      · right
        refine ⟨l.behind [c], v, s', complete, opens, fun b hb => ?_⟩
        rw [gap hb, reads b hb]
        rfl

theorem Complete.firstToken? {t : Text} (h : Complete t) :
    (∀ b, Delimited b → firstToken? (t ++ b) = Sql.firstToken? b) ∨
      ∃ token v, Complete v ∧ (token = .opening → ∃ s, Completes s v ∧ 0 < s.depth) ∧
        v.length < t.length ∧
          ∀ b, Delimited b → Sql.firstToken? (t ++ b) = some (token, v ++ b) := by
  obtain ⟨s, completes⟩ := h
  rcases completes.next? with gap | ⟨l, v, s', completes', opens, reads⟩
  · left
    intro b hb
    rw [Sql.firstToken?, gap b hb, Option.map_map]
    rfl
  · right
    have shorter := next?_shorter (reads [] rfl)
    rw [List.append_nil, List.append_nil] at shorter
    refine ⟨l.token, v, ⟨s', completes'⟩, fun opening => ⟨s', completes', opens opening⟩, shorter,
      fun b hb => ?_⟩
    rw [Sql.firstToken?, reads b hb]
    rfl

theorem Complete.skipPast {t : Text} (h : Complete t) {n : Nat} (hn : n ≤ t.length) :
    ∃ w, Complete w ∧ ∀ b, Delimited b → skipPast n (t ++ b) = w ++ b := by
  obtain ⟨s, h⟩ := h
  rcases h.next? with none | ⟨l, v, s', complete, -, reads⟩
  · refine ⟨t, ⟨s, h⟩, fun b hb => ?_⟩
    rw [Sql.skipPast]
    split
    · rfl
    · next l rest first =>
      rw [none b hb] at first
      obtain ⟨⟨l', rest'⟩, -, eq⟩ := Option.map_eq_some_iff.1 first
      obtain ⟨rfl, -⟩ := Prod.mk.inj eq
      have far : ¬ (l'.behind t).before.length < n := by
        rw [Lexeme.behind, List.length_append]
        omega
      rw [if_neg far]
  · have whole : l.before.length + (l.raw.length + v.length) = t.length := by
      simpa using congrArg List.length (next?_append (reads [] rfl))
    have raw := List.length_pos_iff.2 (next?_raw_ne_nil (reads [] rfl))
    by_cases within : l.before.length < n
    · obtain ⟨w, complete', skips⟩ :=
        Complete.skipPast ⟨s', complete⟩ (n := n - l.before.length - l.raw.length) (by omega)
      refine ⟨w, complete', fun b hb => ?_⟩
      rw [Sql.skipPast]
      split
      · next none => simp [reads b hb] at none
      · next l' rest first =>
        rw [reads b hb] at first
        obtain ⟨rfl, rfl⟩ := Prod.mk.inj (Option.some_inj.1 first)
        rw [if_pos within, skips b hb]
    · refine ⟨t, ⟨s, h⟩, fun b hb => ?_⟩
      rw [Sql.skipPast]
      split
      · rfl
      · next l' rest first =>
        rw [reads b hb] at first
        obtain ⟨rfl, rfl⟩ := Prod.mk.inj (Option.some_inj.1 first)
        rw [if_neg within]
termination_by t.length
decreasing_by omega

namespace Scan

variable {s : Scan} {t : Text}

/-- Only a closing parenthesis takes a scan down, and by one. -/
theorem mark_of_depth_lt {c : Char} (h : (s.step c).depth < s.depth) :
    s.mark c = .closing ∧ (s.step c).depth = s.depth - 1 := by
  obtain ⟨place, depth⟩ := s
  cases place with
  | literal quote escaped =>
    simp only [step] at h
    repeat' split at h
    all_goals simp at h
  | plain =>
    simp only [step] at h
    repeat' split at h
    · simp at h
    · dsimp only at h
      omega
    · next closing =>
      subst closing
      exact ⟨rfl, rfl⟩
    · simp at h

/-- A scan that comes down to depth zero passes the parenthesis that takes it there. -/
theorem exists_close (opened : 0 < s.depth) (low : (s.run t).depth ≤ 0) :
    ∃ inside behind, t = inside ++ ')' :: behind ∧
      ∀ b, s.close? (t ++ b) = some (inside, behind ++ b) := by
  induction t generalizing s with
  | nil =>
    change s.depth ≤ 0 at low
    omega
  | cons c t ih =>
    by_cases closes : s.mark c = .closing ∧ (s.step c).depth = 0
    · obtain rfl := eq_of_mark_closing closes.1
      refine ⟨[], t, rfl, fun b => ?_⟩
      rw [List.cons_append, close?, if_pos closes]
    · have still : 0 < (s.step c).depth := by
        refine Int.not_le.1 fun down => ?_
        obtain ⟨closing, depth⟩ := mark_of_depth_lt (s := s) (c := c) (by omega)
        exact closes ⟨closing, by omega⟩
      obtain ⟨inside, behind, rfl, finds⟩ := ih still low
      refine ⟨c :: inside, behind, rfl, fun b => ?_⟩
      rw [List.cons_append, close?, if_neg closes, finds]
      rfl

/-- A scan that comes down outside the literals stops at a semicolon there at the latest. -/
theorem exists_statement (plain : (s.run t).place = .plain) (low : (s.run t).depth ≤ 0) :
    ∃ u, u.length ≤ t.length ∧ ∀ b, (s.statement (t ++ ';' :: b)).1 = u := by
  induction t generalizing s with
  | nil =>
    change s.place = .plain at plain
    change s.depth ≤ 0 at low
    have ends : s.mark ';' = .semicolon ∧ s.depth ≤ 0 := ⟨by simp [mark, plain], low⟩
    refine ⟨[], Nat.le_refl _, fun b => ?_⟩
    rw [List.nil_append, statement, if_pos ends]
  | cons c t ih =>
    by_cases ends : s.mark c = .semicolon ∧ s.depth ≤ 0
    · refine ⟨[], Nat.zero_le _, fun b => ?_⟩
      rw [List.cons_append, statement, if_pos ends]
    · obtain ⟨u, short, cuts⟩ := ih (s := s.step c) plain low
      refine ⟨c :: u, Nat.succ_le_succ short, fun b => ?_⟩
      rw [List.cons_append, statement, if_neg ends]
      exact congrArg (c :: ·) (cuts b)

end Scan

theorem Completes.closeGroup? {s : Scan} {t : Text} (h : Completes s t) (opened : 0 < s.depth) :
    ∃ inside behind, inside.length + 1 ≤ t.length ∧
      ∀ b, closeGroup? (t ++ b) = some (inside, behind ++ b) := by
  have nested : Scan.nested = s.raise (1 - s.depth) := Scan.eq_raise h.plain.symm
  have low : (Scan.nested.run t).depth ≤ 0 := by
    rw [nested, Scan.run_raise, h.returns, Scan.depth_raise]
    change 0 + (1 - s.depth) ≤ 0
    omega
  obtain ⟨inside, behind, rfl, finds⟩ := Scan.exists_close (s := .nested) (by decide) low
  exact ⟨inside, behind, by simp, finds⟩

theorem Complete.statement {t : Text} (h : Complete t) :
    ∃ u, u.length ≤ t.length ∧ ∀ b, (Scan.start.statement (t ++ ';' :: b)).1 = u := by
  obtain ⟨s, h⟩ := h
  have raised : Scan.start = s.raise (0 - s.depth) := Scan.eq_raise h.plain.symm
  have nonneg := h.nonneg
  refine Scan.exists_statement ?_ ?_
  · rw [raised, Scan.run_raise, h.returns]
    rfl
  · rw [raised, Scan.run_raise, h.returns, Scan.depth_raise]
    change 0 + (0 - s.depth) ≤ 0
    omega

end SchemaDiagram.Sql
