import SchemaDiagram.Proofs.Letters
import SchemaDiagram.Proofs.Sql.Scanning
import SchemaDiagram.Sql.Reader

/-!
# Where tokens end

The two ways to walk over a text, character by character and token by token, agree where text with
closed literals ends in front of a character that belongs to no token before it.
-/

namespace SchemaDiagram.Sql

def firstToken? (t : Text) : Option (Token × Text) :=
  (next? t).map fun (l, rest) => (l.token, rest)

theorem gap_of_startsToken {c : Char} {t : Text} (h : startsToken c t) :
    gap (c :: t) = ([], c :: t) := by
  rw [gap, if_pos h]

theorem gap_of_not_startsToken {c : Char} {t : Text} (h : startsToken c t = false) :
    gap (c :: t) = (c :: (gap t).1, (gap t).2) := by
  rw [gap, if_neg (by simp [h])]

theorem firstToken?_eq (t : Text) :
    firstToken? t = match (gap t).2 with
      | [] => none
      | c :: rest => some ((tokenAt c rest).value, (tokenAt c rest).rest) := by
  unfold firstToken? next?
  rcases gap t with ⟨before, _ | ⟨c, rest⟩⟩ <;> rfl

theorem firstToken?_congr {x y : Text} (h : (gap x).2 = (gap y).2) :
    firstToken? x = firstToken? y := by
  rw [firstToken?_eq, firstToken?_eq, h]

theorem firstToken?_of_startsToken {c : Char} {t : Text} (h : startsToken c t) :
    firstToken? (c :: t) = some ((tokenAt c t).value, (tokenAt c t).rest) := by
  rw [firstToken?_eq, gap_of_startsToken h]

theorem firstToken?_of_not_startsToken {c : Char} {t : Text} (h : startsToken c t = false) :
    firstToken? (c :: t) = firstToken? t :=
  firstToken?_congr (by rw [gap_of_not_startsToken h])

/-- Behind `a`, the tokens of `a ++ b` go on as those of `b`. -/
inductive Splits : Text → Text → Prop where
  | nil (b) : Splits [] b
  | gap {c a b} : startsToken c (a ++ b) = false → Splits a b → Splits (c :: a) b
  | token {c raw a b} : startsToken c (raw ++ (a ++ b)) →
      (tokenAt c (raw ++ (a ++ b))).rest = a ++ b → Splits a b → Splits (c :: (raw ++ a)) b

theorem Splits.mark {c : Char} {a b : Text} (starts : startsToken c (a ++ b))
    (rest : (tokenAt c (a ++ b)).rest = a ++ b) (h : Splits a b) : Splits (c :: a) b :=
  @Splits.token c [] a b starts rest h

theorem Splits.append {a b c : Text} (ha : Splits a (b ++ c)) (hb : Splits b c) :
    Splits (a ++ b) c := by
  generalize behind : b ++ c = bc at ha
  induction ha with
  | nil => exact hb
  | gap starts _ ih =>
    subst behind
    exact .gap (by simpa using starts) (ih rfl)
  | token starts rest _ ih =>
    subst behind
    rw [List.cons_append, List.append_assoc]
    exact .token (by simpa using starts) (by simpa using rest) (ih rfl)

theorem skipPast_eq (n : Nat) (t : Text) :
    skipPast n t = match gap t with
      | (_, []) => t
      | (before, c :: rest) =>
        if before.length < n then
          skipPast (n - before.length - (tokenAt c rest).raw.length) (tokenAt c rest).rest
        else t := by
  rw [skipPast]
  unfold next?
  rcases gap t with ⟨before, _ | ⟨c, rest⟩⟩ <;> rfl

theorem gap_skipPast_cons {c : Char} {t : Text} (h : startsToken c t = false) (n : Nat) :
    (gap (skipPast (n + 1) (c :: t))).2 = (gap (skipPast n t)).2 := by
  rw [skipPast_eq, skipPast_eq n, gap_of_not_startsToken h]
  rcases ht : gap t with ⟨before, _ | ⟨d, rest⟩⟩
  · simp [gap_of_not_startsToken h, ht]
  · by_cases within : before.length < n
    · simp [within]
    · simp [within, gap_of_not_startsToken h]

/-- Counting off what stands before a boundary leaves what stands behind it. -/
theorem Splits.skipPast {a b : Text} (h : Splits a b) :
    (Sql.gap (Sql.skipPast a.length (a ++ b))).2 = (Sql.gap b).2 := by
  induction h with
  | nil b =>
    have none : Sql.skipPast 0 b = b := by
      rw [skipPast_eq]
      split <;> simp
    rw [List.length_nil, List.nil_append, none]
  | gap starts _ ih => rw [List.length_cons, List.cons_append, gap_skipPast_cons starts, ih]
  | @token c raw a b starts rest _ ih =>
    have taken : (tokenAt c (raw ++ (a ++ b))).raw = c :: raw := by
      have all := tokenAt_append c (raw ++ (a ++ b))
      rw [rest, ← List.cons_append] at all
      exact List.append_cancel_right all
    rw [List.cons_append, List.append_assoc, skipPast_eq, gap_of_startsToken starts]
    dsimp only
    rw [if_pos (by simp), rest, taken]
    simpa using ih

/-- No token and no comment opener that began in front of `c` reaches over it. -/
def separates (c : Char) : Bool := !isNameChar c && c ∉ ['.', '"', '\'', '-', '*']

def Delimited (t : Text) : Prop := t.head?.all separates

theorem Delimited.head_ne {t : Text} (h : Delimited t) {c : Char} (hc : separates c = false) :
    t.head? ≠ some c := by
  intro head
  simp [Delimited, head, hc] at h

theorem takeWhile_append_of_head {p : Char → Bool} {y : Text} (ends : y.head?.any p = false)
    (t : Text) : (t ++ y).takeWhile p = t.takeWhile p := by
  induction t with
  | nil =>
    cases y with
    | nil => rfl
    | cons c y => exact List.takeWhile_cons_of_neg (by simpa using ends)
  | cons c t ih => rw [List.cons_append, List.takeWhile_cons, List.takeWhile_cons, ih]

theorem dropWhile_append_of_head {p : Char → Bool} {y : Text} (ends : y.head?.any p = false)
    (t : Text) : (t ++ y).dropWhile p = t.dropWhile p ++ y := by
  induction t with
  | nil =>
    cases y with
    | nil => rfl
    | cons c y => exact List.dropWhile_cons_of_neg (by simpa using ends)
  | cons c t ih =>
    rw [List.cons_append, List.dropWhile_cons, List.dropWhile_cons, ih]
    split <;> rfl

/-- No word goes on into the text. -/
def Apart (t : Text) : Prop := t.head?.any isNameChar = false

theorem Apart.takeWhile {t : Text} (h : Apart t) : t.takeWhile isNameChar = [] :=
  takeWhile_append_of_head h []

theorem Apart.dropWhile {t : Text} (h : Apart t) : t.dropWhile isNameChar = t :=
  dropWhile_append_of_head h []

theorem Delimited.apart {t : Text} (h : Delimited t) : Apart t := by
  cases t with
  | nil => rfl
  | cons c t =>
    have both : separates c := h
    rw [separates, Bool.and_eq_true, Bool.not_eq_true'] at both
    exact both.1

/-- How the body of a literal is read in which a doubled quote stands for itself. -/
structure ReadsLiteral (quote : Char) (read : Text → Piece Text) : Prop where
  other : ∀ c t, c ≠ quote → c ≠ '\\' → read (c :: t) = (read t).behind [c] (c :: ·)
  doubled : ∀ t, read (quote :: quote :: t) = (read t).behind [quote, quote] (quote :: ·)
  ends : ∀ t, t.head? ≠ some quote → read (quote :: t) = ⟨[], [quote], t⟩

theorem readsLiteral_quotedName : ReadsLiteral '"' (quotedName '"') where
  other c t hc _ := by
    rw [quotedName.eq_def]
    simp [hc]
  doubled t := by simp [quotedName]
  ends t ht := by
    cases t with
    | nil => simp [quotedName]
    | cons d t =>
      have hd : d ≠ '"' := by simpa using ht
      simp [quotedName, hd]

theorem readsLiteral_stringBody : ReadsLiteral '\'' stringBody where
  other c t hc hb := by
    rw [stringBody]
    all_goals simp [hc, hb]
  doubled t := by simp [stringBody]
  ends t ht := by
    cases t with
    | nil => simp [stringBody]
    | cons d t =>
      have hd : d ≠ '\'' := by simpa using ht
      rw [stringBody]
      simpa using hd

namespace Scan

variable {s : Scan}

theorem step_quote {quote : Char} (hq : quote = '\'' ∨ quote = '"') (plain : s.place = .plain) :
    s.step quote = { s with place := .literal quote false } := by
  simp [step, plain, hq]

theorem step_quote_quote {quote : Char} (hq : quote = '\'' ∨ quote = '"')
    (plain : s.place = .plain) : (s.step quote).step quote = s := by
  have hb : quote ≠ '\\' := by
    rintro rfl
    simp at hq
  rw [step_quote hq plain]
  simp [step, hb, ← plain]

theorem step_quote_step {quote c : Char} (hq : quote = '\'' ∨ quote = '"')
    (plain : s.place = .plain) (hc : c ≠ quote) (hb : c ≠ '\\') :
    (s.step quote).step c = s.step quote := by
  rw [step_quote hq plain]
  simp [step, hc, hb]

end Scan

/-- In a closed text a literal ends where a scan leaves it for good, whatever stands behind. -/
theorem ReadsLiteral.exists_end {quote : Char} {read : Text → Piece Text}
    (reads : ReadsLiteral quote read) (hq : quote = '\'' ∨ quote = '"') {s : Scan}
    (plain : s.place = .plain) :
    ∀ t : Text, '\\' ∉ t → ((s.step quote).run t).place = .plain →
      ∃ value u v, t = u ++ v ∧ (s.step quote).run u = s ∧
        ∀ b : Text, b.head? ≠ some quote → read (t ++ b) = ⟨value, u, v ++ b⟩
  | [], _, closed => by
    simp [Scan.run, Scan.step_quote hq plain] at closed
  | [c], bare, closed => by
    by_cases hc : c = quote
    · subst hc
      exact ⟨[], [c], [], rfl, Scan.step_quote_quote hq plain, fun b hb => reads.ends b hb⟩
    · have hb : c ≠ '\\' := by
        rintro rfl
        simp at bare
      change ((s.step quote).step c).place = .plain at closed
      rw [Scan.step_quote_step hq plain hc hb, Scan.step_quote hq plain] at closed
      contradiction
  -- A doubled quote takes the scan out of the literal and back, so two characters go at a time.
  | c :: d :: t, bare, closed => by
    rw [List.mem_cons, List.mem_cons, not_or, not_or] at bare
    obtain ⟨bareC, bareD, bare⟩ := bare
    by_cases hc : c = quote
    · subst hc
      by_cases hd : d = c
      · subst hd
        have again : (((s.step d).step d).step d).run t = (s.step d).run t := by
          rw [Scan.step_quote_quote hq plain]
        obtain ⟨value, u, v, rfl, back, left⟩ := reads.exists_end hq plain t bare (again ▸ closed)
        refine ⟨d :: value, d :: d :: u, v, rfl, ?_, fun b hb => ?_⟩
        · change (((s.step d).step d).step d).run u = s
          rw [Scan.step_quote_quote hq plain, back]
        · exact (reads.doubled _).trans (congrArg _ (left b hb))
      · refine ⟨[], [c], d :: t, rfl, Scan.step_quote_quote hq plain, fun b _ => ?_⟩
        exact reads.ends _ (by simpa using hd)
    · have stays := Scan.step_quote_step hq plain hc (Ne.symm bareC)
      change (((s.step quote).step c).run (d :: t)).place = .plain at closed
      rw [stays] at closed
      obtain ⟨value, u, v, eq, back, left⟩ := reads.exists_end hq plain (d :: t)
        (by simp [bareD, bare]) closed
      refine ⟨c :: value, c :: u, v, by rw [eq, List.cons_append], ?_, fun b hb => ?_⟩
      · change ((s.step quote).step c).run u = s
        rw [stays, back]
      · exact (reads.other c _ hc (Ne.symm bareC)).trans (congrArg _ (left b hb))

def Scan.opensName (s : Scan) (c : Char) : Bool := !s.inLiteral && (c == '\x60' || c == '[')

def ordinary (c : Char) : Bool := c ∉ ['\'', '"', '(', ')']

theorem Scan.step_ordinary {s : Scan} {c : Char} (plain : s.place = .plain) (h : ordinary c) :
    s.step c = s := by
  simp [ordinary] at h
  simp [step, plain, h]

theorem Scan.run_ordinary {s : Scan} {t : Text} (plain : s.place = .plain)
    (h : ∀ c ∈ t, ordinary c) : s.run t = s := by
  induction t with
  | nil => rfl
  | cons c t ih =>
    rw [List.forall_mem_cons] at h
    change (s.step c).run t = s
    rw [step_ordinary plain h.1, ih h.2]

theorem ordinary_of_isNameChar {c : Char} (h : isNameChar c) : ordinary c := by
  apply decide_eq_true
  intro special
  simp only [List.mem_cons, List.not_mem_nil, or_false] at special
  rcases special with rfl | rfl | rfl | rfl <;> exact absurd h (by decide)

theorem isNameChar_of_isAsciiDigit {c : Char} (h : Text.isAsciiDigit c) : isNameChar c := by
  simp [isNameChar, Text.isAlphanumeric, h]

theorem digits_append_delimited {b : Text} (hb : Delimited b) (pointSeen : Bool) (t : Text) :
    digits pointSeen (t ++ b) = ((digits pointSeen t).1, (digits pointSeen t).2 ++ b) := by
  induction t generalizing pointSeen with
  | nil =>
    cases b with
    | nil => rfl
    | cons c b =>
      have noPoint : c ≠ '.' := by simpa using hb.head_ne (c := '.') rfl
      have noDigit : ¬ Text.isAsciiDigit c := fun digit => by
        simp [Delimited, separates, isNameChar_of_isAsciiDigit digit] at hb
      simp [digits, noPoint, noDigit]
  | cons c t ih =>
    rw [List.cons_append, digits, digits]
    split
    · simp [ih]
    · split
      · simp [ih]
      · rfl

theorem ordinary_digits {pointSeen : Bool} {t : Text} :
    ∀ c ∈ (digits pointSeen t).1, ordinary c := by
  induction t generalizing pointSeen with
  | nil => simp [digits]
  | cons c t ih =>
    rw [digits]
    split
    · next digit =>
      exact List.forall_mem_cons.2
        ⟨ordinary_of_isNameChar (isNameChar_of_isAsciiDigit digit), ih⟩
    · split
      · next point => exact List.forall_mem_cons.2 ⟨by rw [point.1]; rfl, ih⟩
      · simp

/-- In a closed text a token ends, whatever stands behind, and a scan is outside the literals
there. -/
theorem exists_token_end {s : Scan} (plain : s.place = .plain) {c : Char} {t : Text}
    (bare : '\\' ∉ t) (known : s.opensName c = false)
    (closed : ((s.step c).run t).place = .plain) :
    ∃ token u v, t = u ++ v ∧ ((s.step c).run u).place = .plain ∧
      ∀ b, Delimited b → tokenAt c (t ++ b) = ⟨token, c :: u, v ++ b⟩ := by
  by_cases mark : c ∈ ['(', ')', ',', ';', '.']
  · simp only [List.mem_cons, List.not_mem_nil, or_false] at mark
    rcases mark with rfl | rfl | rfl | rfl | rfl
    all_goals exact ⟨_, [], t, rfl, by simp [Scan.run, Scan.step, plain], fun b _ => rfl⟩
  by_cases double : c = '"'
  · subst double
    obtain ⟨value, u, v, eq, back, left⟩ := readsLiteral_quotedName.exists_end (.inr rfl) plain
      t bare closed
    refine ⟨.name value, u, v, eq, by rw [back, plain], fun b hb => ?_⟩
    simp [tokenAt, left b (hb.head_ne rfl)]
  by_cases single : c = '\''
  · subst single
    obtain ⟨value, u, v, eq, back, left⟩ := readsLiteral_stringBody.exists_end (.inl rfl) plain
      t bare closed
    refine ⟨.string value, u, v, eq, by rw [back, plain], fun b hb => ?_⟩
    simp [tokenAt, left b (hb.head_ne rfl)]
  -- Numbers and words hold no quote and no parenthesis, so the scan stays where it is.
  have quotes : c ≠ '\x60' ∧ c ≠ '[' := by
    simpa [Scan.opensName, Scan.inLiteral, plain] using known
  have plainC : s.step c = s := by
    refine Scan.step_ordinary plain ?_
    simp_all [ordinary]
  simp only [List.mem_cons, List.not_mem_nil, or_false, not_or] at mark
  rw [plainC]
  by_cases number : c = '-' ∨ Text.isAsciiDigit c
  · refine ⟨.number (c :: (digits false t).1), (digits false t).1, (digits false t).2,
      (digits_append _ _).symm, ?_, fun b hb => ?_⟩
    · rw [Scan.run_ordinary plain ordinary_digits, plain]
    · simp [tokenAt, mark, double, single, quotes, number, digits_append_delimited hb]
  · refine ⟨.ofWord (c :: t.takeWhile isNameChar), t.takeWhile isNameChar, t.dropWhile isNameChar,
      List.takeWhile_append_dropWhile.symm, ?_, fun b hb => ?_⟩
    · have names : ∀ d ∈ t.takeWhile isNameChar, ordinary d :=
        fun d hd => ordinary_of_isNameChar (List.all_eq_true.1 List.all_takeWhile d hd)
      rw [Scan.run_ordinary plain names, plain]
    · simp [tokenAt, mark, double, single, quotes, number, dropWhile_append_of_head hb.apart,
        takeWhile_append_of_head hb.apart]

theorem startsToken_quote {c : Char} (h : c = '\'' ∨ c = '"') (t : Text) : startsToken c t := by
  rcases h with rfl | rfl <;> rfl

theorem Scan.step_stays {s : Scan} (plain : s.place = .plain) {c : Char}
    (h : ¬ (c = '\'' ∨ c = '"')) : (s.step c).place = .plain := by
  simp only [step, plain, if_neg h]
  split
  · rfl
  · split
    · rfl
    · exact plain

/-- Text with closed literals ends together with one of its tokens or gaps. -/
theorem splits_of_closed {s : Scan} (plain : s.place = .plain) {t b : Text} (bare : '\\' ∉ t)
    (known : s.avoids Scan.opensName t) (closed : (s.run t).place = .plain) (hb : Delimited b) :
    Splits t b := by
  match ht : t with
  | [] => exact .nil b
  | c :: rest =>
    simp only [Scan.avoids, Bool.and_eq_true, Bool.not_eq_true'] at known
    have bareRest : '\\' ∉ rest := fun h => bare (List.mem_cons_of_mem _ h)
    by_cases starts : startsToken c (rest ++ b)
    · -- the recursion goes on behind the token, where the scan is outside the literals again
      obtain ⟨token, u, v, eq, back, left⟩ := exists_token_end plain bareRest known.1 closed
      have left := congrArg Piece.rest (left b hb)
      have shorter : v.length ≤ rest.length := by
        rw [eq, List.length_append]
        omega
      have bareV : '\\' ∉ v := fun h => bareRest (eq ▸ List.mem_append_right u h)
      have knownV : ((s.step c).run u).avoids Scan.opensName v := by
        have both := known.2
        rw [eq, Scan.avoids_append, Bool.and_eq_true] at both
        exact both.2
      have closedV : (((s.step c).run u).run v).place = .plain := by
        rw [← Scan.run_append, ← eq]
        exact closed
      have splits := splits_of_closed back bareV knownV closedV hb
      subst eq
      rw [List.append_assoc] at starts left
      exact .token starts left splits
    · have unquoted : ¬ (c = '\'' ∨ c = '"') := fun h => starts (startsToken_quote h _)
      have stays := Scan.step_stays plain unquoted
      exact .gap (by simpa using starts) (splits_of_closed stays bareRest known.2 closed hb)
termination_by t.length

end SchemaDiagram.Sql
