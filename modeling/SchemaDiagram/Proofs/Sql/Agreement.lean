import SchemaDiagram.Proofs.Sql.Spans

/-!
# Tokens and scans agree

Read token by token or scanned character by character, a text shows the same structure: the
delimiters stand at the same offsets, and the quoted tokens are the stretches in which the scan is
in a literal.
-/

namespace SchemaDiagram.Sql

def Mark.isDelimiter : Mark → Bool
  | opening | closing | comma | semicolon => true
  | blank | other => false

def Token.delimiter? : Token → Option Mark
  | opening => some .opening
  | closing => some .closing
  | comma => some .comma
  | semicolon => some .semicolon
  | _ => none

def Span.delimiter? (p : Span) : Option (Nat × Mark) :=
  p.lexeme.token.delimiter?.map (p.start, ·)

def Span.isQuoted (p : Span) : Bool := p.lexeme.raw.head?.any fun c => c = '\'' ∨ c = '"'

namespace Scan

/-- What a scan makes of each character of a text, with the offset of the character. -/
def reports (s : Scan) (offset : Nat) : Text → List (Nat × Mark)
  | [] => []
  | c :: rest => (offset, s.mark c) :: (s.step c).reports (offset + c.utf8Size) rest

def delimiters (s : Scan) (offset : Nat) (t : Text) : List (Nat × Mark) :=
  (s.reports offset t).filter (·.2.isDelimiter)

/-- A backslash in a name in double quotes, which the scan takes for an escape. -/
def escapesName (s : Scan) (c : Char) : Bool :=
  match s.place with
  | .literal quote _ => quote == '"' && c == '\\'
  | .plain => false

/-- Between `a` and `b` the scan is in a literal, or it closed one with the quote that opens the
next one: a doubled quote stays inside. -/
def Inside (s : Scan) (a b : Text) : Prop :=
  (s.run a).inLiteral ∨
    ∃ front quote, a = front ++ [quote] ∧ (s.run front).inLiteral ∧ b.head? = some quote

variable {s : Scan}

theorem delimiters_append (s : Scan) (offset : Nat) (a b : Text) :
    s.delimiters offset (a ++ b) =
      s.delimiters offset a ++ (s.run a).delimiters (offset + a.byteLength) b := by
  induction a generalizing s offset with
  | nil => rfl
  | cons c a ih =>
    have step (t : Text) : s.delimiters offset (c :: t) =
        [(offset, s.mark c)].filter (·.2.isDelimiter) ++
          (s.step c).delimiters (offset + c.utf8Size) t := by
      rw [delimiters, reports, List.filter_cons]
      cases h : (s.mark c).isDelimiter <;> simp [h, delimiters]
    rw [List.cons_append, step, step, ih, Text.byteLength_cons, List.append_assoc, Nat.add_assoc]
    rfl

theorem delimiters_eq_nil {offset : Nat} {t : Text}
    (h : ∀ x c y, t = x ++ c :: y → ((s.run x).mark c).isDelimiter = false) :
    s.delimiters offset t = [] := by
  induction t generalizing s offset with
  | nil => rfl
  | cons c t ih =>
    have first : (s.mark c).isDelimiter = false := h [] c t rfl
    have behind : (s.step c).delimiters (offset + c.utf8Size) t = [] := by
      apply ih
      intro x d y eq
      exact h (c :: x) d y (by rw [eq, List.cons_append])
    rw [delimiters, reports, List.filter_cons_of_neg (by simpa using first)]
    exact behind

theorem Inside.behind {a x b : Text} (h : (s.run a).Inside x b) : s.Inside (a ++ x) b := by
  rcases h with within | ⟨front, quote, rfl, within, head⟩
  · rw [← run_append] at within
    exact .inl within
  · rw [← run_append] at within
    exact .inr ⟨a ++ front, quote, by rw [List.append_assoc], within, head⟩

theorem Inside.of_append {a x b : Text} (some : x ≠ []) (h : s.Inside (a ++ x) b) :
    (s.run a).Inside x b := by
  rcases h with within | ⟨front, quote, eq, within, head⟩
  · rw [run_append] at within
    exact .inl within
  · obtain ⟨y, d, rfl⟩ := (List.eq_nil_or_concat x).resolve_left some
    rw [List.concat_eq_append, ← List.append_assoc] at eq
    obtain ⟨rfl, same⟩ := List.append_inj' eq rfl
    obtain rfl := List.singleton_inj.1 same
    rw [run_append] at within
    exact .inr ⟨y, d, by rw [List.concat_eq_append], within, head⟩

theorem inLiteral_eq_false_iff : s.inLiteral = false ↔ s.place = .plain := by
  simp [inLiteral]

theorem plain_of_not_inside {a b : Text} (h : ¬ s.Inside a b) : (s.run a).place = .plain := by
  rw [← inLiteral_eq_false_iff, Bool.eq_false_iff]
  exact fun within => h (.inl within)

theorem plain_run {t : Text} (plain : s.place = .plain) (h : ∀ c ∈ t, ¬ (c = '\'' ∨ c = '"')) :
    (s.run t).place = .plain := by
  induction t generalizing s with
  | nil => exact plain
  | cons c t ih =>
    rw [List.forall_mem_cons] at h
    exact ih (step_stays plain h.1) h.2

theorem not_inside_of_unquoted {t b : Text} (plain : s.place = .plain)
    (h : ∀ c ∈ t, ¬ (c = '\'' ∨ c = '"')) : ¬ s.Inside t b := by
  rintro (within | ⟨front, quote, rfl, within, -⟩)
  · rw [inLiteral_eq_false_iff.2 (plain_run plain h)] at within
    contradiction
  · rw [List.forall_mem_append] at h
    rw [inLiteral_eq_false_iff.2 (plain_run plain h.1)] at within
    contradiction

end Scan

def inert (c : Char) : Bool := c ∉ ['\'', '"', '(', ')', ',', ';']

theorem Scan.mark_of_inert {c : Char} (h : inert c) (s : Scan) :
    (s.mark c).isDelimiter = false := by
  simp only [inert, List.mem_cons, List.not_mem_nil, or_false, not_or, decide_eq_true_eq] at h
  unfold mark
  split
  · rfl
  · simp only [h, if_false]
    split <;> rfl

theorem unquoted_of_inert {c : Char} (h : inert c) : ¬ (c = '\'' ∨ c = '"') := by
  rintro (rfl | rfl) <;> exact absurd h (by decide)

theorem ordinary_of_inert {c : Char} (h : inert c) : ordinary c := by
  simp only [inert, List.mem_cons, List.not_mem_nil, or_false, not_or, decide_eq_true_eq] at h
  simp [ordinary, h]

theorem inert_of_isNameChar {c : Char} (h : isNameChar c) : inert c := by
  apply decide_eq_true
  intro special
  simp only [List.mem_cons, List.not_mem_nil, or_false] at special
  rcases special with rfl | rfl | rfl | rfl | rfl | rfl <;> exact absurd h (by decide)

theorem inert_gap (t : Text) : ∀ c ∈ (gap t).1, inert c := by
  induction t with
  | nil => simp [gap]
  | cons c t ih =>
    rw [gap]
    split
    · simp
    · next starts =>
      refine List.forall_mem_cons.2 ⟨?_, ih⟩
      simp only [startsToken, Bool.or_eq_true, decide_eq_true_eq, not_or, List.mem_cons,
        List.not_mem_nil, or_false] at starts
      simp [inert, starts]

theorem inert_digits (pointSeen : Bool) (t : Text) : ∀ c ∈ (digits pointSeen t).1, inert c := by
  induction t generalizing pointSeen with
  | nil => simp [digits]
  | cons c t ih =>
    rw [digits]
    split
    · next digit =>
      exact List.forall_mem_cons.2 ⟨inert_of_isNameChar (isNameChar_of_isAsciiDigit digit), ih _⟩
    · split
      · next point => exact List.forall_mem_cons.2 ⟨by rw [point.1]; rfl, ih _⟩
      · simp

/-- What the reader of a literal takes behind the opening quote, and what it leaves. -/
inductive LiteralBody (quote : Char) : Text → Text → Prop where
  | unclosed : LiteralBody quote [] []
  | cutOff : LiteralBody quote ['\\'] []
  | closed {rest} : rest.head? ≠ some quote → LiteralBody quote [quote] rest
  | doubled {raw rest} : LiteralBody quote raw rest → LiteralBody quote (quote :: quote :: raw) rest
  | escaped {c raw rest} : LiteralBody quote raw rest → LiteralBody quote ('\\' :: c :: raw) rest
  | other {c raw rest} : c ≠ quote → c ≠ '\\' → LiteralBody quote raw rest →
      LiteralBody quote (c :: raw) rest

theorem literalBody_stringBody (t : Text) :
    LiteralBody '\'' (stringBody t).raw (stringBody t).rest := by
  fun_induction stringBody t with
  | case1 => exact .unclosed
  | case2 rest ih => exact .doubled ih
  | case3 rest noQuote =>
    apply LiteralBody.closed
    intro head
    obtain ⟨rest, rfl⟩ := List.head?_eq_some_iff.1 head
    exact noQuote rest rfl
  | case4 => exact .cutOff
  | case5 c rest ih => exact .escaped ih
  | case6 c rest noDoubled noQuote noEnd noEscape ih =>
    apply LiteralBody.other _ _ ih
    · rintro rfl
      exact noQuote rfl
    · rintro rfl
      cases rest with
      | nil => exact noEnd rfl rfl
      | cons d rest => exact noEscape d rest rfl rfl

theorem literalBody_quotedName {depth : Int} {t : Text}
    (bare : (Scan.mk (.literal '"' false) depth).avoids Scan.escapesName t) :
    LiteralBody '"' (quotedName '"' t).raw (quotedName '"' t).rest := by
  fun_induction quotedName '"' t with
  | case1 => exact .unclosed
  | case2 d rest both ih =>
    obtain ⟨rfl, -⟩ := both
    simp only [Scan.avoids, Bool.and_eq_true] at bare
    exact .doubled (ih bare.2.2)
  | case3 d rest other =>
    apply LiteralBody.closed
    rintro ⟨⟩
    exact other ⟨rfl, by decide⟩
  | case4 => exact .closed (by simp)
  | case5 c rest hc ih =>
    rw [Scan.avoids, Bool.and_eq_true] at bare
    have noBackslash : c ≠ '\\' := by
      rintro rfl
      simp [Scan.escapesName] at bare
    have stays : (Scan.mk (.literal '"' false) depth).step c = ⟨.literal '"' false, depth⟩ := by
      simp [Scan.step, hc, noBackslash]
    exact .other hc noBackslash (ih (stays ▸ bare.2))

namespace LiteralBody

variable {quote : Char} {raw rest : Text}

/-- Until its end the reader of a literal is where the scan is in the literal. -/
theorem inside (h : LiteralBody quote raw rest) (hq : quote = '\'' ∨ quote = '"') (depth : Int)
    (b : Text) : ∀ x y, raw = x ++ y → y ≠ [] → (Scan.reading quote depth).Inside x (y ++ b) := by
  intro x y eq some
  have first (t : Text) : (Scan.reading quote depth).Inside [] t := .inl rfl
  have behind {t x : Text} (back : (Scan.reading quote depth).run t = .reading quote depth)
      (inside : (Scan.reading quote depth).Inside x (y ++ b)) :
      (Scan.reading quote depth).Inside (t ++ x) (y ++ b) := by
    apply Scan.Inside.behind
    rwa [back]
  induction h generalizing x with
  | unclosed => exact absurd (List.append_eq_nil_iff.1 eq.symm).2 some
  | cutOff | closed =>
    obtain ⟨rfl, -⟩ | ⟨-, rfl⟩ := List.append_eq_singleton_iff.1 eq.symm
    · exact first _
    · contradiction
  | doubled _ ih =>
    rcases x with _ | ⟨d, _ | ⟨e, x⟩⟩
    · exact first _
    · obtain ⟨rfl, rfl⟩ := List.cons.inj eq
      exact .inr ⟨[], quote, rfl, rfl, rfl⟩
    · simp only [List.cons_append, List.cons.injEq] at eq
      obtain ⟨rfl, rfl, eq⟩ := eq
      exact behind (t := [_, _]) (Scan.run_reading_doubled hq) (ih x eq)
  | escaped _ ih =>
    rcases x with _ | ⟨d, _ | ⟨e, x⟩⟩
    · exact first _
    · obtain ⟨rfl, rfl⟩ := List.cons.inj eq
      exact .inl rfl
    · simp only [List.cons_append, List.cons.injEq] at eq
      obtain ⟨rfl, rfl, eq⟩ := eq
      exact behind (t := ['\\', _]) rfl (ih x eq)
  | other hc hb _ ih =>
    rcases x with _ | ⟨d, x⟩
    · exact first _
    · simp only [List.cons_append, List.cons.injEq] at eq
      obtain ⟨rfl, eq⟩ := eq
      exact behind (t := [_]) (Scan.run_reading_other hc hb) (ih x eq)

/-- All of a literal means nothing to a scan. -/
theorem delimiters (h : LiteralBody quote raw rest) (hq : quote = '\'' ∨ quote = '"') (depth : Int)
    (offset : Nat) : (Scan.reading quote depth).delimiters offset raw = [] := by
  induction h generalizing offset with
  | unclosed | cutOff | closed => rfl
  | @doubled raw _ _ ih =>
    have pair : (Scan.reading quote depth).delimiters offset [quote, quote] = [] := by
      rcases hq with rfl | rfl <;> rfl
    change (Scan.reading quote depth).delimiters offset ([quote, quote] ++ raw) = []
    rw [Scan.delimiters_append, pair, Scan.run_reading_doubled hq, ih, List.append_nil]
  | @escaped c raw _ _ ih => exact ih (offset + '\\'.utf8Size + c.utf8Size)
  | @other c raw _ hc hb _ ih =>
    change (Scan.reading quote depth).delimiters offset ([c] ++ raw) = []
    rw [Scan.delimiters_append, Scan.run_reading_other hc hb, ih, List.append_nil]
    rfl

/-- What stands behind a literal is nothing, or no further quote of its kind. -/
theorem ends (h : LiteralBody quote raw rest) (hq : quote = '\'' ∨ quote = '"') (depth : Int) :
    rest = [] ∨ rest.head? ≠ some quote ∧ (∃ front, raw = front ++ [quote]) ∧
      (Scan.reading quote depth).run raw = ⟨.plain, depth⟩ := by
  induction h with
  | unclosed | cutOff => exact .inl rfl
  | closed head => exact .inr ⟨head, ⟨[], rfl⟩, Scan.run_reading_quote hq⟩
  | @doubled raw rest _ ih =>
    rcases ih with none | ⟨head, ⟨front, rfl⟩, back⟩
    · exact .inl none
    · refine .inr ⟨head, ⟨quote :: quote :: front, rfl⟩, ?_⟩
      change ((Scan.reading quote depth).run [quote, quote]).run _ = _
      rw [Scan.run_reading_doubled hq, back]
  | @escaped c raw rest _ ih =>
    rcases ih with none | ⟨head, ⟨front, rfl⟩, back⟩
    · exact .inl none
    · exact .inr ⟨head, ⟨'\\' :: c :: front, rfl⟩, back⟩
  | @other c raw rest hc hb _ ih =>
    rcases ih with none | ⟨head, ⟨front, rfl⟩, back⟩
    · exact .inl none
    · refine .inr ⟨head, ⟨c :: front, rfl⟩, ?_⟩
      change ((Scan.reading quote depth).run [c]).run _ = _
      rw [Scan.run_reading_other hc hb, back]

end LiteralBody

/-- What a scan outside the literals meets where a token was read. -/
inductive Met (s : Scan) (l : Lexeme) (rest : Text) : Prop where
  | delimiter {c mark} : l.raw = [c] → ¬ (c = '\'' ∨ c = '"') → l.token.delimiter? = some mark →
      s.mark c = mark → mark.isDelimiter → Met s l rest
  | literal {quote body} : quote = '\'' ∨ quote = '"' → l.raw = quote :: body →
      l.token.delimiter? = none → LiteralBody quote body rest → Met s l rest
  | word : l.token.delimiter? = none → (∀ c ∈ l.raw, inert c) → Met s l rest

/-- No quoting of names but that in double quotes, and no backslash in it. -/
structure Plainly (s : Scan) (t : Text) : Prop where
  known : '\x60' ∉ t ∧ '[' ∉ t
  bare : s.avoids Scan.escapesName t

variable {s : Scan} {t rest : Text} {l : Lexeme}

theorem Plainly.behind {a b : Text} (h : Plainly s (a ++ b)) : Plainly (s.run a) b := by
  obtain ⟨⟨backtick, bracket⟩, bare⟩ := h
  rw [Scan.avoids_append, Bool.and_eq_true] at bare
  simp only [List.mem_append, not_or] at backtick bracket
  exact ⟨⟨backtick.2, bracket.2⟩, bare.2⟩

theorem inert_before (h : next? t = some (l, rest)) : ∀ c ∈ l.before, inert c := by
  have skipped := inert_gap t
  unfold next? at h
  split at h
  · contradiction
  · next before c tail cut =>
    obtain ⟨rfl, -⟩ := Prod.mk.inj (Option.some_inj.1 h)
    rwa [cut] at skipped

theorem met_tokenAt (plain : s.place = .plain) {c : Char} {t : Text} (h : Plainly s (c :: t))
    (before : Text) :
    Met s ⟨before, (tokenAt c t).value, (tokenAt c t).raw⟩ (tokenAt c t).rest := by
  by_cases mark : c ∈ ['(', ')', ',', ';']
  · simp only [List.mem_cons, List.not_mem_nil, or_false] at mark
    rcases mark with rfl | rfl | rfl | rfl
    all_goals exact .delimiter rfl (by decide) rfl (by simp [Scan.mark, plain]) rfl
  by_cases dot : c = '.'
  · subst dot
    exact .word rfl (List.forall_mem_singleton.2 rfl)
  have bare := h.bare
  rw [Scan.avoids, Bool.and_eq_true] at bare
  by_cases double : c = '"'
  · subst double
    rw [Scan.step_quote (.inr rfl) plain] at bare
    exact .literal (.inr rfl) rfl rfl (literalBody_quotedName bare.2)
  by_cases single : c = '\''
  · subst single
    exact .literal (.inl rfl) rfl rfl (literalBody_stringBody t)
  -- What is left are numbers and words, with no quote and no delimiter in them.
  have quotes : c ≠ '\x60' ∧ c ≠ '[' := by
    obtain ⟨backtick, bracket⟩ := h.known
    constructor <;> rintro rfl <;> simp_all
  simp only [List.mem_cons, List.not_mem_nil, or_false, not_or] at mark
  have first : inert c := by simp [inert, mark, double, single]
  by_cases number : c = '-' ∨ Text.isAsciiDigit c
  · have token : tokenAt c t =
        ⟨.number (c :: (digits false t).1), c :: (digits false t).1, (digits false t).2⟩ := by
      simp [tokenAt, mark, dot, double, single, quotes, number]
    rw [token]
    exact .word rfl (List.forall_mem_cons.2 ⟨first, inert_digits false t⟩)
  · have token : tokenAt c t = ⟨.ofWord (c :: t.takeWhile isNameChar),
        c :: t.takeWhile isNameChar, t.dropWhile isNameChar⟩ := by
      simp [tokenAt, mark, dot, double, single, quotes, number]
    have names : ∀ d ∈ t.takeWhile isNameChar, inert d :=
      fun d hd => inert_of_isNameChar (List.all_eq_true.1 List.all_takeWhile d hd)
    rw [token]
    refine .word ?_ (List.forall_mem_cons.2 ⟨first, names⟩)
    unfold Token.ofWord
    split <;> rfl

theorem run_before (plain : s.place = .plain) (taken : next? t = some (l, rest)) :
    s.run l.before = s := by
  apply Scan.run_ordinary plain
  intro c hc
  exact ordinary_of_inert (inert_before taken c hc)

theorem met_next? (plain : s.place = .plain) (h : Plainly s t) (taken : next? t = some (l, rest)) :
    Met s l rest := by
  have same := run_before plain taken
  have whole := gap_append t
  unfold next? at taken
  split at taken
  · contradiction
  · next before c tail cut =>
    obtain ⟨rfl, rfl⟩ := Prod.mk.inj (Option.some_inj.1 taken)
    rw [cut] at whole
    rw [← whole] at h
    have token : Plainly s (c :: tail) := same ▸ h.behind
    exact met_tokenAt plain token before

theorem plainly_behind (h : Plainly s t) (taken : next? t = some (l, rest)) :
    Plainly (s.run (l.before ++ l.raw)) rest := by
  have whole := next?_append taken
  rw [← whole, ← List.append_assoc] at h
  exact h.behind

namespace Met

/-- Behind a token the scan is outside the literals, and no doubled quote holds it inside. -/
theorem clear (h : Met s l rest) (plain : s.place = .plain) :
    rest = [] ∨ ¬ s.Inside l.raw rest := by
  cases h with
  | @delimiter c _ raw quote =>
    rw [raw]
    exact .inr (Scan.not_inside_of_unquoted plain (List.forall_mem_singleton.2 quote))
  | @literal quote body hq raw _ read =>
    have opened : s.run [quote] = .reading quote s.depth := Scan.step_quote hq plain
    rcases read.ends hq s.depth with none | ⟨head, ⟨front, rfl⟩, back⟩
    · exact .inl none
    · right
      rw [raw]
      rintro (within | ⟨front', quote', eq, -, head'⟩)
      · have plainly : s.run ([quote] ++ (front ++ [quote])) = ⟨.plain, s.depth⟩ := by
          rw [Scan.run_append, opened, back]
        rw [List.singleton_append] at plainly
        rw [plainly] at within
        contradiction
      · rw [← List.cons_append] at eq
        obtain rfl := List.singleton_inj.1 (List.append_inj' eq rfl).2
        exact head head'
  | word _ still =>
    exact .inr (Scan.not_inside_of_unquoted plain fun c hc => unquoted_of_inert (still c hc))

/-- A scan reports the delimiter that a token is, and nothing else of a token. -/
theorem delimiters (h : Met s l rest) (plain : s.place = .plain) (offset : Nat) :
    s.delimiters offset l.raw = (l.token.delimiter?.map (offset, ·)).toList := by
  cases h with
  | delimiter raw _ said marked isDelimiter =>
    rw [raw, said, ← marked]
    simp [Scan.delimiters, Scan.reports, marked, isDelimiter]
  | @literal quote body hq raw said read =>
    have opened : s.run [quote] = .reading quote s.depth := Scan.step_quote hq plain
    have first : s.delimiters offset [quote] = [] := by
      rcases hq with rfl | rfl <;> simp [Scan.delimiters, Scan.reports, Scan.mark, plain] <;> rfl
    rw [said, raw, ← List.singleton_append, Scan.delimiters_append, first, opened,
      read.delimiters hq]
    rfl
  | word said still =>
    rw [said]
    apply Scan.delimiters_eq_nil
    intro x c y eq
    exact Scan.mark_of_inert (still c (by simp [eq])) _

end Met

theorem inert_of_next?_none (none : next? t = none) : ∀ c ∈ t, inert c := by
  have skipped := inert_gap t
  have whole := gap_append t
  unfold next? at none
  split at none
  · next before cut =>
    rw [cut, List.append_nil] at whole
    rwa [cut, whole] at skipped
  · contradiction

theorem delimiters_of_inert {offset : Nat} (h : ∀ c ∈ t, inert c) : s.delimiters offset t = [] := by
  apply Scan.delimiters_eq_nil
  intro x c y eq
  exact Scan.mark_of_inert (h c (by simp [eq])) _

theorem spans_tokenize_of_none {offset : Nat} (none : next? t = none) :
    spans offset (tokenize t) = [] := by
  rw [tokenize_eq, none]
  rfl

theorem spans_tokenize (front : Text) (taken : next? t = some (l, rest)) :
    spans front.byteLength (tokenize t) =
      ⟨l, (front ++ l.before).byteLength, (front ++ (l.before ++ l.raw)).byteLength⟩ ::
        spans (front ++ (l.before ++ l.raw)).byteLength (tokenize rest) := by
  rw [tokenize_eq, taken]
  simp only [spans, Text.byteLength_append, Nat.add_assoc]

theorem next?_nil : next? [] = none := rfl

theorem spans_delimiters (front t : Text) (plain : (Scan.start.run front).place = .plain)
    (h : Plainly (Scan.start.run front) t) :
    (spans front.byteLength (tokenize t)).filterMap Span.delimiter? =
      (Scan.start.run front).delimiters front.byteLength t := by
  induction front, t using token_induction with
  | none front t none =>
    rw [spans_tokenize_of_none none, delimiters_of_inert (inert_of_next?_none none)]
    rfl
  | step front t l rest taken ih =>
    have met := met_next? plain h taken
    have same := run_before plain taken
    have gapless : (Scan.start.run front).delimiters front.byteLength l.before = [] :=
      delimiters_of_inert (inert_before taken)
    have moved : Scan.start.run (front ++ (l.before ++ l.raw)) =
        (Scan.start.run front).run l.raw := by
      rw [Scan.run_append, Scan.run_append, same]
    have behind : (spans (front ++ (l.before ++ l.raw)).byteLength (tokenize rest)).filterMap
        Span.delimiter? = ((Scan.start.run front).run l.raw).delimiters
          (front ++ (l.before ++ l.raw)).byteLength rest := by
      rcases met.clear plain with rfl | clear
      · rw [spans_tokenize_of_none next?_nil]
        rfl
      · rw [moved] at ih
        refine ih (Scan.plain_of_not_inside clear) ?_
        have plainly := plainly_behind h taken
        rwa [Scan.run_append, same] at plainly
    have text : t = l.before ++ (l.raw ++ rest) := (next?_append taken).symm
    rw [spans_tokenize front taken, text, Scan.delimiters_append, Scan.delimiters_append, gapless,
      same, met.delimiters plain, List.filterMap_cons, behind]
    simp only [Span.delimiter?, Text.byteLength_append, Nat.add_assoc, List.nil_append]
    cases l.token.delimiter? <;> rfl

/-- The text `b` between `a` and `c` is a stretch in which the scan is in a literal, and no longer
one around it is. -/
structure Stretch (a b c : Text) : Prop where
  begins : ¬ Scan.start.Inside a (b ++ c)
  opens : ∃ quote body, b = quote :: body ∧ (Scan.start.run (a ++ [quote])).inLiteral
  inside : ∀ x y, b = x ++ y → x ≠ [] → y ≠ [] → Scan.start.Inside (a ++ x) (y ++ c)
  ends : c = [] ∨ ¬ Scan.start.Inside (a ++ b) c

theorem Stretch.ne_nil {a b c : Text} (h : Stretch a b c) : b ≠ [] := by
  obtain ⟨quote, body, rfl, -⟩ := h.opens
  simp

theorem Stretch.unique {a b c b' c' : Text} (h : Stretch a b c) (h' : Stretch a b' c')
    (same : b ++ c = b' ++ c') : b = b' := by
  have shorter {b c b' c' y : Text} (h : Stretch a b c) (h' : Stretch a b' c') (eq : b' = b ++ y)
      (rest : c = y ++ c') : y = [] := by
    cases y with
    | nil => rfl
    | cons d y =>
      have within := h'.inside b (d :: y) eq h.ne_nil (by simp)
      rw [← rest] at within
      rcases h.ends with none | outside
      · simp [none] at rest
      · exact absurd within outside
  rcases List.append_eq_append_iff.1 same with ⟨y, eq, rest⟩ | ⟨y, eq, rest⟩
  · rw [eq, shorter h h' eq rest, List.append_nil]
  · rw [eq, shorter h' h eq rest, List.append_nil]

theorem Met.stretch {front : Text} (plain : (Scan.start.run front).place = .plain)
    (clear : ¬ Scan.start.Inside front (l.raw ++ rest)) (h : Met (Scan.start.run front) l rest)
    (quoted : l.raw.head?.any fun c => c = '\'' ∨ c = '"') : Stretch front l.raw rest := by
  have behind := h.clear plain
  cases h with
  | delimiter raw quote => simp [raw, quote] at quoted
  | word _ still =>
    cases raw : l.raw with
    | nil => simp [raw] at quoted
    | cons c tail =>
      have inert := unquoted_of_inert (still c (by simp [raw]))
      simp [raw, inert] at quoted
  | @literal quote body hq raw said read =>
    have opened : (Scan.start.run front).run [quote] =
        .reading quote (Scan.start.run front).depth :=
      Scan.step_quote hq plain
    refine ⟨clear, ⟨quote, body, raw, ?_⟩, ?_, ?_⟩
    · rw [Scan.run_append, opened]
      rfl
    · intro x y eq someX someY
      apply Scan.Inside.behind
      obtain ⟨c, x, rfl⟩ := List.exists_cons_of_ne_nil someX
      rw [raw, List.cons_append] at eq
      obtain ⟨rfl, bodyEq⟩ := List.cons.inj eq
      apply Scan.Inside.behind (a := [quote])
      rw [opened]
      exact read.inside hq _ rest x y bodyEq someY
    · refine behind.imp id fun outside within => outside (within.of_append ?_)
      simp [raw]

theorem Met.quote_first {front : Text} (clear : ¬ Scan.start.Inside front (l.raw ++ rest))
    (h : Met (Scan.start.run front) l rest) {y z : Text} {c : Char} (raw : l.raw = y ++ c :: z)
    (quote : c = '\'' ∨ c = '"') (outside : ¬ Scan.start.Inside (front ++ y) (c :: z ++ rest)) :
    y = [] := by
  have plain := Scan.plain_of_not_inside clear
  cases y with
  | nil => rfl
  | cons d y =>
    cases h with
    | delimiter single => simp [single] at raw
    | word _ still => exact absurd quote (unquoted_of_inert (still c (by simp [raw])))
    | @literal quote' body hq rawEq said read =>
      have quoted : l.raw.head?.any fun c => c = '\'' ∨ c = '"' := by simp [rawEq, hq]
      have stretch := (Met.literal hq rawEq said read).stretch plain clear quoted
      exact absurd (stretch.inside _ _ raw (by simp) (by simp)) outside

/-- Around a token the scan is outside the literals, and no doubled quote holds it inside. -/
theorem clear_token {front : Text} (clear : ¬ Scan.start.Inside front t)
    (h : Plainly (Scan.start.run front) t) (taken : next? t = some (l, rest)) :
    Met (Scan.start.run (front ++ l.before)) l rest ∧
      ¬ Scan.start.Inside (front ++ l.before) (l.raw ++ rest) ∧
      (rest = [] ∨ ¬ Scan.start.Inside (front ++ (l.before ++ l.raw)) rest) := by
  have plain := Scan.plain_of_not_inside clear
  have same : Scan.start.run (front ++ l.before) = Scan.start.run front := by
    rw [Scan.run_append, run_before plain taken]
  have met := met_next? plain h taken
  have text := next?_append taken
  refine ⟨same ▸ met, ?_, ?_⟩
  · intro within
    cases before : l.before with
    | nil =>
      rw [before, List.nil_append] at text
      rw [before, List.append_nil, text] at within
      exact clear within
    | cons c tail =>
      have unquoted : ∀ d ∈ l.before, ¬ (d = '\'' ∨ d = '"') := fun d hd =>
        unquoted_of_inert (inert_before taken d hd)
      exact Scan.not_inside_of_unquoted plain unquoted (within.of_append (by simp [before]))
  · refine (met.clear plain).imp id fun outside within => outside ?_
    rw [← List.append_assoc] at within
    have behind := within.of_append (next?_raw_ne_nil taken)
    rwa [same] at behind

theorem spans_stretch (front t : Text) (clear : ¬ Scan.start.Inside front t)
    (h : Plainly (Scan.start.run front) t) :
    ∀ p ∈ spans front.byteLength (tokenize t), p.isQuoted → ∃ a b c, t = a ++ (b ++ c) ∧
      p.start = (front ++ a).byteLength ∧ p.stop = (front ++ (a ++ b)).byteLength ∧
        Stretch (front ++ a) b c := by
  induction front, t using token_induction with
  | none front t none => simp [spans_tokenize_of_none none]
  | step front t l rest taken ih =>
    obtain ⟨met, before, behind⟩ := clear_token clear h taken
    intro p hp quoted
    rw [spans_tokenize front taken] at hp
    rcases List.mem_cons.1 hp with rfl | later
    · have plain := Scan.plain_of_not_inside before
      exact ⟨l.before, l.raw, rest, (next?_append taken).symm, rfl, rfl,
        met.stretch plain before quoted⟩
    · rcases behind with rfl | clear'
      · simp [spans_tokenize_of_none next?_nil] at later
      · have plainly := plainly_behind h taken
        rw [← Scan.run_append] at plainly
        obtain ⟨a, b, c, rfl, start, stop, stretch⟩ := ih clear' plainly p later quoted
        refine ⟨l.before ++ l.raw ++ a, b, c, ?_, ?_, ?_, ?_⟩
        · simp [← next?_append taken]
        · simpa using start
        · simpa using stop
        · simpa using stretch

theorem exists_span (front t : Text) (clear : ¬ Scan.start.Inside front t)
    (h : Plainly (Scan.start.run front) t) {a b : Text} {c : Char} (eq : t = a ++ c :: b)
    (quote : c = '\'' ∨ c = '"') (outside : ¬ Scan.start.Inside (front ++ a) (c :: b)) :
    ∃ p ∈ spans front.byteLength (tokenize t), p.isQuoted ∧ p.start = (front ++ a).byteLength := by
  induction front, t using token_induction generalizing a with
  | none front t none =>
    have inert := inert_of_next?_none none c (by simp [eq])
    exact absurd quote (unquoted_of_inert inert)
  | step front t l rest taken ih =>
    obtain ⟨met, before, behind⟩ := clear_token clear h taken
    rw [spans_tokenize front taken]
    -- The quote cannot stand in the gap or within the token, so it opens the token or a later one.
    have later {z : Text} (splits : rest = z ++ c :: b) (text : a = l.before ++ l.raw ++ z) :
        ∃ p ∈ spans (front ++ (l.before ++ l.raw)).byteLength (tokenize rest),
          p.isQuoted ∧ p.start = (front ++ a).byteLength := by
      rcases behind with rfl | clear'
      · simp at splits
      · have plainly := plainly_behind h taken
        rw [← Scan.run_append] at plainly
        subst text
        have found := ih clear' plainly splits (by simpa using outside)
        simpa using found
    have text : l.before ++ (l.raw ++ rest) = a ++ c :: b := (next?_append taken).trans eq
    rcases List.append_eq_append_iff.1 text with ⟨y, rfl, behindGap⟩ | ⟨y, gapEq, behindGap⟩
    · rcases List.append_eq_append_iff.1 behindGap with ⟨z, rfl, splits⟩ | ⟨z, rawEq, splits⟩
      · obtain ⟨p, hp, found⟩ := later splits (by rw [List.append_assoc])
        exact ⟨p, List.mem_cons_of_mem _ hp, found⟩
      · cases z with
        | nil =>
          obtain ⟨p, hp, found⟩ := later (z := []) splits.symm (by simp [rawEq])
          exact ⟨p, List.mem_cons_of_mem _ hp, found⟩
        | cons d z =>
          obtain ⟨rfl, rfl⟩ := List.cons.inj splits
          have first : y = [] :=
            met.quote_first before rawEq quote (by simpa using outside)
          subst first
          refine ⟨_, List.mem_cons_self, ?_, by simp⟩
          simp [Span.isQuoted, rawEq, quote]
    · cases y with
      | nil =>
        obtain ⟨d, z, rawEq⟩ := List.exists_cons_of_ne_nil (next?_raw_ne_nil taken)
        rw [List.nil_append, rawEq] at behindGap
        obtain ⟨rfl, -⟩ := List.cons.inj behindGap
        rw [List.append_nil] at gapEq
        refine ⟨_, List.mem_cons_self, ?_, by rw [gapEq]⟩
        simp [Span.isQuoted, rawEq, quote]
      | cons d y =>
        obtain ⟨rfl, -⟩ := List.cons.inj behindGap
        have inert := inert_before taken c (by simp [gapEq])
        exact absurd quote (unquoted_of_inert inert)

/-- Without backticks, brackets and backslashes in names, tokens and scan agree: the delimiters
stand at the same offsets, and the quoted tokens cover just the stretches in which the scan is in a
literal. -/
theorem tokenize_agrees {t : Text} (known : '\x60' ∉ t ∧ '[' ∉ t)
    (bare : Scan.start.avoids Scan.escapesName t) :
    (spans 0 (tokenize t)).filterMap Span.delimiter? = Scan.start.delimiters 0 t ∧
      ∀ a b c, t = a ++ (b ++ c) →
        ((∃ p ∈ spans 0 (tokenize t), p.isQuoted ∧ p.start = a.byteLength ∧
          p.stop = (a ++ b).byteLength) ↔ Stretch a b c) := by
  have plainly : Plainly (Scan.start.run []) t := ⟨known, bare⟩
  have clear : ¬ Scan.start.Inside [] t := Scan.not_inside_of_unquoted rfl (by simp)
  refine ⟨spans_delimiters [] t rfl plainly, ?_⟩
  intro a b c text
  constructor
  · rintro ⟨p, hp, quoted, start, stop⟩
    obtain ⟨a', b', c', text', start', stop', stretch⟩ :=
      spans_stretch [] t clear plainly p hp quoted
    rw [text] at text'
    obtain ⟨rfl, same⟩ := Text.append_inj_of_byteLength text' (start.symm.trans start')
    rw [← List.append_assoc, ← List.append_assoc] at text'
    obtain ⟨both, rfl⟩ := Text.append_inj_of_byteLength text' (stop.symm.trans stop')
    obtain rfl := List.append_cancel_left both
    exact stretch
  · intro stretch
    obtain ⟨quote, body, rfl, opens⟩ := stretch.opens
    have plain := Scan.plain_of_not_inside stretch.begins
    have isQuote : quote = '\'' ∨ quote = '"' := by
      apply Decidable.byContradiction
      intro other
      have stays : (Scan.start.run (a ++ [quote])).place = .plain := by
        rw [Scan.run_append]
        exact Scan.step_stays plain other
      rw [Scan.inLiteral_eq_false_iff.2 stays] at opens
      contradiction
    obtain ⟨p, hp, quoted, start⟩ := exists_span [] t clear plainly text isQuote stretch.begins
    obtain ⟨a', b', c', text', start', stop', stretch'⟩ :=
      spans_stretch [] t clear plainly p hp quoted
    rw [text] at text'
    obtain ⟨rfl, same⟩ := Text.append_inj_of_byteLength text' (start.symm.trans start')
    rw [stretch.unique stretch' same]
    exact ⟨p, hp, quoted, start, stop'⟩

/-- Delimiters next to each other and inside literals, doubled and escaped quotes, and a string that
never ends. -/
def mixedText : Text :=
  Text.ofString "é, ('it''s; \\',', \"a\"\"(b\"\"\");\n-1.5.(x::y) 'open''\\"

theorem tokenize_mixedText_agrees :
    (('\x60' ∉ mixedText ∧ '[' ∉ mixedText) ∧ Scan.start.avoids Scan.escapesName mixedText) ∧
      (spans 0 (tokenize mixedText)).filterMap Span.delimiter? =
        [(2, .comma), (4, .opening), (17, .comma), (28, .closing), (29, .semicolon),
          (36, .opening), (41, .closing)] ∧
      ∀ a b c, mixedText = a ++ (b ++ c) →
        ((∃ p ∈ spans 0 (tokenize mixedText), p.isQuoted ∧ p.start = a.byteLength ∧
          p.stop = (a ++ b).byteLength) ↔ Stretch a b c) := by
  have known : '\x60' ∉ mixedText ∧ '[' ∉ mixedText := by decide
  have bare : Scan.start.avoids Scan.escapesName mixedText := by decide +kernel
  obtain ⟨delimiters, stretches⟩ := tokenize_agrees known bare
  exact ⟨⟨known, bare⟩, delimiters.trans (by decide +kernel), stretches⟩

end SchemaDiagram.Sql
