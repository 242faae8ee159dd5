import SchemaDiagram.Proofs.Sql.Comments
import SchemaDiagram.Proofs.Sql.Nesting

/-!
# Texts as characters, literals and comments

There is one way to read a text as characters, literals and comments. Without its comments it is
read as the same characters and literals, with a space for each block comment: what a comment kept
apart forms no comment and no literal when it comes together. So a text without its comments has no
comment, and leaving comments out again changes nothing.
-/

namespace SchemaDiagram.Sql

theorem head_fromLineEnd (t : Text) : ∀ c ∈ (fromLineEnd t).head?, c = '\n' := by
  intro c first
  have stop := List.head?_dropWhile_not (· ≠ '\n') t
  rw [Option.mem_def, fromLineEnd] at first
  rw [first] at stop
  simpa using stop

namespace Scan

/-- What is left begins as the text does, or with the blank that a comment leaves behind. -/
theorem head?_of_uncomment {s : Scan} {t : Text} {d : Char} (hd : d ≠ ' ') (hn : d ≠ '\n')
    (h : (s.uncomment t).head? = some d) : t.head? = some d := by
  induction s, t using comment_induction with
  | nil s => simp [uncomment] at h
  | char s c t kept ih =>
    rw [uncomment_cons kept] at h
    exact h
  | line s line outside ih =>
    rw [uncomment_line outside] at h
    exact absurd (head_fromLineEnd line d (ih h)) hn
  | block s block outside ih =>
    rw [uncomment_block outside] at h
    exact absurd (Option.some_inj.1 h).symm hd

theorem opensComment_uncomment {s s' : Scan} {c : Char} {t : Text}
    (h : s.opensComment c t = false) : s.opensComment c (s'.uncomment t) = false := by
  simp only [opensComment, Bool.and_eq_false_iff, Bool.or_eq_false_iff, beq_eq_false_iff_ne,
    ne_eq] at h ⊢
  refine h.imp_right fun none => ⟨none.1.imp_right ?_, none.2.imp_right ?_⟩
  · intro noDash opens
    exact noDash (head?_of_uncomment (by decide) (by decide) opens)
  · intro noStar opens
    exact noStar (head?_of_uncomment (by decide) (by decide) opens)

theorem step_space {s : Scan} (outside : s.inLiteral = false) : s.step ' ' = s := by
  have plain : s.place = .plain := by simpa [inLiteral] using outside
  simp [step, plain]

theorem commentFree_uncomment (s : Scan) (t : Text) : s.commentFree (s.uncomment t) := by
  induction s, t using comment_induction with
  | nil s => simp [uncomment, commentFree]
  | char s c t kept ih =>
    rw [uncomment_cons kept, commentFree, opensComment_uncomment kept, ih]
    rfl
  | line s line outside ih =>
    rw [uncomment_line outside]
    exact ih
  | block s block outside ih =>
    rw [uncomment_block outside, commentFree, step_space outside, ih]
    simp [opensComment]

theorem commentFree_iff {s : Scan} {t : Text} :
    s.commentFree t ↔ ∀ a c b, t = a ++ c :: b → (s.run a).opensComment c b = false := by
  induction t generalizing s with
  | nil =>
    constructor
    · intro _ a c b text
      simp at text
    · intro _
      rfl
  | cons d t ih =>
    rw [commentFree, Bool.and_eq_true, Bool.not_eq_true', ih]
    constructor
    · rintro ⟨first, behind⟩ a c b text
      cases a with
      | nil =>
        obtain ⟨rfl, rfl⟩ := List.cons.inj text
        exact first
      | cons e a =>
        obtain ⟨rfl, rest⟩ := List.cons.inj text
        exact behind a c b rest
    · intro h
      constructor
      · exact h [] d t rfl
      · intro a c b text
        exact h (d :: a) c b (by rw [text, List.cons_append])

end Scan

theorem stripComments_eq {t : Text} (noReturn : '\r' ∉ t) :
    stripComments t = Scan.start.uncomment t := by
  rw [stripComments, unifyLineEnds_of_not_mem noReturn]

theorem not_mem_stripComments {t : Text} (noReturn : '\r' ∉ t) : '\r' ∉ stripComments t := by
  rw [stripComments_eq noReturn]
  intro mem
  rcases Scan.mem_of_mem_uncomment mem with before | space
  · exact noReturn before
  · contradiction

/-- A piece of a text: a character outside literals and comments, a literal with its quotes, or a
comment, a line comment without its line end. -/
inductive Region where
  | character (c : Char)
  | literal (raw : Text)
  | line (raw : Text)
  | block (raw : Text)

/-- No quote of the text ends a literal. -/
def Unended (quote : Char) (t : Text) : Prop :=
  ∀ inside behind, t = inside ++ quote :: behind → ¬ LiteralContent quote inside

/-- Behind its opening quote, a literal is `raw`, up to its closing quote or up to the end of the
text, and goes on with `rest`. -/
inductive ClosesLiteral (quote : Char) : Text → Text → Text → Prop where
  | closed {inside rest} : LiteralContent quote inside →
      ClosesLiteral quote (inside ++ quote :: rest) (inside ++ [quote]) rest
  | unended {t} : Unended quote t → ClosesLiteral quote t t []

inductive ClosesLine : Text → Text → Text → Prop where
  | intro {inside rest} : '\n' ∉ inside → (∀ c ∈ rest.head?, c = '\n') →
      ClosesLine (inside ++ rest) inside rest

/-- A block comment goes as far as the first `*/`, or up to the end of the text. -/
inductive ClosesBlock : Text → Text → Text → Prop where
  | closed {inside rest} : Text.contains ['*', '/'] inside = false →
      ClosesBlock (inside ++ '*' :: '/' :: rest) (inside ++ ['*', '/']) rest
  | unended {t} : Text.contains ['*', '/'] t = false → ClosesBlock t t []

/-- The text begins with the region and goes on with the other text. -/
inductive BeginsWith : Text → Region → Text → Prop where
  | character {c rest} : c ≠ '\'' → c ≠ '"' → Scan.start.opensComment c rest = false →
      BeginsWith (c :: rest) (.character c) rest
  | literal {quote t raw rest} : quote = '\'' ∨ quote = '"' → ClosesLiteral quote t raw rest →
      BeginsWith (quote :: t) (.literal (quote :: raw)) rest
  | line {t raw rest} : ClosesLine t raw rest →
      BeginsWith ('-' :: '-' :: t) (.line ('-' :: '-' :: raw)) rest
  | block {t raw rest} : ClosesBlock t raw rest →
      BeginsWith ('/' :: '*' :: t) (.block ('/' :: '*' :: raw)) rest

inductive ReadAs : Text → List Region → Prop where
  | nil : ReadAs [] []
  | cons {t region rest regions} : BeginsWith t region rest → ReadAs rest regions →
      ReadAs t (region :: regions)

namespace Region

/-- What a region leaves when comments are left out. -/
def left : Region → List Region
  | character c => [character c]
  | literal raw => [literal raw]
  | line _ => []
  | block _ => [character ' ']

def literal? : Region → Option Text
  | literal raw => some raw
  | _ => none

def literals (regions : List Region) : List Text := regions.filterMap literal?

theorem literals_left (regions : List Region) :
    literals (regions.flatMap left) = literals regions := by
  induction regions with
  | nil => rfl
  | cons r regions ih =>
    have first : literals (left r ++ regions.flatMap left) =
        literals (left r) ++ literals (regions.flatMap left) :=
      List.filterMap_append
    rw [List.flatMap_cons, first, ih]
    cases r <;> rfl

end Region

theorem LiteralContent.unique {quote : Char} {inside inside' rest rest' : Text}
    (hq : quote = '\'' ∨ quote = '"') (h : LiteralContent quote inside)
    (h' : LiteralContent quote inside')
    (same : inside ++ quote :: rest = inside' ++ quote :: rest') :
    inside = inside' ∧ rest = rest' := by
  have noEscape : quote ≠ '\\' := by
    rintro rfl
    simp at hq
  induction h generalizing inside' with
  | nil =>
    cases h' with
    | nil => exact ⟨rfl, (List.cons.inj same).2⟩
    | other differs => exact absurd (List.cons.inj same).1.symm differs
    | escaped => exact absurd (List.cons.inj same).1 noEscape
  | @other c t differs noBackslash _ ih =>
    cases h' with
    | nil => exact absurd (List.cons.inj same).1 differs
    | other _ _ behind =>
      obtain ⟨rfl, tails⟩ := List.cons.inj same
      obtain ⟨rfl, rests⟩ := ih behind tails
      exact ⟨rfl, rests⟩
    | escaped => exact absurd (List.cons.inj same).1 noBackslash
  | @escaped c t _ ih =>
    cases h' with
    | nil => exact absurd (List.cons.inj same).1.symm noEscape
    | other _ noBackslash => exact absurd (List.cons.inj same).1.symm noBackslash
    | escaped behind =>
      obtain ⟨rfl, tails⟩ := List.cons.inj (List.cons.inj same).2
      obtain ⟨rfl, rests⟩ := ih behind tails
      exact ⟨rfl, rests⟩

theorem ClosesLiteral.unique {quote : Char} {t raw raw' rest rest' : Text}
    (hq : quote = '\'' ∨ quote = '"') (h : ClosesLiteral quote t raw rest)
    (h' : ClosesLiteral quote t raw' rest') : raw = raw' ∧ rest = rest' := by
  generalize eq : t = t' at h'
  cases h with
  | closed content =>
    cases h' with
    | closed content' =>
      obtain ⟨rfl, rfl⟩ := content.unique hq content' eq
      exact ⟨rfl, rfl⟩
    | unended none => exact absurd content (none _ _ eq.symm)
  | unended none =>
    cases h' with
    | closed content' => exact absurd content' (none _ _ eq)
    | unended => exact ⟨eq, rfl⟩

theorem fromLineEnd_of_not_mem {inside rest : Text} (noLineEnd : '\n' ∉ inside)
    (ends : ∀ c ∈ rest.head?, c = '\n') : fromLineEnd (inside ++ rest) = rest := by
  have skipped : ∀ c ∈ inside, (decide (c ≠ '\n')) = true := by
    intro c mem
    apply decide_eq_true
    rintro rfl
    exact noLineEnd mem
  rw [fromLineEnd, List.dropWhile_append_of_pos skipped]
  cases rest with
  | nil => rfl
  | cons c rest =>
    obtain rfl := ends c rfl
    rfl

theorem ClosesLine.fromLineEnd_eq {t raw rest : Text} (h : ClosesLine t raw rest) :
    fromLineEnd t = rest ∧ t = raw ++ rest := by
  cases h with
  | intro noLineEnd ends => exact ⟨fromLineEnd_of_not_mem noLineEnd ends, rfl⟩

theorem behindBlock_of_unended {t : Text} (h : Text.contains ['*', '/'] t = false) :
    behindBlock t = [] := by
  induction t with
  | nil => rfl
  | cons c t ih =>
    rw [contains_cons, Bool.or_eq_false_iff] at h
    rw [behindBlock_cons h.1, ih h.2]

theorem ClosesBlock.behindBlock_eq {t raw rest : Text} (h : ClosesBlock t raw rest) :
    behindBlock t = rest ∧ t = raw ++ rest := by
  cases h with
  | closed none => exact ⟨behindBlock_of_not_contains none _, by simp⟩
  | unended none => exact ⟨behindBlock_of_unended none, (List.append_nil _).symm⟩

theorem BeginsWith.unique {t rest rest' : Text} {region region' : Region}
    (h : BeginsWith t region rest) (h' : BeginsWith t region' rest') :
    region = region' ∧ rest = rest' := by
  cases h with
  | character noSingle noDouble none =>
    cases h' with
    | character => exact ⟨rfl, rfl⟩
    | literal hq => exact absurd hq (by simp [noSingle, noDouble])
    | line => simp [Scan.opensComment, Scan.start, Scan.inLiteral] at none
    | block => simp [Scan.opensComment, Scan.start, Scan.inLiteral] at none
  | literal hq closes =>
    cases h' with
    | character noSingle noDouble => exact absurd hq (by simp [noSingle, noDouble])
    | literal _ closes' =>
      obtain ⟨rfl, rfl⟩ := closes.unique hq closes'
      exact ⟨rfl, rfl⟩
    | line => simp at hq
    | block => simp at hq
  | line closes =>
    cases h' with
    | character _ _ none => simp [Scan.opensComment, Scan.start, Scan.inLiteral] at none
    | literal hq => simp at hq
    | line closes' =>
      obtain ⟨rfl, text⟩ := closes.fromLineEnd_eq
      obtain ⟨rfl, text'⟩ := closes'.fromLineEnd_eq
      obtain rfl := List.append_cancel_right (text.symm.trans text')
      exact ⟨rfl, rfl⟩
  | block closes =>
    cases h' with
    | character _ _ none => simp [Scan.opensComment, Scan.start, Scan.inLiteral] at none
    | literal hq => simp at hq
    | block closes' =>
      obtain ⟨rfl, text⟩ := closes.behindBlock_eq
      obtain ⟨rfl, text'⟩ := closes'.behindBlock_eq
      obtain rfl := List.append_cancel_right (text.symm.trans text')
      exact ⟨rfl, rfl⟩

theorem ReadAs.unique {t : Text} {regions regions' : List Region} (h : ReadAs t regions)
    (h' : ReadAs t regions') : regions = regions' := by
  induction h generalizing regions' with
  | nil =>
    cases h' with
    | nil => rfl
    | cons begins => cases begins
  | cons begins _ ih =>
    cases h' with
    | nil => cases begins
    | cons begins' behind =>
      obtain ⟨rfl, rfl⟩ := begins.unique begins'
      rw [ih behind]

theorem exists_block_end {t : Text} (h : Text.contains ['*', '/'] t) :
    ∃ inside rest, t = inside ++ '*' :: '/' :: rest ∧ Text.contains ['*', '/'] inside = false := by
  induction t with
  | nil => contradiction
  | cons c t ih =>
    by_cases ends : ['*', '/'].isPrefixOf (c :: t)
    · obtain ⟨rest, eq⟩ := List.isPrefixOf_iff_prefix.1 ends
      exact ⟨[], rest, eq.symm, rfl⟩
    · rw [Bool.not_eq_true] at ends
      rw [contains_cons, ends, Bool.false_or] at h
      obtain ⟨inside, rest, rfl, none⟩ := ih h
      refine ⟨c :: inside, rest, rfl, ?_⟩
      rw [contains_cons, none, Bool.or_false]
      cases inside with
      | nil => simp [List.isPrefixOf]
      | cons d inside => exact ends

theorem exists_closesLiteral (quote : Char) (t : Text) :
    ∃ raw rest, ClosesLiteral quote t raw rest := by
  by_cases ends : ∃ inside rest, t = inside ++ quote :: rest ∧ LiteralContent quote inside
  · obtain ⟨inside, rest, rfl, content⟩ := ends
    exact ⟨_, _, .closed content⟩
  · refine ⟨_, _, .unended ?_⟩
    intro inside rest text content
    exact ends ⟨inside, rest, text, content⟩

theorem exists_closesLine (t : Text) : ∃ raw rest, ClosesLine t raw rest := by
  have noLineEnd : '\n' ∉ t.takeWhile (· ≠ '\n') := by
    intro mem
    have inside := List.mem_takeWhile_imp mem
    simp at inside
  have closes : ClosesLine (t.takeWhile (· ≠ '\n') ++ fromLineEnd t) _ _ :=
    .intro noLineEnd (head_fromLineEnd t)
  rw [fromLineEnd, List.takeWhile_append_dropWhile] at closes
  exact ⟨_, _, closes⟩

theorem exists_closesBlock (t : Text) : ∃ raw rest, ClosesBlock t raw rest := by
  by_cases ends : Text.contains ['*', '/'] t
  · obtain ⟨inside, rest, rfl, none⟩ := exists_block_end ends
    exact ⟨_, _, .closed none⟩
  · rw [Bool.not_eq_true] at ends
    exact ⟨_, _, .unended ends⟩

theorem Scan.opensComment_cases {c : Char} {t : Text} (h : Scan.start.opensComment c t) :
    (c = '-' ∧ ∃ rest, t = '-' :: rest) ∨ c = '/' ∧ ∃ rest, t = '*' :: rest := by
  simp only [opensComment, Bool.and_eq_true, Bool.or_eq_true, beq_iff_eq] at h
  rcases h.2 with ⟨rfl, head⟩ | ⟨rfl, head⟩
  · exact .inl ⟨rfl, List.head?_eq_some_iff.1 head⟩
  · exact .inr ⟨rfl, List.head?_eq_some_iff.1 head⟩

theorem exists_beginsWith (c : Char) (t : Text) :
    ∃ region rest, BeginsWith (c :: t) region rest := by
  by_cases quote : c = '\'' ∨ c = '"'
  · obtain ⟨raw, rest, closes⟩ := exists_closesLiteral c t
    exact ⟨_, _, .literal quote closes⟩
  by_cases opens : Scan.start.opensComment c t
  · rcases Scan.opensComment_cases opens with ⟨rfl, line, rfl⟩ | ⟨rfl, block, rfl⟩
    · obtain ⟨raw, rest, closes⟩ := exists_closesLine line
      exact ⟨_, _, .line closes⟩
    · obtain ⟨raw, rest, closes⟩ := exists_closesBlock block
      exact ⟨_, _, .block closes⟩
  · rw [not_or] at quote
    rw [Bool.not_eq_true] at opens
    exact ⟨_, _, .character quote.1 quote.2 opens⟩

theorem ClosesLiteral.length_le {quote : Char} {t raw rest : Text}
    (h : ClosesLiteral quote t raw rest) : rest.length ≤ t.length := by
  cases h with
  | closed =>
    simp only [List.length_append, List.length_cons]
    omega
  | unended => exact Nat.zero_le _

theorem BeginsWith.shorter {t rest : Text} {region : Region} (h : BeginsWith t region rest) :
    rest.length < t.length := by
  cases h with
  | character => exact Nat.lt_succ_self _
  | literal _ closes => exact Nat.lt_succ_of_le closes.length_le
  | @line t raw _ closes =>
    have text := congrArg List.length closes.fromLineEnd_eq.2
    simp only [List.length_append, List.length_cons] at text ⊢
    omega
  | @block t raw _ closes =>
    have text := congrArg List.length closes.behindBlock_eq.2
    simp only [List.length_append, List.length_cons] at text ⊢
    omega

theorem exists_readAs (t : Text) : ∃ regions, ReadAs t regions := by
  match t with
  | [] => exact ⟨[], .nil⟩
  | c :: t =>
    obtain ⟨region, rest, begins⟩ := exists_beginsWith c t
    have shorter : rest.length ≤ t.length := Nat.le_of_lt_succ begins.shorter
    obtain ⟨regions, behind⟩ := exists_readAs rest
    exact ⟨_, .cons begins behind⟩
termination_by t.length

theorem readAs_iff_of_readAs {t : Text} {regions : List Region} (h : ReadAs t regions)
    (others : List Region) : ReadAs t others ↔ others = regions := by
  constructor
  · exact fun h' => h'.unique h
  · rintro rfl
    exact h

namespace Scan

variable {quote : Char} {depth : Int}

theorem uncomment_nil (s : Scan) : s.uncomment [] = [] := by simp [uncomment]

theorem uncomment_inside (s : Scan) (inside : s.inLiteral) (c : Char) (t : Text) :
    s.uncomment (c :: t) = c :: (s.step c).uncomment t :=
  uncomment_cons (by simp [opensComment, inside])

theorem uncomment_content {inside : Text} (hq : quote = '\'' ∨ quote = '"')
    (h : LiteralContent quote inside) (rest : Text) :
    (reading quote depth).uncomment (inside ++ quote :: rest) =
      inside ++ quote :: (mk .plain depth).uncomment rest := by
  induction h with
  | nil =>
    have closed : (reading quote depth).step quote = ⟨.plain, depth⟩ := run_reading_quote hq
    rw [List.nil_append, uncomment_inside _ rfl, closed]
    rfl
  | @other c t hc hb _ ih =>
    have same : (reading quote depth).step c = reading quote depth := run_reading_other hc hb
    rw [List.cons_append, uncomment_inside _ rfl, same, ih]
    rfl
  | @escaped c t _ ih =>
    have escape : ((reading quote depth).step '\\').step c = reading quote depth := rfl
    rw [List.cons_append, List.cons_append, uncomment_inside _ rfl, uncomment_inside _ rfl, escape,
      ih]
    rfl

theorem uncomment_unended : ∀ {t : Text}, Unended quote t → (reading quote depth).uncomment t = t
  | [], _ => uncomment_nil _
  | [c], _ => by rw [uncomment_inside _ rfl, uncomment_nil]
  | c :: d :: t, unended => by
    by_cases escape : c = '\\'
    · subst escape
      have behind : Unended quote t := by
        intro inside rest text content
        exact unended ('\\' :: d :: inside) rest (by rw [text]; rfl) (.escaped content)
      have back : ((reading quote depth).step '\\').step d = reading quote depth := rfl
      rw [uncomment_inside _ rfl, uncomment_inside _ rfl, back, uncomment_unended behind]
    · have differs : c ≠ quote := by
        rintro rfl
        exact unended [] (d :: t) rfl .nil
      have behind : Unended quote (d :: t) := by
        intro inside rest text content
        exact unended (c :: inside) rest (by rw [text]; rfl) (.other differs escape content)
      have same : (reading quote depth).step c = reading quote depth :=
        run_reading_other differs escape
      rw [uncomment_inside _ rfl, same, uncomment_unended behind]

/-- A literal stays as it is, and behind it comments are left out as if the text began there. -/
theorem uncomment_literal {t raw rest : Text} (hq : quote = '\'' ∨ quote = '"')
    (h : ClosesLiteral quote t raw rest) :
    start.uncomment (quote :: t) = quote :: (raw ++ start.uncomment rest) := by
  have kept : start.opensComment quote t = false := by
    rcases hq with rfl | rfl <;> simp [opensComment]
  have opened : start.step quote = reading quote 0 := step_quote hq rfl
  rw [uncomment_cons kept, opened]
  cases h with
  | closed content =>
    rw [uncomment_content hq content, List.append_assoc]
    rfl
  | unended none => rw [uncomment_unended none, uncomment_nil, List.append_nil]

end Scan

theorem ClosesLiteral.uncomment {quote : Char} {t raw rest : Text}
    (h : ClosesLiteral quote t raw rest) :
    ClosesLiteral quote (raw ++ Scan.start.uncomment rest) raw (Scan.start.uncomment rest) := by
  cases h with
  | closed content =>
    rw [List.append_assoc]
    exact .closed content
  | unended none =>
    rw [Scan.uncomment_nil, List.append_nil]
    exact .unended none

theorem ReadAs.cons_space {t : Text} {regions : List Region} (h : ReadAs t regions) :
    ReadAs (' ' :: t) (.character ' ' :: regions) :=
  .cons (.character (by decide) (by decide) (by simp [Scan.opensComment])) h

/-- What is left of a text is read as what is left of its regions. -/
theorem ReadAs.uncomment {t : Text} {regions : List Region} (h : ReadAs t regions) :
    ReadAs (Scan.start.uncomment t) (regions.flatMap Region.left) := by
  induction h with
  | nil =>
    rw [Scan.uncomment_nil]
    exact .nil
  | cons begins _ ih =>
    rw [List.flatMap_cons]
    cases begins with
    | character noSingle noDouble none =>
      have plain : (Scan.start.step _).place = .plain :=
        Scan.step_stays rfl (not_or.2 ⟨noSingle, noDouble⟩)
      rw [Scan.uncomment_cons none, Scan.uncomment_of_plain plain]
      exact .cons (.character noSingle noDouble (Scan.opensComment_uncomment none)) ih
    | literal hq closes =>
      rw [Scan.uncomment_literal hq closes]
      exact .cons (.literal hq closes.uncomment) ih
    | line closes =>
      rw [Scan.uncomment_line rfl, closes.fromLineEnd_eq.1]
      exact ih
    | block closes =>
      rw [Scan.uncomment_block rfl, closes.behindBlock_eq.1]
      exact ih.cons_space

/-- Comments are left out once and for all. In what is left no comment opens outside the literals,
and it is read as the characters and the literals of the text in their order, with a space for each
block comment. (Of two returns in front of a line feed one is left, which goes the next time.) -/
theorem stripComments_final {t : Text} (noReturn : '\r' ∉ t) :
    stripComments (stripComments t) = stripComments t ∧
    (∀ a b, stripComments t = a ++ '-' :: '-' :: b → (Scan.start.run a).inLiteral) ∧
    (∀ a b, stripComments t = a ++ '/' :: '*' :: b → (Scan.start.run a).inLiteral) ∧
    ∃ regions, (∀ others, ReadAs t others ↔ others = regions) ∧
      (∀ others, ReadAs (stripComments t) others ↔ others = regions.flatMap Region.left) ∧
      Region.literals (regions.flatMap Region.left) = Region.literals regions := by
  have free : Scan.start.commentFree (stripComments t) := by
    rw [stripComments_eq noReturn]
    exact Scan.commentFree_uncomment _ _
  have noOpener := Scan.commentFree_iff.1 free
  refine ⟨stripComments_of_commentFree (not_mem_stripComments noReturn) free, ?_, ?_, ?_⟩
  · intro a b text
    have outside := noOpener a '-' ('-' :: b) text
    simpa [Scan.opensComment] using outside
  · intro a b text
    have outside := noOpener a '/' ('*' :: b) text
    simpa [Scan.opensComment] using outside
  · obtain ⟨regions, read⟩ := exists_readAs t
    have left : ReadAs (stripComments t) (regions.flatMap Region.left) := by
      rw [stripComments_eq noReturn]
      exact read.uncomment
    exact ⟨regions, readAs_iff_of_readAs read, readAs_iff_of_readAs left,
      Region.literals_left regions⟩

/-- A comment between two dashes, and comment openers in two literals, the second one open. -/
def dashed : Text := Text.ofString "-/*'*/-'--'\"/*"

theorem stripComments_dashed :
    '\r' ∉ dashed ∧ stripComments dashed = Text.ofString "- -'--'\"/*" ∧
      stripComments (stripComments dashed) = stripComments dashed ∧
      ∀ others, ReadAs (stripComments dashed) others →
        Region.literals others = [Text.ofString "'--'", Text.ofString "\"/*"] := by
  have noReturn : '\r' ∉ dashed := by decide
  have openLiteral : Unended '"' ['/', '*'] := by
    intro inside behind text _
    have quote : '"' ∈ ['/', '*'] := by rw [text]; simp
    exact absurd quote (by decide)
  have read : ReadAs dashed [.character '-', .block (Text.ofString "/*'*/"), .character '-',
      .literal (Text.ofString "'--'"), .literal (Text.ofString "\"/*")] :=
    .cons (.character (by decide) (by decide) rfl) <|
    .cons (.block (@ClosesBlock.closed ['\''] _ rfl)) <|
    .cons (.character (by decide) (by decide) rfl) <|
    .cons (.literal (.inl rfl) (@ClosesLiteral.closed '\'' ['-', '-'] _
      (.other (by decide) (by decide) (.other (by decide) (by decide) .nil)))) <|
    .cons (.literal (.inr rfl) (.unended openLiteral)) .nil
  obtain ⟨final, -, -, regions, readings, kept, literals⟩ := stripComments_final noReturn
  refine ⟨noReturn, by decide +kernel, final, ?_⟩
  intro others left
  rw [(kept others).1 left, literals, ← (readings _).1 read]
  rfl

end SchemaDiagram.Sql
