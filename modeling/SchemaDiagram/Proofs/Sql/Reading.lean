import SchemaDiagram.Proofs.Sql.Closed
import SchemaDiagram.Sql.Script

/-!
# Readers and first tokens

What a reader does depends on the first token of its text and on the text behind it. The gap in
front of the token does not matter.
-/

namespace SchemaDiagram.Sql

theorem firstToken?_space (t : Text) : firstToken? (' ' :: t) = firstToken? t :=
  firstToken?_of_not_startsToken rfl

theorem firstToken?_opening (t : Text) : firstToken? ('(' :: t) = some (.opening, t) :=
  firstToken?_of_startsToken rfl

theorem firstToken?_closing (t : Text) : firstToken? (')' :: t) = some (.closing, t) :=
  firstToken?_of_startsToken rfl

theorem firstToken?_comma (t : Text) : firstToken? (',' :: t) = some (.comma, t) :=
  firstToken?_of_startsToken rfl

theorem firstToken?_semicolon (t : Text) : firstToken? (';' :: t) = some (.semicolon, t) :=
  firstToken?_of_startsToken rfl

/-- A text that is one token when it stands alone, and no number. -/
def isBareWord : Text → Bool
  | [] => false
  | c :: w => (Text.isAlphanumeric c || c == '_') && !Text.isAsciiDigit c && w.all isNameChar

theorem isNameChar_of_isBareWord {w : Text} (h : isBareWord w) : ∀ c ∈ w, isNameChar c := by
  cases w with
  | nil => simp
  | cons c w =>
    simp only [isBareWord, Bool.and_eq_true, List.all_eq_true] at h
    have first : isNameChar c := by
      rw [isNameChar, h.1.1]
      rfl
    exact List.forall_mem_cons.2 ⟨first, h.2⟩

theorem firstToken?_bareWord {w b : Text} (h : isBareWord w) (hb : Apart b) :
    firstToken? (w ++ b) = some (.ofWord w, b) := by
  have names := isNameChar_of_isBareWord h
  cases w with
  | nil => simp [isBareWord] at h
  | cons c w =>
    rw [List.forall_mem_cons] at names
    simp only [isBareWord, Bool.and_eq_true, Bool.not_eq_true', Bool.or_eq_true, beq_iff_eq] at h
    have starts : startsToken c (w ++ b) := by
      rcases h.1.1 with letter | rfl
      · simp [startsToken, letter]
      · rfl
    have noMark : c ∉ ['(', ')', ',', ';', '.', '"', '\x60', '[', '\'', '-'] := by
      intro mark
      simp only [List.mem_cons, List.not_mem_nil, or_false] at mark
      rcases mark with rfl | rfl | rfl | rfl | rfl | rfl | rfl | rfl | rfl | rfl <;>
        exact absurd names.1 (by decide)
    have taken : (w ++ b).takeWhile isNameChar = w := by
      rw [List.takeWhile_append_of_pos names.2, hb.takeWhile, List.append_nil]
    have left : (w ++ b).dropWhile isNameChar = b := by
      rw [List.dropWhile_append_of_pos names.2, hb.dropWhile]
    simp only [List.mem_cons, List.not_mem_nil, or_false, not_or] at noMark
    rw [List.cons_append, firstToken?_of_startsToken starts]
    simp [tokenAt, noMark, h.1.2, taken, left]

theorem firstToken?_word {w b : Text} (h : isBareWord w) (hb : Delimited b) :
    firstToken? (w ++ b) = some (.ofWord w, b) :=
  firstToken?_bareWord h hb.apart

/-- A quoted name is read up to its closing quote. A bracket cannot be doubled. -/
theorem quotedName_doubledBy {close : Char} {name : Text} (h : close = ']' → ']' ∉ name) {b : Text}
    (hb : b.head? ≠ some close) :
    quotedName close (doubledBy close name ++ close :: b) =
      ⟨name, doubledBy close name ++ [close], b⟩ := by
  induction name with
  | nil =>
    cases b with
    | nil => simp [doubledBy, quotedName]
    | cons d b =>
      have hd : d ≠ close := by simpa using hb
      simp [doubledBy, quotedName, hd]
  | cons c name ih =>
    have ih := ih fun bracket mem => h bracket (List.mem_cons_of_mem c mem)
    rw [doubledBy_cons]
    by_cases hc : c = close
    · subst hc
      have noBracket : c ≠ ']' := by
        rintro rfl
        exact h rfl List.mem_cons_self
      simp [quotedName, noBracket, ih, Piece.behind]
    · rw [if_neg hc, List.append_assoc, List.singleton_append, quotedName.eq_def]
      simp [hc, ih, Piece.behind]

namespace Quoting

variable {q : Quoting} {name : Text}

theorem tokenAt_write (fits : q = .brackets → ']' ∉ name) {b : Text}
    (hb : b.head? ≠ some q.closing) :
    tokenAt q.opening (doubledBy q.closing name ++ q.closing :: b) =
      ⟨.name name, q.write name, b⟩ := by
  have bracket : q.closing = ']' → ']' ∉ name := by
    intro closing
    cases q with
    | doubleQuotes => exact absurd closing (by decide)
    | backticks => exact absurd closing (by decide)
    | brackets => exact fits rfl
  have body := quotedName_doubledBy bracket hb
  cases q with
  | doubleQuotes => simp only [closing] at body; simp [tokenAt, opening, closing, write, body]
  | backticks => simp only [closing] at body; simp [tokenAt, opening, closing, write, body]
  | brackets => simp only [closing] at body; simp [tokenAt, opening, closing, write, body]

theorem startsToken_opening (t : Text) : startsToken q.opening t := by
  cases q <;> rfl

theorem firstToken?_write (fits : q = .brackets → ']' ∉ name) {b : Text}
    (hb : b.head? ≠ some q.closing) : firstToken? (q.write name ++ b) = some (.name name, b) := by
  rw [write_append, firstToken?_of_startsToken (startsToken_opening _), tokenAt_write fits hb]

end Quoting

theorem firstToken?_quoted (name : Text) {b : Text} (hb : b.head? ≠ some '"') :
    firstToken? (quoted name ++ b) = some (.name name, b) :=
  Quoting.firstToken?_write (q := .doubleQuotes) nofun hb

/-- How a name can be spelled: as it is, if that is one word and no keyword, or in double quotes. -/
inductive Spells : Text → Text → Prop where
  | word {w} : isBareWord w → Token.ofWord w = .name w → Spells w w
  | quoted (name) : Spells (quoted name) name

theorem Spells.firstToken? {n name b : Text} (h : Spells n name) (hb : Delimited b) :
    firstToken? (n ++ b) = some (.name name, b) := by
  cases h with
  | word bare spells => rw [firstToken?_word bare hb, spells]
  | quoted => exact firstToken?_quoted name (hb.head_ne rfl)

def constraintWords : List Keyword := [.primary, .foreign, .unique, .check]

def Token.beginsConstraint : Token → Bool
  | keyword k _ => k ∈ constraintWords
  | _ => false

/-- In front of a blank, `n` is read as the name `name`. -/
def StandsFor (n name : Text) : Prop :=
  ∀ t, firstToken? (n ++ ' ' :: t) = some (.name name, ' ' :: t)

theorem Spells.standsFor {n name : Text} (h : Spells n name) : StandsFor n name :=
  fun _ => h.firstToken? rfl

namespace Reader

variable {t rest : Text} {token : Token}

theorem bind_of {α β : Type} {r : Reader α} {f : α → Reader β} {a : α}
    (h : r t = (a, rest)) : (r >>= f) t = f a rest := by
  rw [bind_apply, h]

theorem take?_eq {α : Type} (f : Token → Option α) (t : Text) :
    take? f t = match firstToken? t with
      | none => (none, t)
      | some (token, rest) =>
        match f token with
        | none => (none, t)
        | some a => (some a, rest) := by
  unfold take? firstToken?
  rcases next? t with _ | ⟨l, rest⟩ <;> rfl

theorem eatIf_true {test : Token → Bool} (h : firstToken? t = some (token, rest))
    (passes : test token) : eatIf test t = (true, rest) := by
  rw [eatIf, bind_apply, take?_eq, h]
  simp [passes, pure_apply]

theorem eatIf_false {test : Token → Bool} (h : ∀ token rest, firstToken? t = some (token, rest) →
    test token = false) : eatIf test t = (false, t) := by
  rw [eatIf, bind_apply, take?_eq]
  cases first : firstToken? t with
  | none => rfl
  | some p =>
    obtain ⟨token, rest⟩ := p
    simp [h token rest first, pure_apply]

theorem eat_true {k : Keyword} {spelled : Text}
    (h : firstToken? t = some (.keyword k spelled, rest)) :
    eat k t = (true, rest) :=
  eatIf_true h (by simp)

theorem eat_word {k : Keyword} {w : Text} (bare : isBareWord w)
    (spells : Token.ofWord w = .keyword k w) (ht : Delimited t) :
    eat k (' ' :: (w ++ t)) = (true, t) :=
  eat_true (by rw [firstToken?_space, firstToken?_word bare ht, spells])

theorem skipWords_eq (words : List Text) (t : Text) :
    skipWords words t = match firstToken? t with
      | none => ((), t)
      | some (token, rest) =>
        if words.any (Token.isWord · token) then skipWords words rest else ((), t) := by
  rw [skipWords]
  unfold firstToken?
  split
  · next none => rw [none]; rfl
  · next l rest next => rw [next]; rfl

theorem skipWords_of_keyword {words : List Text} {spelled : Text} {k : Keyword}
    (h : firstToken? t = some (.keyword k spelled, rest)) : skipWords words t = ((), t) := by
  have noWord : words.any (Token.isWord · (.keyword k spelled)) = false := by simp [Token.isWord]
  rw [skipWords_eq, h]
  dsimp only
  rw [noWord]
  rfl

theorem name?_some {n : Text} (h : firstToken? t = some (token, rest))
    (hn : token.asName? = some n) : name? t = (some n, rest) := by
  rw [name?, take?_eq, h]
  simp [hn]

theorem eat_of_name {k : Keyword} {n name : Text} (h : StandsFor n name) (t : Text) :
    eat k (' ' :: (n ++ ' ' :: t)) = (false, ' ' :: (n ++ ' ' :: t)) := by
  apply eatIf_false
  intro token rest first
  rw [firstToken?_space, h] at first
  obtain ⟨rfl, -⟩ := Prod.mk.inj (Option.some_inj.1 first)
  rfl

theorem qualifiedName?_of_name {n name : Text} (h : StandsFor n name)
    (first : firstToken? t = some (token, rest)) (noDot : token ≠ .dot) :
    qualifiedName? (' ' :: (n ++ ' ' :: t)) = (some (none, name), ' ' :: t) := by
  have name : name? (' ' :: (n ++ ' ' :: t)) = (some name, ' ' :: t) :=
    name?_some ((firstToken?_space _).trans (h t)) rfl
  have undotted : eatIf (· = .dot) (' ' :: t) = (false, ' ' :: t) := by
    apply eatIf_false
    intro token' rest' first'
    rw [firstToken?_space, first] at first'
    obtain ⟨rfl, -⟩ := Prod.mk.inj (Option.some_inj.1 first')
    simp [noDot]
  exact (bind_of name).trans (bind_of undotted)

theorem group_closed {inside behind : Text} (h : firstToken? t = some (.opening, rest))
    (close : closeGroup? rest = some (inside, behind)) :
    group t = .closed inside (skipPast (inside.length + 1) rest) := by
  unfold firstToken? at h
  obtain ⟨⟨l, rest'⟩, next, eq⟩ := Option.map_eq_some_iff.1 h
  obtain ⟨before, token, raw⟩ := l
  obtain ⟨rfl, rfl⟩ := Prod.mk.inj eq
  unfold group
  rw [next]
  simp only [close]

theorem group_absent (h : ∀ rest, firstToken? t ≠ some (.opening, rest)) : group t = .absent := by
  unfold group
  split
  · next rest next =>
    exact absurd (by simp [firstToken?, next]) (h rest)
  · rfl

theorem statements_eq (t : Text) :
    statements t = match firstToken? t with
      | none => []
      | some (token, rest) =>
        (statement? token rest).1.toList ++ statements (statement? token rest).2 := by
  rw [statements]
  unfold firstToken?
  split
  · next none => rw [none]; rfl
  · next l rest next => rw [next]; rfl

theorem statements_nil : statements [] = [] := by
  rw [statements_eq]
  rfl

theorem statements_semicolon (rest : Text) : statements (';' :: rest) = statements rest := by
  rw [statements_eq, firstToken?_semicolon]
  rfl

theorem statements_congr {x y : Text} (h : (gap x).2 = (gap y).2) :
    statements x = statements y := by
  rw [statements_eq, statements_eq, firstToken?_congr h]

end Reader

end SchemaDiagram.Sql
