import SchemaDiagram.Proofs.Sql.Quotings
import SchemaDiagram.Proofs.Sql.ReferentialActions

/-!
# The parts of a column

Behind its type a column is made of parts, each in any spelling and perhaps with a name of its own.
Each part ends where the next one begins, although some look ahead and others are cut out of the
text by a scan. So the parts are read one after the other, in whatever order they stand.
-/

namespace SchemaDiagram.Sql

open Text (isBlank)

/-- The text begins with the name, quoted unless it is a word and no keyword. -/
inductive Identifier (rest : Text) : Text → Text → Prop where
  | word {b w} : isBlank b → isBareWord w → Token.ofWord w = .name w → Apart rest →
      Identifier rest w (b ++ (w ++ rest))
  | quoted {b name} (q : Quoting) : isBlank b → (q = .brackets → ']' ∉ name) →
      rest.head? ≠ some q.closing → Identifier rest name (b ++ (q.write name ++ rest))

inductive NameText (rest : Text) : Text → Text → Prop where
  | identifier {name t} : Identifier rest name t → NameText rest name t
  | keyword {b w k} : isBlank b → isBareWord w → Token.ofWord w = .keyword k w → Apart rest →
      NameText rest w (b ++ (w ++ rest))

/-- The text begins with the name in parentheses. -/
inductive Listed (rest : Text) : Text → Text → Prop where
  | intro {b c name t} : isBlank b → isBlank c → NameText (c ++ ')' :: rest) name t →
      Listed rest name (b ++ '(' :: t)

theorem Identifier.firstToken? {rest name t : Text} (h : Identifier rest name t) :
    Sql.firstToken? t = some (.name name, rest) := by
  cases h with
  | word blank bare isName apart =>
    rw [firstToken?_behind_blank blank, firstToken?_bareWord bare apart, isName]
  | quoted q blank fits ends =>
    rw [firstToken?_behind_blank blank, Quoting.firstToken?_write fits ends]

theorem NameText.firstToken? {rest name t : Text} (h : NameText rest name t) :
    ∃ token, Sql.firstToken? t = some (token, rest) ∧ token.asName? = some name := by
  cases h with
  | identifier named => exact ⟨_, named.firstToken?, rfl⟩
  | @keyword b _ k blank bare known apart =>
    refine ⟨.keyword k name, ?_, rfl⟩
    rw [firstToken?_behind_blank blank, firstToken?_bareWord bare apart, known]

theorem NameText.name? {rest name t : Text} (h : NameText rest name t) :
    Reader.name? t = (some name, rest) := by
  obtain ⟨token, first, named⟩ := h.firstToken?
  exact Reader.name?_some first named

theorem Listed.firstToken? {rest name t : Text} (h : Listed rest name t) :
    ∃ u, Sql.firstToken? t = some (.opening, u) := by
  cases h with
  | @intro b c _ u blank _ _ =>
    exact ⟨u, by rw [firstToken?_behind_blank blank, firstToken?_opening]⟩

theorem Listed.columnList {rest name t : Text} (h : Listed rest name t) :
    Reader.columnList t = ([name], rest) := by
  cases h with
  | @intro b c _ u blank blank' named =>
    have opened : Sql.firstToken? (b ++ '(' :: u) = some (.opening, u) := by
      rw [firstToken?_behind_blank blank, firstToken?_opening]
    have closes : Sql.firstToken? (c ++ ')' :: rest) = some (.closing, rest) := by
      rw [firstToken?_behind_blank blank', firstToken?_closing]
    obtain ⟨token, first, isName⟩ := named.firstToken?
    have marks : token ≠ .opening ∧ token ≠ .closing ∧ token ≠ .comma := by
      refine ⟨?_, ?_, ?_⟩ <;> rintro rfl <;> simp [Token.asName?] at isName
    refine (Reader.bind_of (Reader.eatIf_true opened rfl)).trans ?_
    change Reader.listItems true u = _
    rw [Reader.listItems_eq true first marks.1, if_neg marks.2.1, if_neg marks.2.2,
      isName]
    dsimp only
    rw [Reader.listItems_eq false closes (by simp), if_pos rfl]

def lastAction (trigger : Trigger) (actions : List (Trigger × ReferentialAction)) :
    Option ReferentialAction :=
  (actions.filter (·.1 = trigger)).getLast?.map (·.2)

theorem lastAction_eq (trigger : Trigger) (actions : List (Trigger × ReferentialAction)) :
    ((actions.map fun a => (a.1, some a.2)).filter (·.1 = trigger)).getLast?.bind (·.2) =
      lastAction trigger actions := by
  rw [List.filter_map, List.getLast?_map, Option.bind_map, lastAction, Option.map_eq_bind]
  rfl

/-- A target in any spelling is read back, with the last action for each trigger. -/
theorem Reader.reference?_listed {table column t u v rest : Text}
    {actions : List (Trigger × ReferentialAction)} (named : NameText u table t)
    (listed : Listed v column u) (acts : ActionsText rest actions v)
    (ends : eat .on rest = (false, rest)) :
    reference? t =
      (some ⟨table, [column], lastAction .delete actions, lastAction .update actions⟩, rest) := by
  have undotted : eatIf (· = .dot) u = (false, u) := by
    obtain ⟨w, opened⟩ := listed.firstToken?
    apply eatIf_false
    intro token rest' first
    rw [opened] at first
    obtain ⟨rfl, -⟩ := Prod.mk.inj (Option.some_inj.1 first)
    rfl
  have qualified : qualifiedName? t = (some (none, table), u) :=
    (bind_of named.name?).trans (bind_of undotted)
  have clauses := referentialClauses_actionsText acts ends
  refine (bind_of qualified).trans ((bind_of listed.columnList).trans ((bind_of clauses).trans ?_))
  rw [pure_apply]
  simp only [lastAction_eq, List.isEmpty_cons, Bool.false_eq_true, if_false]

inductive GroupText (rest : Text) : Text → Text → Prop where
  | intro {b inside} : isBlank b → Clear inside →
      GroupText rest ('(' :: inside ++ [')']) (b ++ ('(' :: inside ++ [')'] ++ rest))

/-- The text begins with an expression in which nothing ends it; white space does. -/
inductive ExpressionText (rest : Text) : Text → Text → Prop where
  | intro {b e} : isBlank b → e ≠ [] → Clear e → Scan.start.avoids Scan.stops e → Spaced rest →
      ExpressionText rest e (b ++ (e ++ rest))

theorem GroupText.groupText? {rest g t : Text} (h : GroupText rest g t) :
    ∃ x, Reader.groupText? t = (some g, x) ∧ firstToken? x = firstToken? rest := by
  cases h with
  | intro blank clear =>
    obtain ⟨x, group, same⟩ := Reader.groupText?_behind_blank blank clear rest
    exact ⟨x, group, firstToken?_congr same⟩

theorem GroupText.firstToken? {rest g t : Text} (h : GroupText rest g t) :
    ∃ u, Sql.firstToken? t = some (.opening, u) := by
  cases h with
  | intro blank _ =>
    exact ⟨_, (firstToken?_behind_blank blank _).trans (firstToken?_opening _)⟩

theorem ExpressionText.defaultExpression? {rest e t : Text} (h : ExpressionText rest e t) :
    ∃ x, Reader.defaultExpression? t = (some e, x) ∧ firstToken? x = firstToken? rest := by
  cases h with
  | intro blank nonempty clear whole spaced =>
    obtain ⟨x, expression, same⟩ :=
      Reader.defaultExpression?_spaced blank nonempty clear whole spaced
    exact ⟨x, expression, firstToken?_congr same⟩

inductive Part where
  | primaryKey
  | notNull
  | null
  | unique
  | autoIncrement
  | default (expression : Text)
  | check (group : Text)
  | references (table column : Text) (actions : List (Trigger × ReferentialAction))
  /-- A column that is generated by default, as an identity. -/
  | identity
  /-- A column that is always generated, from a group. -/
  | computed (group : Text)

namespace Part

/-- The words that a part begins with, by which its kind is known. -/
def words : Part → List Text
  | primaryKey => [Text.ofString "PRIMARY", Text.ofString "KEY"]
  | notNull => [Text.ofString "NOT", Text.ofString "NULL"]
  | null => [Text.ofString "NULL"]
  | unique => [Text.ofString "UNIQUE"]
  | autoIncrement => [Text.ofString "AUTO_INCREMENT"]
  | default _ => [Text.ofString "DEFAULT"]
  | check _ => [Text.ofString "CHECK"]
  | references .. => [Text.ofString "REFERENCES"]
  | identity => [Text.ofString "GENERATED", Text.ofString "BY", Text.ofString "DEFAULT",
      Text.ofString "AS", Text.ofString "IDENTITY"]
  | computed _ => [Text.ofString "GENERATED", Text.ofString "ALWAYS", Text.ofString "AS"]

/-- What stands between the words of a part and the text behind it. -/
inductive Operand (rest : Text) : Part → Text → Prop where
  | primaryKey : Operand rest primaryKey rest
  | notNull : Operand rest notNull rest
  | null : Operand rest null rest
  | unique : Operand rest unique rest
  | autoIncrement : Operand rest autoIncrement rest
  | default {e t} : ExpressionText rest e t → Operand rest (default e) t
  | check {g t} : GroupText rest g t → Operand rest (check g) t
  | references {table column actions t u v} : NameText u table t → Listed v column u →
      ActionsText rest actions v → Operand rest (references table column actions) t
  | identity : Operand rest identity rest
  | computed {g t} : GroupText rest g t → Operand rest (computed g) t

/-- The clause that a part is read as. -/
def clause? : Part → Option Clause
  | primaryKey => some .primaryKey
  | notNull => some .notNull
  | null => none
  | unique => some .unique
  | autoIncrement => some .autoIncrement
  | default e => some (.default e)
  | check g => some (.check g)
  | references table column actions =>
    some (.references ⟨table, [column], lastAction .delete actions, lastAction .update actions⟩)
  | identity => some .autoIncrement
  | computed _ => none

end Part

/-- The text begins with a name for what follows, or with nothing. -/
inductive Labelled (rest : Text) : Text → Prop where
  | plain : Labelled rest rest
  | named {name t u} : Phrase u [Text.ofString "CONSTRAINT"] t → Identifier rest name u →
      Labelled rest t

/-- Parts one after the other, each perhaps with a name in front, up to the end of the text. -/
inductive PartsText : List Part → Text → Prop where
  | nil {t} : isBlank t → PartsText [] t
  | cons {p parts t u v w} : Labelled u t → Phrase v p.words u → p.Operand w v →
      PartsText parts w → PartsText (p :: parts) t

def partKeywords : List Keyword :=
  [.constraint, .primary, .not, .null, .unique, .autoIncrement, .default, .check, .references,
    .generated]

/-- The text begins with such a keyword, unless it holds no token at all. -/
def Onward (t : Text) : Prop :=
  ∀ token u, firstToken? t = some (token, u) →
    ∃ k ∈ partKeywords, ∃ spelled, token = .keyword k spelled

theorem Part.words_eq (p : Part) :
    ∃ w words k, p.words = w :: words ∧ isBareWord w ∧ Token.ofWord w = .keyword k w ∧
      k ∈ partKeywords ∧ w ∈ clauseWords := by
  cases p
  all_goals exact ⟨_, _, _, rfl, rfl, rfl, by decide, by decide⟩

theorem PartsText.begins {parts : List Part} {t : Text} (h : PartsText parts t) :
    isBlank t ∨ ∃ w words k u, Phrase u (w :: words) t ∧ isBareWord w ∧
      Token.ofWord w = .keyword k w ∧ k ∈ partKeywords ∧ w ∈ clauseWords := by
  cases h with
  | nil blank => exact .inl blank
  | @cons p _ _ _ v _ label words _ _ =>
    right
    cases label with
    | plain =>
      obtain ⟨w, others, k, eq, bare, known, keyword, clause⟩ := p.words_eq
      rw [eq] at words
      exact ⟨w, others, k, v, words, bare, known, keyword, clause⟩
    | named constraint _ =>
      exact ⟨_, _, _, _, constraint, rfl, rfl, by decide, by decide⟩

theorem PartsText.onward {parts : List Part} {t : Text} (h : PartsText parts t) : Onward t := by
  intro token u first
  rcases h.begins with blank | ⟨w, words, k, v, phrase, bare, known, keyword, -⟩
  · rw [firstToken?_isBlank blank] at first
    contradiction
  · obtain ⟨spelled, v', first', -⟩ := phrase.keyword bare known
    rw [first] at first'
    exact ⟨k, keyword, spelled, (Prod.mk.inj (Option.some_inj.1 first')).1⟩

namespace Onward

variable {t : Text}

theorem eat (h : Onward t) {k : Keyword} (other : k ∉ partKeywords) :
    Reader.eat k t = (false, t) := by
  apply Reader.eatIf_false
  intro token u first
  obtain ⟨k', keyword, spelled, rfl⟩ := h token u first
  have differ : k' ≠ k := by
    rintro rfl
    exact other keyword
  simpa using differ

theorem groupText? (h : Onward t) : Reader.groupText? t = (none, t) := by
  have absent : Reader.group t = .absent := by
    apply Reader.group_absent
    intro u first
    obtain ⟨k, -, spelled, eq⟩ := h _ u first
    contradiction
  rw [Reader.groupText?, absent]

end Onward

namespace Reader

theorem identity_phrase {t rest : Text} (onward : Onward rest)
    (h : Phrase rest [Text.ofString "BY", Text.ofString "DEFAULT", Text.ofString "AS",
      Text.ofString "IDENTITY"] t) : identity t = (true, rest) := by
  have noAlways := h.eatWord_other (x := Text.ofString "ALWAYS") rfl rfl
  obtain ⟨_, eatenBy, behind⟩ := h.eatWord rfl rfl
  obtain ⟨_, eatenDefault, behind⟩ := behind.eat (k := .default) rfl rfl
  obtain ⟨_, eatenAs, behind⟩ := behind.eatWord rfl rfl
  obtain ⟨_, isIdentity, _ | _⟩ := behind.eat (k := .identity) rfl rfl
  have noGroup : skipGroup rest = ((), rest) := bind_of onward.groupText?
  refine (bind_of noAlways).trans ((bind_of eatenBy).trans ((bind_of eatenDefault).trans ?_))
  exact (bind_of eatenAs).trans ((bind_of isIdentity).trans (bind_of noGroup))

theorem identity_group {t u g rest : Text} (group : GroupText rest g u)
    (h : Phrase u [Text.ofString "ALWAYS", Text.ofString "AS"] t) :
    ∃ x, identity t = (false, x) ∧ firstToken? x = firstToken? rest := by
  obtain ⟨_, eatenAlways, behind⟩ := h.eatWord rfl rfl
  obtain ⟨_, eatenAs, _ | _⟩ := behind.eatWord rfl rfl
  obtain ⟨v, opened⟩ := group.firstToken?
  have noIdentity : eat .identity u = (false, u) := eat_of_opening opened
  obtain ⟨x, read, same⟩ := group.groupText?
  have skipped : skipGroup u = ((), x) := bind_of read
  refine ⟨x, ?_, same⟩
  refine (bind_of eatenAlways).trans ((bind_of eatenAs).trans ?_)
  exact (bind_of noIdentity).trans (bind_of skipped)

/-- A part is read as its clause, and what it leaves goes on like the text behind it. -/
theorem clause?_part {p : Part} {t u rest : Text} (words : Phrase u p.words t)
    (operand : p.Operand rest u) (onward : Onward rest) :
    ∃ token v x, firstToken? t = some (token, v) ∧ clause? token v = (p.clause?, x) ∧
      firstToken? x = firstToken? rest := by
  cases operand with
  | primaryKey =>
    obtain ⟨v, t', first, behind⟩ := words.keyword (k := .primary) rfl rfl
    obtain ⟨_, key, _ | _⟩ := behind.eat (k := .key) rfl rfl
    exact ⟨_, _, _, first, bind_of key, rfl⟩
  | notNull =>
    obtain ⟨v, t', first, behind⟩ := words.keyword (k := .not) rfl rfl
    obtain ⟨_, null, _ | _⟩ := behind.eat (k := .null) rfl rfl
    exact ⟨_, _, _, first, bind_of null, rfl⟩
  | null =>
    obtain ⟨v, _, first, _ | _⟩ := words.keyword (k := .null) rfl rfl
    exact ⟨_, _, _, first, rfl, rfl⟩
  | unique =>
    obtain ⟨v, _, first, _ | _⟩ := words.keyword (k := .unique) rfl rfl
    exact ⟨_, _, _, first, bind_of (onward.eat (k := .key) (by decide)), rfl⟩
  | autoIncrement =>
    obtain ⟨v, _, first, _ | _⟩ := words.keyword (k := .autoIncrement) rfl rfl
    exact ⟨_, _, _, first, rfl, rfl⟩
  | default expression =>
    obtain ⟨v, _, first, _ | _⟩ := words.keyword (k := .default) rfl rfl
    obtain ⟨x, read, same⟩ := expression.defaultExpression?
    exact ⟨_, _, x, first, bind_of read, same⟩
  | check group =>
    obtain ⟨v, _, first, _ | _⟩ := words.keyword (k := .check) rfl rfl
    obtain ⟨x, read, same⟩ := group.groupText?
    exact ⟨_, _, x, first, bind_of read, same⟩
  | references named listed actions =>
    obtain ⟨v, _, first, _ | _⟩ := words.keyword (k := .references) rfl rfl
    have read := reference?_listed named listed actions (onward.eat (by decide))
    exact ⟨_, _, _, first, bind_of read, rfl⟩
  | identity =>
    obtain ⟨v, t', first, behind⟩ := words.keyword (k := .generated) rfl rfl
    exact ⟨_, _, _, first, bind_of (identity_phrase onward behind), rfl⟩
  | computed group =>
    obtain ⟨v, t', first, behind⟩ := words.keyword (k := .generated) rfl rfl
    obtain ⟨x, read, same⟩ := identity_group group behind
    exact ⟨_, _, x, first, bind_of read, same⟩

theorem clauses_isBlank {t : Text} (h : isBlank t) : clauses t = [] := by
  rw [clauses_eq, firstToken?_isBlank h]

theorem clauses_labelled {t u : Text} (h : Labelled u t) : clauses t = clauses u := by
  cases h with
  | plain => rfl
  | @named name _ behind constraint identifier =>
    obtain ⟨v, _, first, _ | _⟩ := constraint.keyword (k := .constraint) rfl rfl
    rw [clauses_eq, first]
    dsimp only
    have taken : clause? (.keyword .constraint v) behind = (none, u) := by
      refine bind_of (a := some ()) ?_
      rw [take?_eq, identifier.firstToken?]
    rw [taken]
    rfl

theorem clauses_partsText {parts : List Part} {t : Text} (h : PartsText parts t) :
    clauses t = parts.filterMap Part.clause? := by
  induction h with
  | nil blank => exact clauses_isBlank blank
  | @cons p parts t u v w label words operand behind ih =>
    obtain ⟨token, u', x, first, read, same⟩ := clause?_part words operand behind.onward
    rw [clauses_labelled label, clauses_eq, first]
    dsimp only
    rw [read, clauses_congr same, ih, List.filterMap_cons]
    cases p.clause? <;> rfl

end Reader

end SchemaDiagram.Sql
