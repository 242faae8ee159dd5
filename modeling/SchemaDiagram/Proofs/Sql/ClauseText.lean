import SchemaDiagram.Proofs.Sql.Reading
import SchemaDiagram.Proofs.Sql.Types
import SchemaDiagram.Sql.Clause

/-!
# Clauses that are read back

The text of a column's clauses, and that reading it gives the clauses again, one after the other.
-/

namespace SchemaDiagram.Sql

/-- An expression that is read as a whole: nothing in it ends it. -/
structure Expression (e : Text) : Prop where
  nonempty : e ≠ []
  closed : Closed e
  whole : Scan.start.avoids Scan.stops e

def IsGroup (g : Text) : Prop := ∃ inside, g = '(' :: inside ++ [')'] ∧ Closed inside

def nameList (names : List Text) : Text :=
  '(' :: Text.join [',', ' '] (names.map quoted) ++ [')']

namespace Clause

def keyword : Clause → Keyword
  | primaryKey => .primary
  | notNull => .not
  | unique => .unique
  | autoIncrement => .autoIncrement
  | default _ => .default
  | check _ => .check
  | references _ => .references

def word : Clause → Text
  | primaryKey => Text.ofString "PRIMARY"
  | notNull => Text.ofString "NOT"
  | unique => Text.ofString "UNIQUE"
  | autoIncrement => Text.ofString "AUTO_INCREMENT"
  | default _ => Text.ofString "DEFAULT"
  | check _ => Text.ofString "CHECK"
  | references _ => Text.ofString "REFERENCES"

/-- What stands behind the first word of a clause. -/
def operand : Clause → Text
  | primaryKey => Text.ofString " KEY"
  | notNull => Text.ofString " NULL"
  | unique => []
  | autoIncrement => []
  | default e => ' ' :: e
  | check g => ' ' :: g
  | references r => ' ' :: (quoted r.table ++ ' ' :: nameList r.columns)

/-- A clause that its text says all of. -/
def Writable : Clause → Prop
  | default e => Expression e
  | check g => IsGroup g
  | references r => Quotable r.table ∧ r.columns ≠ [] ∧ (∀ c ∈ r.columns, Quotable c) ∧
      r.onDelete = none ∧ r.onUpdate = none
  | _ => True

theorem ofWord_word (c : Clause) : Token.ofWord c.word = .keyword c.keyword c.word := by
  cases c <;> rfl

theorem isBareWord_word (c : Clause) : isBareWord c.word := by
  cases c <;> rfl

theorem word_mem_clauseWords (c : Clause) : c.word ∈ clauseWords := by
  cases c <;> simp [word, clauseWords]

end Clause

def clauseText (clauses : List Clause) : Text :=
  clauses.flatMap fun c => ' ' :: (c.word ++ c.operand)

theorem clauseText_cons (c : Clause) (cs : List Clause) :
    clauseText (c :: cs) = ' ' :: (c.word ++ (c.operand ++ clauseText cs)) := by
  simp [clauseText]

theorem delimited_clauseText (cs : List Clause) : Delimited (clauseText cs) := by
  cases cs <;> rfl

theorem endsColumnType_clauseText (cs : List Clause) : EndsColumnType (clauseText cs) := by
  cases cs with
  | nil => exact .inl rfl
  | cons c cs => exact .inr ⟨c.word, c.word_mem_clauseWords, _, clauseText_cons c cs⟩

theorem delimited_operand (c : Clause) (cs : List Clause) :
    Delimited (c.operand ++ clauseText cs) := by
  cases c with
  | unique => exact delimited_clauseText cs
  | autoIncrement => exact delimited_clauseText cs
  | _ => rfl

theorem firstToken?_clauseText_cons (c : Clause) (cs : List Clause) :
    firstToken? (clauseText (c :: cs)) =
      some (.keyword c.keyword c.word, c.operand ++ clauseText cs) := by
  rw [clauseText_cons, firstToken?_space,
    firstToken?_word c.isBareWord_word (delimited_operand c cs), c.ofWord_word]

namespace Reader

theorem eat_clauseText {k : Keyword} (hk : ∀ c : Clause, c.keyword ≠ k) (cs : List Clause) :
    eat k (clauseText cs) = (false, clauseText cs) := by
  apply eatIf_false
  intro token rest first
  cases cs with
  | nil => simp [clauseText, firstToken?_eq, gap] at first
  | cons c cs =>
    rw [firstToken?_clauseText_cons] at first
    obtain ⟨rfl, -⟩ := Prod.mk.inj (Option.some_inj.1 first)
    simpa using hk c

theorem clauses_eq (t : Text) :
    clauses t = match firstToken? t with
      | none => []
      | some (token, rest) => (clause? token rest).1.toList ++ clauses (clause? token rest).2 := by
  rw [clauses]
  unfold firstToken?
  split
  · next none => rw [none]; rfl
  · next l rest next => rw [next]; rfl

theorem referentialClauses_eq (t : Text) :
    referentialClauses t = match referentialClause? t with
      | (none, rest) => ([], rest)
      | (some clause, rest) =>
        (clause :: (referentialClauses rest).1, (referentialClauses rest).2) := by
  rw [referentialClauses]
  split
  · next none => rw [none]
  · next some => rw [some]

theorem clauses_congr {x y : Text} (h : firstToken? x = firstToken? y) : clauses x = clauses y := by
  rw [clauses_eq, clauses_eq, h]

theorem expression_append {e rest : Text} (returns : Scan.start.run e = .start)
    (whole : Scan.start.avoids Scan.stops e) (spaced : Spaced rest) :
    Scan.start.expression (e ++ rest) = (e, rest) := by
  have ends : Scan.start.expression rest = ([], rest) := by
    cases rest with
    | nil => rfl
    | cons c rest =>
      have stops : Scan.start.stops c := Scan.stops_of_blank rfl rfl spaced
      rw [Scan.expression, if_pos stops]
  rw [Scan.expression_append_of_avoids whole, returns, ends, List.append_nil]

theorem head_nonblank_of_avoids {e : Text} (whole : Scan.start.avoids Scan.stops e) :
    ∀ c ∈ e.head?, Text.isBlankChar c = false := by
  intro c hc
  obtain ⟨rest, rfl⟩ := List.head?_eq_some_iff.1 hc
  rw [Scan.avoids, Bool.and_eq_true] at whole
  cases blank : Text.isBlankChar c with
  | false => rfl
  | true =>
    rw [Scan.stops_of_blank rfl rfl blank] at whole
    simp at whole

theorem defaultExpression?_spaced {b e rest : Text} (blank : Text.isBlank b) (nonempty : e ≠ [])
    (clear : Clear e) (whole : Scan.start.avoids Scan.stops e) (spaced : Spaced rest) :
    ∃ x, defaultExpression? (b ++ (e ++ rest)) = (some e, x) ∧ (gap x).2 = (gap rest).2 := by
  obtain ⟨c, e', eq⟩ := List.exists_cons_of_ne_nil nonempty
  have nonblank : Text.isBlankChar c = false := head_nonblank_of_avoids whole c (by simp [eq])
  have trimmed : Text.trimStart (b ++ (e ++ rest)) = e ++ rest := by
    rw [trimStart_behind_blank blank]
    exact Text.trimStart_eq_self (by simp [eq, nonblank])
  have blanks : (b ++ (e ++ rest)).takeWhile Text.isBlankChar = b := by
    rw [List.takeWhile_append_of_pos (List.all_eq_true.1 blank), eq, List.cons_append,
      List.takeWhile_cons_of_neg (by simp [nonblank]), List.append_nil]
  have some : e.isEmpty = false := by simp [nonempty]
  -- The expression is bounded by a scan, and tokens are counted off to get past it.
  have splits : Splits (b ++ e) rest := (splits_blank blank).append (clear.splits spaced.delimited)
  have left := splits.skipPast
  rw [List.length_append, List.append_assoc] at left
  refine ⟨_, ?_, left⟩
  rw [defaultExpression?, blanks, trimmed, expression_append clear.balanced.returns whole spaced]
  simp [some]

theorem groupText?_behind_blank {b inside : Text} (blank : Text.isBlank b) (clear : Clear inside)
    (rest : Text) :
    ∃ x, groupText? (b ++ ('(' :: inside ++ [')'] ++ rest)) = (some ('(' :: inside ++ [')']), x) ∧
      (gap x).2 = (gap rest).2 := by
  have text : '(' :: inside ++ [')'] ++ rest = '(' :: (inside ++ ')' :: rest) := by simp
  have delimited : Delimited (')' :: rest) := rfl
  have splits : Splits (inside ++ [')']) rest :=
    (clear.splits delimited).append (.mark rfl rfl (.nil _))
  have left := splits.skipPast
  rw [List.length_append, List.append_assoc] at left
  refine ⟨_, ?_, left⟩
  have opened : firstToken? (b ++ '(' :: (inside ++ ')' :: rest)) =
      some (.opening, inside ++ ')' :: rest) := by
    rw [firstToken?_behind_blank blank, firstToken?_opening]
  rw [text, groupText?, group_closed opened (clear.balanced.closeGroup? _)]
  rfl

theorem spaced_clauseText (cs : List Clause) : Spaced (clauseText cs) := by
  cases cs <;> rfl

theorem defaultExpression?_text {e : Text} (h : Expression e) (cs : List Clause) :
    ∃ x, defaultExpression? (' ' :: (e ++ clauseText cs)) = (some e, x) ∧
      (gap x).2 = (gap (clauseText cs)).2 :=
  defaultExpression?_spaced (b := [' ']) rfl h.nonempty h.closed.clear h.whole
    (spaced_clauseText cs)

theorem groupText?_text {g : Text} (h : IsGroup g) (cs : List Clause) :
    ∃ x, groupText? (' ' :: (g ++ clauseText cs)) = (some g, x) ∧
      (gap x).2 = (gap (clauseText cs)).2 := by
  obtain ⟨inside, rfl, closed⟩ := h
  exact groupText?_behind_blank (b := [' ']) rfl closed.clear _

theorem listItems_eq {t rest : Text} {token : Token} (expectName : Bool)
    (h : firstToken? t = some (token, rest)) (noGroup : token ≠ .opening) :
    listItems expectName t =
      if token = .closing then ([], rest)
      else if token = .comma then listItems true rest
      else
        match expectName, token.asName? with
        | true, some name => (name :: (listItems false rest).1, (listItems false rest).2)
        | expectName, _ => listItems expectName rest := by
  have absent : group t = .absent := by
    refine group_absent fun rest opened => noGroup ?_
    rw [h] at opened
    exact (Prod.mk.inj (Option.some_inj.1 opened)).1
  obtain ⟨⟨l, rest'⟩, next, eq⟩ := Option.map_eq_some_iff.1 h
  obtain ⟨rfl, rfl⟩ := Prod.mk.inj eq
  rw [listItems]
  split
  · next closed => simp [absent] at closed
  · next unclosed => simp [absent] at unclosed
  · split
    · next none => simp [next] at none
    · next l rest some =>
      rw [next] at some
      obtain ⟨rfl, rfl⟩ := Prod.mk.inj (Option.some_inj.1 some)
      rfl

theorem listItems_name (n : Text) {t : Text} (ht : t.head? ≠ some '"') :
    listItems true (quoted n ++ t) = (n :: (listItems false t).1, (listItems false t).2) := by
  rw [listItems_eq true (firstToken?_quoted n ht) (by simp)]
  simp [Token.asName?]

theorem listItems_closing (expectName : Bool) (t : Text) :
    listItems expectName (')' :: t) = ([], t) := by
  rw [listItems_eq expectName (firstToken?_closing t) (by simp), if_pos rfl]

theorem listItems_space {t rest : Text} {token : Token} (expectName : Bool)
    (h : firstToken? t = some (token, rest)) (noGroup : token ≠ .opening) :
    listItems expectName (' ' :: t) = listItems expectName t := by
  rw [listItems_eq expectName h noGroup,
    listItems_eq expectName ((firstToken?_space t).trans h) noGroup]

theorem exists_behind_name (n : Text) (names : List Text) (t : Text) :
    ∃ u, Text.join [',', ' '] ((n :: names).map quoted) ++ ')' :: t = quoted n ++ u ∧
      u.head? ≠ some '"' := by
  cases names with
  | nil => exact ⟨')' :: t, by simp [Text.join], by simp⟩
  | cons m names =>
    refine ⟨',' :: ' ' :: (Text.join [',', ' '] ((m :: names).map quoted) ++ ')' :: t), ?_, by simp⟩
    simp [Text.join, List.intercalate_cons_cons]

theorem listItems_names (names : List Text) (t : Text) :
    listItems true (Text.join [',', ' '] (names.map quoted) ++ ')' :: t) = (names, t) := by
  induction names with
  | nil => exact listItems_closing true t
  | cons n names ih =>
    cases names with
    | nil =>
      rw [List.map_singleton, Text.join, List.intercalate_singleton, listItems_name n (by simp),
        listItems_closing]
    | cons m names =>
      have text : Text.join [',', ' '] ((n :: m :: names).map quoted) ++ ')' :: t =
          quoted n ++ ',' :: ' ' ::
            (Text.join [',', ' '] ((m :: names).map quoted) ++ ')' :: t) := by
        simp [Text.join, List.intercalate_cons_cons]
      -- behind the comma the next token has to be known: a parenthesis would open a group
      obtain ⟨u, eq, hu⟩ := exists_behind_name m names t
      have next : firstToken? (quoted m ++ u) = some (.name m, u) := firstToken?_quoted m hu
      rw [← eq] at next
      rw [text, listItems_name n (by simp), listItems_eq false (firstToken?_comma _) (by simp),
        if_neg (by simp), if_pos rfl, listItems_space true next (by simp), ih]

theorem columnList_nameList (names : List Text) (t : Text) :
    columnList (' ' :: (nameList names ++ t)) = (names, t) := by
  have opened : firstToken? (' ' :: (nameList names ++ t)) =
      some (.opening, Text.join [',', ' '] (names.map quoted) ++ ')' :: t) := by
    rw [firstToken?_space]
    simp [nameList, firstToken?_opening]
  rw [columnList, bind_apply, eatIf_true opened rfl]
  exact listItems_names names t

/-- A target with columns is read back, whatever ON clauses stand behind it. -/
theorem reference?_target {table : Text} {columns : List Text} (some : columns ≠ []) {t rest : Text}
    {actions : List (Trigger × Option ReferentialAction)}
    (read : referentialClauses t = (actions, rest)) :
    reference? (' ' :: (quoted table ++ ' ' :: (nameList columns ++ t))) =
      (.some { table, columns
               onDelete := (actions.filter (·.1 = .delete)).getLast?.bind (·.2)
               onUpdate := (actions.filter (·.1 = .update)).getLast?.bind (·.2) }, rest) := by
  have opened : firstToken? (nameList columns ++ t) =
      .some (.opening, Text.join [',', ' '] (columns.map quoted) ++ ')' :: t) := by
    simp [nameList, firstToken?_opening]
  have named := qualifiedName?_of_name (Spells.quoted table).standsFor opened (by simp)
  refine (bind_of named).trans ((bind_of (columnList_nameList columns t)).trans ?_)
  refine (bind_of read).trans ?_
  simp [pure_apply, some]

theorem reference?_text {r : Reference} (h : (Clause.references r).Writable) (cs : List Clause) :
    reference? ((Clause.references r).operand ++ clauseText cs) = (some r, clauseText cs) := by
  obtain ⟨table, columns, onDelete, onUpdate⟩ := r
  obtain ⟨-, some, -, rfl, rfl⟩ := h
  have text : (Clause.references ⟨table, columns, none, none⟩).operand ++ clauseText cs =
      ' ' :: (quoted table ++ ' ' :: (nameList columns ++ clauseText cs)) := by
    simp [Clause.operand]
  have noClause : referentialClause? (clauseText cs) = (none, clauseText cs) :=
    bind_of (eat_clauseText (by intro c; cases c <;> simp [Clause.keyword]) cs)
  have noClauses : referentialClauses (clauseText cs) = ([], clauseText cs) := by
    rw [referentialClauses_eq, noClause]
  rw [text]
  exact reference?_target some noClauses

theorem clause?_operand {c : Clause} (h : c.Writable) (cs : List Clause) :
    ∃ x, clause? (.keyword c.keyword c.word) (c.operand ++ clauseText cs) = (some c, x) ∧
      (gap x).2 = (gap (clauseText cs)).2 := by
  have delimited := delimited_clauseText cs
  cases c with
  | primaryKey =>
    have key : eat .key (Text.ofString " KEY" ++ clauseText cs) = (true, clauseText cs) :=
      eat_word (w := Text.ofString "KEY") rfl rfl delimited
    exact ⟨_, bind_of key, rfl⟩
  | notNull =>
    have null : eat .null (Text.ofString " NULL" ++ clauseText cs) = (true, clauseText cs) :=
      eat_word (w := Text.ofString "NULL") rfl rfl delimited
    exact ⟨_, bind_of null, rfl⟩
  | unique =>
    have key : eat .key (clauseText cs) = (false, clauseText cs) :=
      eat_clauseText (by intro c; cases c <;> simp [Clause.keyword]) cs
    exact ⟨_, bind_of key, rfl⟩
  | autoIncrement => exact ⟨_, rfl, rfl⟩
  | default e =>
    obtain ⟨x, read, same⟩ := defaultExpression?_text h cs
    exact ⟨x, bind_of read, same⟩
  | check g =>
    obtain ⟨x, read, same⟩ := groupText?_text h cs
    exact ⟨x, bind_of read, same⟩
  | references r => exact ⟨_, bind_of (reference?_text h cs), rfl⟩

theorem clauses_clauseText {cs : List Clause} (h : ∀ c ∈ cs, c.Writable) :
    clauses (clauseText cs) = cs := by
  induction cs with
  | nil => rw [clauses_eq]; rfl
  | cons c cs ih =>
    rw [List.forall_mem_cons] at h
    obtain ⟨x, read, same⟩ := clause?_operand h.1 cs
    rw [clauses_eq, firstToken?_clauseText_cons]
    dsimp only
    rw [read, clauses_congr (firstToken?_congr same), ih h.2]
    rfl

end Reader

theorem Expression.inline {e b : Text} (h : Expression e) (hb : Delimited b) : Inline e b :=
  ⟨h.closed.standalone hb, Scan.avoids_cuts_of_stops h.whole⟩

theorem IsGroup.inline {g : Text} (h : IsGroup g) (b : Text) : Inline g b := by
  obtain ⟨inside, rfl, closed⟩ := h
  have delimited : Delimited (')' :: b) := rfl
  exact .group (closed.standalone delimited)

theorem inline_nameList {names : List Text} (h : ∀ n ∈ names, Quotable n) (b : Text) :
    Inline (nameList names) b := by
  have delimited : Delimited (')' :: b) := rfl
  refine .group (.join ?_ delimited)
  intro p hp b hb
  obtain ⟨n, hn, rfl⟩ := List.mem_map.1 hp
  exact ((h n hn).inline hb).toStandalone

theorem Clause.inline_operand {c : Clause} (h : c.Writable) {b : Text} (hb : Delimited b) :
    Inline c.operand b := by
  cases c with
  | primaryKey => exact inline_of_harmless (by decide +kernel) hb
  | notNull => exact inline_of_harmless (by decide +kernel) hb
  | unique => exact .nil b
  | autoIncrement => exact .nil b
  | default e => exact (Expression.inline h hb).cons_space
  | check g => exact (IsGroup.inline h b).cons_space
  | references r =>
    obtain ⟨table, -, columns, -⟩ := h
    exact .cons_space (.append (table.inline rfl) (inline_nameList columns b).cons_space)

theorem inline_clauseText {cs : List Clause} (h : ∀ c ∈ cs, c.Writable) {b : Text}
    (hb : Delimited b) : Inline (clauseText cs) b := by
  induction cs with
  | nil => exact .nil b
  | cons c cs ih =>
    rw [List.forall_mem_cons] at h
    have behind : Delimited (clauseText cs ++ b) := by
      cases cs with
      | nil => exact hb
      | cons d cs => rfl
    have operand := c.inline_operand h.1 behind
    have word : Inline c.word (c.operand ++ (clauseText cs ++ b)) := by
      refine inline_of_isNameChar (isNameChar_of_isBareWord c.isBareWord_word) ?_
      cases c with
      | unique => exact behind
      | autoIncrement => exact behind
      | _ => rfl
    exact .append (word.append operand).cons_space (ih h.2)

end SchemaDiagram.Sql
