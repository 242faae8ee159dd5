import SchemaDiagram.Proofs.Sql.Reading

/-!
# Statements that are read back

A table is created by its name and its body in parentheses, and a clause is added to it under its
name. Whatever stands in the body or in the clause, as long as it stands alone there, is taken as it
is.
-/

namespace SchemaDiagram.Sql

def createText (n body : Text) : Text :=
  Text.ofString "CREATE TABLE " ++ n ++ Text.ofString " (" ++ body ++ Text.ofString ");"

def addText (n clause : Text) : Text :=
  Text.ofString "ALTER TABLE " ++ n ++ Text.ofString " ADD " ++ clause ++ Text.ofString ";"

theorem createText_append (n body rest : Text) :
    createText n body ++ rest = Text.ofString "CREATE" ++ ' ' :: (Text.ofString "TABLE" ++
      ' ' :: (n ++ ' ' :: '(' :: (body ++ ')' :: ';' :: rest))) := by
  simp only [createText, List.append_assoc]
  rfl

theorem addText_append (n clause rest : Text) :
    addText n clause ++ rest = Text.ofString "ALTER" ++ ' ' :: (Text.ofString "TABLE" ++
      ' ' :: (n ++ ' ' :: (Text.ofString "ADD" ++ ' ' :: (clause ++ ';' :: rest)))) := by
  simp only [addText, List.append_assoc]
  rfl

variable {n name body clause : Text}

theorem unifyLineEnds_doubledBy (name : Text) :
    unifyLineEnds (doubledBy '"' name) = doubledBy '"' (unifyLineEnds name) := by
  fun_induction unifyLineEnds name with
  | case1 rest ih => exact congrArg ('\n' :: ·) ih
  | case2 c rest other ih =>
    rw [doubledBy_cons, doubledBy_cons, ← ih]
    by_cases quote : c = '"'
    · rw [if_pos quote]
      exact unifyLineEnds_append (by decide) _
    · rw [if_neg quote, List.singleton_append, List.singleton_append, unifyLineEnds]
      rintro rest' rfl eq
      have lineEnd : rest.head? = some '\n' := by rw [← head?_doubledBy '"', eq]; rfl
      obtain ⟨rest', rfl⟩ := List.head?_eq_some_iff.1 lineEnd
      exact other rest' rfl rfl
  | case3 => rfl

theorem Spells.unifyLineEnds (h : Spells n name) :
    Spells (unifyLineEnds n) (unifyLineEnds name) := by
  cases h with
  | word bare spells =>
    have noReturn : '\r' ∉ n := fun mem =>
      absurd (isNameChar_of_isBareWord bare _ mem) (by decide)
    rw [unifyLineEnds_of_not_mem noReturn]
    exact .word bare spells
  | quoted =>
    have text : Sql.unifyLineEnds (Sql.quoted name) = Sql.quoted (Sql.unifyLineEnds name) := by
      rw [Sql.quoted, Quoting.write, unifyLineEnds_append_of_head (by simp [Quoting.closing])]
      exact congrArg ('"' :: · ++ ['"']) (unifyLineEnds_doubledBy name)
    rw [text]
    exact .quoted _

theorem Spells.clean (h : Spells n name) (noBackslash : '\\' ∉ name) : Clean n := by
  cases h with
  | word bare =>
    have names := isNameChar_of_isBareWord bare
    exact (closed_of_harmless fun c hc => harmless_of_isNameChar (names c hc)).clean
  | quoted =>
    exact ⟨Scan.commentFree_quoted noBackslash, by rw [Scan.start, Scan.run_quoted noBackslash]⟩

/-- Between words of its own and a blank, a name stays clean, and line ends are unified in it as
they are in the name alone. -/
theorem Clean.named {front behind : Text} (hf : ∀ c ∈ front, c ∉ ['\'', '"', '-', '/'])
    (hn : Clean n) (blank : behind.head? = some ' ') (hb : Clean behind) :
    Clean (front ++ (n ++ behind)) :=
  .behind hf (hn.append hb (by simp [blank]) (by simp [blank]))

theorem unifyLineEnds_named {front behind : Text} (hf : '\r' ∉ front) (hb : '\r' ∉ behind)
    (blank : behind.head? = some ' ') (n rest : Text) :
    unifyLineEnds (front ++ (n ++ (behind ++ rest))) =
      front ++ (unifyLineEnds n ++ (behind ++ unifyLineEnds rest)) := by
  have noLineEnd : (behind ++ rest).head? ≠ some '\n' := by simp [blank]
  rw [unifyLineEnds_append hf, unifyLineEnds_append_of_head noLineEnd, unifyLineEnds_append hb]

theorem createText_eq (n body rest : Text) :
    createText n body ++ rest = Text.ofString "CREATE TABLE " ++
      (n ++ (Text.ofString " (" ++ (body ++ Text.ofString ");") ++ rest)) := by
  simp only [createText, List.append_assoc]

theorem addText_eq (n clause rest : Text) :
    addText n clause ++ rest = Text.ofString "ALTER TABLE " ++
      (n ++ (Text.ofString " ADD " ++ (clause ++ Text.ofString ";") ++ rest)) := by
  simp only [addText, List.append_assoc]

theorem Clean.createText {rest : Text} (hn : Clean n) (hb : Clean body) (hr : Clean rest) :
    Clean (createText n body ++ rest) := by
  have closing : Clean (Text.ofString ");" ++ rest) := hr.behind (by decide)
  have inside := hb.append closing (by simp [Text.ofString]) (by simp [Text.ofString])
  rw [createText_eq]
  refine hn.named (by decide) rfl ?_
  rw [List.append_assoc, List.append_assoc]
  exact inside.behind (by decide)

theorem Clean.addText {rest : Text} (hn : Clean n) (hc : Clean clause) (hr : Clean rest) :
    Clean (addText n clause ++ rest) := by
  have closing : Clean (Text.ofString ";" ++ rest) := hr.behind (by decide)
  have added := hc.append closing (by simp [Text.ofString]) (by simp [Text.ofString])
  rw [addText_eq]
  refine hn.named (by decide) rfl ?_
  rw [List.append_assoc, List.append_assoc]
  exact added.behind (by decide)

theorem unifyLineEnds_createText (noReturn : '\r' ∉ body) (n rest : Text) :
    unifyLineEnds (createText n body ++ rest) =
      createText (unifyLineEnds n) body ++ unifyLineEnds rest := by
  have behind : '\r' ∉ Text.ofString " (" ++ (body ++ Text.ofString ");") := by
    simp [noReturn, Text.ofString]
  rw [createText_eq, unifyLineEnds_named (by decide) behind rfl, createText_eq]

theorem unifyLineEnds_addText (noReturn : '\r' ∉ clause) (n rest : Text) :
    unifyLineEnds (addText n clause ++ rest) =
      addText (unifyLineEnds n) clause ++ unifyLineEnds rest := by
  have behind : '\r' ∉ Text.ofString " ADD " ++ (clause ++ Text.ofString ";") := by
    simp [noReturn, Text.ofString]
  rw [addText_eq, unifyLineEnds_named (by decide) behind rfl, addText_eq]

namespace Reader

/-- A new table is read with its body. The body is bounded by a scan, and tokens are counted off to
get past it. -/
theorem newTable?_balanced (h : StandsFor n name) (balanced : Balanced body) (rest : Text) :
    newTable? (' ' :: (n ++ ' ' :: '(' :: (body ++ ')' :: rest))) =
      (some (.create (.ofBody name none body)),
        skipPast (body.length + 1) (body ++ ')' :: rest)) := by
  have opened : firstToken? ('(' :: (body ++ ')' :: rest)) = some (.opening, body ++ ')' :: rest) :=
    firstToken?_opening _
  have name := qualifiedName?_of_name h opened (by simp)
  have closed := balanced.closeGroup? rest
  have group := group_closed ((firstToken?_space _).trans opened) closed
  have inside : groupInside? (' ' :: '(' :: (body ++ ')' :: rest)) =
      (some body, skipPast (body.length + 1) (body ++ ')' :: rest)) := by
    unfold groupInside?
    rw [group]
  exact (bind_of name).trans (bind_of inside)

theorem createTable?_name (h : StandsFor n name) (t : Text) :
    createTable? (' ' :: (Text.ofString "TABLE" ++ ' ' :: (n ++ ' ' :: t))) =
      newTable? (' ' :: (n ++ ' ' :: t)) := by
  have noIf : eat .ifWord (' ' :: (n ++ ' ' :: t)) = (false, ' ' :: (n ++ ' ' :: t)) :=
    eat_of_name h _
  generalize new : ' ' :: (n ++ ' ' :: t) = behind at noIf
  have delimited : Delimited behind := by rw [← new]; rfl
  have table : firstToken? (' ' :: (Text.ofString "TABLE" ++ behind)) =
      some (.keyword .table (Text.ofString "TABLE"), behind) := by
    rw [firstToken?_space, firstToken?_word (w := Text.ofString "TABLE") rfl delimited]
    rfl
  refine (bind_of (skipWords_of_keyword table)).trans ((bind_of (eat_true table)).trans ?_)
  exact bind_of noIf

/-- A statement with any balanced body creates a table of that body. What is read next stands behind
the tokens of the body. -/
theorem statements_createBody (h : StandsFor n name) (balanced : Balanced body) (rest : Text) :
    statements (createText n body ++ rest) =
      .create (.ofBody name none body) ::
        statements (skipPast (body.length + 1) (body ++ ')' :: ';' :: rest)) := by
  have first := firstToken?_word (w := Text.ofString "CREATE") rfl (b := ' ' ::
    (Text.ofString "TABLE" ++ ' ' :: (n ++ ' ' :: '(' :: (body ++ ')' :: ';' :: rest)))) rfl
  have created : statement? (.ofWord (Text.ofString "CREATE")) = createTable? := rfl
  rw [createText_append, statements_eq, first]
  dsimp only
  rw [created, createTable?_name h, newTable?_balanced h balanced]
  rfl

theorem statements_behindBody {rest : Text} (splits : Splits body (')' :: ';' :: rest)) :
    statements (skipPast (body.length + 1) (body ++ ')' :: ';' :: rest)) =
      statements (';' :: rest) := by
  have left := (splits.append (b := [')']) (.mark rfl rfl (.nil _))).skipPast
  rw [List.length_append, List.append_assoc] at left
  exact statements_congr left

theorem statements_createText (h : StandsFor n name) {rest : Text}
    (alone : Standalone body (')' :: ';' :: rest)) :
    statements (createText n body ++ rest) =
      .create (.ofBody name none body) :: statements (';' :: rest) := by
  rw [statements_createBody h alone.balanced, statements_behindBody alone.splits]

theorem statementRest_text {rest : Text} (alone : Standalone clause (';' :: rest))
    (unended : Scan.start.avoids Scan.ends clause) :
    ∃ x, statementRest (' ' :: (clause ++ ';' :: rest)) = (' ' :: clause, x) ∧
      (gap x).2 = (gap (';' :: rest)).2 := by
  have bounded : (Scan.start.statement (' ' :: (clause ++ ';' :: rest))).1 = ' ' :: clause := by
    have stop : (Scan.start.statement (';' :: rest)).1 = [] := rfl
    have cut := Scan.statement_append_of_avoids unended (';' :: rest)
    rw [alone.balanced.returns] at cut
    change ' ' :: (Scan.start.statement (clause ++ ';' :: rest)).1 = ' ' :: clause
    rw [cut, stop, List.append_nil]
  have splits : Splits (' ' :: clause) (';' :: rest) := .gap rfl alone.splits
  refine ⟨_, ?_, splits.skipPast⟩
  unfold statementRest
  rw [bounded]
  rfl

theorem addition?_text (h : StandsFor n name) {rest : Text}
    (alone : Standalone clause (';' :: rest)) (unended : Scan.start.avoids Scan.ends clause) :
    ∃ x, addition? (' ' :: (n ++ ' ' :: (Text.ofString "ADD" ++ ' ' :: (clause ++ ';' :: rest)))) =
        (some (.add name (' ' :: clause)), x) ∧
      (gap x).2 = (gap (';' :: rest)).2 := by
  obtain ⟨x, read, left⟩ := statementRest_text alone unended
  have add : firstToken? (Text.ofString "ADD" ++ ' ' :: (clause ++ ';' :: rest)) =
      some (.keyword .add (Text.ofString "ADD"), ' ' :: (clause ++ ';' :: rest)) := by
    rw [firstToken?_word (w := Text.ofString "ADD") rfl (b := ' ' :: _) rfl]
    rfl
  have name := qualifiedName?_of_name h add (by simp)
  refine ⟨x, ?_, left⟩
  refine (bind_of (eat_of_name h _)).trans ((bind_of name).trans ?_)
  exact (bind_of (eat_true ((firstToken?_space _).trans add))).trans (bind_of read)

theorem alterTable?_text (h : StandsFor n name) {rest : Text}
    (alone : Standalone clause (';' :: rest)) (unended : Scan.start.avoids Scan.ends clause) :
    ∃ x, alterTable? (' ' :: (Text.ofString "TABLE" ++ ' ' :: (n ++ ' ' :: (Text.ofString "ADD" ++
        ' ' :: (clause ++ ';' :: rest))))) = (some (.add name (' ' :: clause)), x) ∧
      (gap x).2 = (gap (';' :: rest)).2 := by
  obtain ⟨x, read, left⟩ := addition?_text h alone unended
  have noOnly := eat_of_name (k := .only) h (Text.ofString "ADD" ++ ' ' :: (clause ++ ';' :: rest))
  have noIf := eat_of_name (k := .ifWord) h (Text.ofString "ADD" ++ ' ' :: (clause ++ ';' :: rest))
  generalize added : ' ' :: (n ++ ' ' :: (Text.ofString "ADD" ++ ' ' :: (clause ++ ';' :: rest))) =
    behind at read noOnly noIf
  have delimited : Delimited behind := by rw [← added]; rfl
  have table : eat .table (' ' :: (Text.ofString "TABLE" ++ behind)) = (true, behind) :=
    eat_word (w := Text.ofString "TABLE") rfl rfl delimited
  refine ⟨x, ?_, left⟩
  refine (bind_of table).trans ((bind_of noOnly).trans ?_)
  exact (bind_of noIf).trans read

theorem statements_addText (h : StandsFor n name) {rest : Text}
    (alone : Standalone clause (';' :: rest)) (unended : Scan.start.avoids Scan.ends clause) :
    statements (addText n clause ++ rest) =
      .add name (' ' :: clause) :: statements (';' :: rest) := by
  obtain ⟨x, read, left⟩ := alterTable?_text h alone unended
  have first := firstToken?_word (w := Text.ofString "ALTER") rfl (b := ' ' ::
    (Text.ofString "TABLE" ++ ' ' :: (n ++ ' ' :: (Text.ofString "ADD" ++ ' ' ::
      (clause ++ ';' :: rest))))) rfl
  have altered : statement? (.ofWord (Text.ofString "ALTER")) = alterTable? := rfl
  rw [addText_append, statements_eq, first]
  dsimp only
  rw [altered, read, statements_congr left]
  rfl

end Reader

end SchemaDiagram.Sql
