import SchemaDiagram.Proofs.Sql.ClauseLocality
import SchemaDiagram.Proofs.Sql.LetterCase.Schemas
import SchemaDiagram.Proofs.Sql.LetterCase.Tokens

/-!
# Readers and letter case

From a text in lower case a reader takes what it takes from the text itself, in lower case, and it
leaves the same rest, in lower case. This holds of the readers of single tokens and passes on to
every reader that is put together from them.
-/

namespace SchemaDiagram.Sql

open Text (lower)

namespace Reader

variable {α β γ δ : Type}

/-- On text in lower case, `r'` takes `fold` of what `r` takes and leaves the same. -/
def Folds (fold : α → β) (r : Reader α) (r' : Reader β) : Prop :=
  ∀ t, r' (lower t) = Prod.map fold lower (r t)

variable {f : α → β} {g : γ → δ}

theorem Folds.pure (a : α) : Folds f (Pure.pure a) (Pure.pure (f a)) := fun _ => rfl

theorem Folds.bind {r : Reader α} {r' : Reader β} {k : α → Reader γ} {k' : β → Reader δ}
    (h : Folds f r r') (continues : ∀ a, Folds g (k a) (k' (f a))) :
    Folds g (r >>= k) (r' >>= k') := by
  intro t
  rw [bind_apply, h t, bind_apply]
  exact continues (r t).1 (r t).2

theorem Folds.take? {accept : Token → Option α} {accept' : Token → Option β}
    (h : ∀ token, accept' token.lowered = (accept token).map f) :
    Folds (Option.map f) (take? accept) (take? accept') := by
  intro t
  rw [take?_eq, take?_eq, firstToken?_lower]
  rcases firstToken? t with _ | ⟨token, rest⟩
  · rfl
  · simp only [Option.map_some, Prod.map, h]
    cases accept token <;> rfl

theorem Folds.eatIf {test : Token → Bool} (h : ∀ token, test token.lowered = test token) :
    Folds id (eatIf test) (eatIf test) := by
  refine .bind (f := Option.map id) (.take? fun token => ?_) fun taken => ?_
  · rw [h]
    split <;> rfl
  · cases taken <;> exact .pure _

theorem Folds.eat (k : Keyword) : Folds id (eat k) (eat k) :=
  .eatIf fun token => by cases token <;> rfl

theorem Folds.eatWord (word : Text) : Folds id (eatWord word) (eatWord word) :=
  .eatIf (Token.isWord_lowered word)

theorem Folds.name? : Folds (Option.map lower) name? name? :=
  .take? Token.asName?_lowered

theorem Folds.skipWords (words : List Text) : Folds id (skipWords words) (skipWords words) := by
  intro t
  fun_induction Reader.skipWords words t with
  | case1 t ended =>
    rw [skipWords_eq, firstToken?_lower_of_end ended]
    rfl
  | case2 t l rest next known ih =>
    rw [skipWords_eq, firstToken?_lower_of_next? next]
    simp only [Token.isWord_lowered, if_pos known]
    exact ih
  | case3 t l rest next other =>
    rw [skipWords_eq, firstToken?_lower_of_next? next]
    simp only [Token.isWord_lowered, if_neg other]
    rfl

def Group.lowered : Group → Group
  | absent => absent
  | unclosed behind => unclosed (lower behind)
  | closed inside behind => closed (lower inside) (lower behind)

theorem group_lower (t : Text) : group (lower t) = (group t).lowered := by
  rw [group, next?_lower, group]
  rcases next? t with _ | ⟨⟨before, token, raw⟩, rest⟩
  · rfl
  · cases token with
    | opening =>
      simp only [Option.map_some, Prod.map, Lexeme.lowered, Token.lowered, closeGroup?_lower]
      rcases closeGroup? rest with _ | ⟨inside, behind⟩
      · rfl
      · simp only [Option.map_some, Prod.map, Text.length_lower, skipPast_lower]
        rfl
    | _ => rfl

theorem Folds.groupText? : Folds (Option.map lower) groupText? groupText? := by
  intro t
  rw [Reader.groupText?, group_lower, Reader.groupText?]
  cases group t with
  | absent => rfl
  | unclosed => rfl
  | closed => simp [Group.lowered]

theorem Folds.skipGroup : Folds id skipGroup skipGroup :=
  .bind .groupText? fun _ => .pure _

theorem Folds.qualifiedName? :
    Folds (Option.map (Prod.map (Option.map lower) lower)) qualifiedName? qualifiedName? := by
  refine .bind .name? fun first => ?_
  cases first
  · exact .pure _
  · refine .bind (.eatIf fun token => ?_) fun dotted => ?_
    · cases token <;> rfl
    · cases dotted
      · exact .pure _
      · refine .bind .name? fun second => ?_
        cases second <;> exact .pure _

theorem listItems_of_unclosed {t behind : Text} (h : group t = .unclosed behind)
    (expectName : Bool) : listItems expectName t = ([], []) := by
  rw [listItems]
  split
  · next closed => simp [h] at closed
  · rfl
  · next absent => simp [h] at absent

theorem listItems_lower_eq {t rest : Text} {l : Lexeme} (absent : group t = .absent)
    (next : next? t = some (l, rest)) (expectName : Bool) :
    listItems expectName (lower t) =
      if l.token = .closing then ([], lower rest)
      else if l.token = .comma then listItems true (lower rest)
      else
        match expectName, l.token.asName? with
        | true, some name =>
          (lower name :: (listItems false (lower rest)).1, (listItems false (lower rest)).2)
        | expectName, _ => listItems expectName (lower rest) := by
  have first : firstToken? t = some (l.token, rest) := by
    rw [firstToken?, next]
    rfl
  -- Groups are read first, so a token that is read where none is opens none.
  have noGroup : l.token.lowered ≠ .opening := by
    intro opening
    have opening : l.token = .opening := (Token.lowered_eq_iff (by simp)).1 opening
    exact group_ne_absent (opening ▸ first) absent
  rw [listItems_eq expectName (firstToken?_lower_of_next? next) noGroup, Token.asName?_lowered]
  simp only [Token.lowered_eq_iff, List.mem_cons, true_or, or_true]
  cases expectName <;> cases l.token.asName? <;> rfl

theorem Folds.listItems (expectName : Bool) :
    Folds (List.map lower) (listItems expectName) (listItems expectName) := by
  intro t
  fun_induction Reader.listItems expectName t with
  | case1 expectName t inside behind closed ih =>
    have closed' : group (lower t) = .closed (lower inside) (lower behind) := by
      rw [group_lower, closed]
      rfl
    rw [listItems_of_closed closed', ih]
  | case2 expectName t behind unclosed =>
    have unclosed' : group (lower t) = .unclosed (lower behind) := by
      rw [group_lower, unclosed]
      rfl
    rw [listItems_of_unclosed unclosed']
    rfl
  | case3 expectName t absent ended =>
    rw [listItems_of_end (firstToken?_lower_of_end ended)]
    rfl
  | case4 expectName t absent l rest next closing =>
    rw [listItems_lower_eq absent next, if_pos closing]
    rfl
  | case5 expectName t absent l rest next notClosing comma ih =>
    rw [listItems_lower_eq absent next, if_neg notClosing, if_pos comma, ih]
  | case6 t absent l rest next notClosing notComma name named others left items ih =>
    rw [listItems_lower_eq absent next, if_neg notClosing, if_neg notComma, named]
    simp only [ih, items]
    rfl
  | case7 t absent l rest next notClosing notComma expectName unnamed ih =>
    rw [listItems_lower_eq absent next, if_neg notClosing, if_neg notComma]
    split
    · next name named => exact (unnamed name rfl named).elim
    · exact ih

theorem Folds.columnList : Folds (List.map lower) columnList columnList := by
  refine .bind (.eatIf fun token => ?_) fun opened => ?_
  · cases token <;> rfl
  · cases opened
    · exact .pure _
    · exact .listItems true

theorem Folds.referentialAction? : Folds id referentialAction? referentialAction? := by
  refine .bind (.eatWord _) fun cascades => ?_
  cases cascades
  · refine .bind (.eatWord _) fun restricts => ?_
    cases restricts
    · refine .bind (.eatWord _) fun sets => ?_
      cases sets
      · refine .bind (.eatWord _) fun refuses => ?_
        cases refuses
        · exact .pure _
        · exact .bind (.eatWord _) fun _ => .pure _
      · refine .bind (.eat _) fun null => ?_
        cases null
        · refine .bind (.eat _) fun default => ?_
          cases default <;> exact .pure _
        · exact .pure _
    · exact .pure _
  · exact .pure _

theorem Folds.triggeredAction? : Folds id triggeredAction? triggeredAction? := by
  refine .bind (.eat _) fun deletes => ?_
  cases deletes
  · refine .bind (.eat _) fun updates => ?_
    cases updates
    · exact .pure _
    · exact .bind .referentialAction? fun _ => .pure _
  · exact .bind .referentialAction? fun _ => .pure _

theorem Folds.referentialClause? : Folds id referentialClause? referentialClause? := by
  refine .bind (.eat _) fun found => ?_
  cases found
  · exact .pure _
  · exact .triggeredAction?

theorem Folds.referentialClauses : Folds id referentialClauses referentialClauses := by
  intro t
  fun_induction Reader.referentialClauses t with
  | case1 t rest ended =>
    rw [referentialClauses_eq, Folds.referentialClause? t, ended]
    rfl
  | case2 t clause rest found others left behind ih =>
    rw [referentialClauses_eq, Folds.referentialClause? t, found]
    simp only [Prod.map, id, ih, behind]

end Reader

def Reference.lowered (r : Reference) : Reference :=
  { r with table := lower r.table, columns := r.columns.map lower }

def Clause.lowered : Clause → Clause
  | default expression => default (lower expression)
  | check group => check (lower group)
  | references target => references target.lowered
  | clause => clause

namespace Reader

theorem Folds.reference? : Folds (Option.map Reference.lowered) reference? reference? := by
  refine .bind .qualifiedName? fun name => ?_
  cases name
  · exact .pure _
  · refine .bind .columnList fun columns => .bind .referentialClauses fun clauses => ?_
    cases columns <;> exact .pure _

theorem Folds.defaultExpression? :
    Folds (Option.map lower) defaultExpression? defaultExpression? := by
  intro t
  have expression : (Scan.start.expression (lower t.trimStart)).1 =
      lower (Scan.start.expression t.trimStart).1 := by
    rw [Scan.expression_lower Scan.inQuotes_start]
    rfl
  simp only [Reader.defaultExpression?, Text.takeWhile_lower Text.isBlankChar_toLower,
    Text.trimStart_lower, expression, Text.length_lower, Text.isEmpty_lower, skipPast_lower,
    Prod.map]
  split <;> rfl

theorem Folds.identity : Folds id identity identity := by
  refine .bind (.eatWord _) fun always => ?_
  cases always
  · refine .bind (.eatWord _) fun choice => ?_
    cases choice
    · exact .bind (.eatWord _) fun _ => .bind (.eat _) fun _ => .bind .skipGroup fun _ => .pure _
    · refine .bind (.eat _) fun _ => .bind (.eatWord _) fun _ => .bind (.eat _) fun _ => ?_
      exact .bind .skipGroup fun _ => .pure _
  · exact .bind (.eatWord _) fun _ => .bind (.eat _) fun _ => .bind .skipGroup fun _ => .pure _

theorem Folds.clause? (token : Token) :
    Folds (Option.map Clause.lowered) (clause? token) (clause? token.lowered) := by
  cases token with
  | keyword k spelled =>
    cases k with
    | primary => exact .bind (.eat _) fun _ => .pure _
    | not =>
      refine .bind (.eat _) fun null => ?_
      cases null <;> exact .pure _
    | unique => exact .bind (.eat _) fun _ => .pure _
    | default =>
      refine .bind .defaultExpression? fun expression => ?_
      cases expression <;> exact .pure _
    | check =>
      refine .bind .groupText? fun group => ?_
      cases group <;> exact .pure _
    | references =>
      refine .bind .reference? fun target => ?_
      cases target <;> exact .pure _
    | autoIncrement => exact .pure _
    | identity => exact .bind .skipGroup fun _ => .pure _
    | generated =>
      refine .bind .identity fun isIdentity => ?_
      cases isIdentity <;> exact .pure _
    | constraint =>
      refine .bind (f := Option.map id) (.take? fun token => ?_) fun _ => .pure _
      cases token <;> rfl
    | _ => exact .pure _
  | _ => exact .pure _

theorem clauses_lower (t : Text) : clauses (lower t) = (clauses t).map Clause.lowered := by
  fun_induction clauses t with
  | case1 t ended =>
    rw [clauses_eq, firstToken?_lower_of_end ended]
    rfl
  | case2 t l rest next taken ih =>
    rw [clauses_eq, firstToken?_lower_of_next? next]
    simp only [Folds.clause? l.token rest, Prod.map, List.map_append]
    rw [ih]
    cases taken.1 <;> rfl

theorem Folds.constraintName? :
    Folds (Option.map lower) tableConstraint?.constraintName? tableConstraint?.constraintName? := by
  refine .take? fun token => ?_
  cases token with
  | keyword k spelled => cases k <;> rfl
  | _ => rfl

theorem Folds.advanceToGroup : Folds id advanceToGroup advanceToGroup := by
  refine .bind (.eatIf fun token => ?_) fun _ => .pure _
  cases token <;> rfl

theorem Folds.constraintBody? (name : Option Text) :
    Folds (Option.map Constraint.lowered) (tableConstraint?.constraintBody? name)
      (tableConstraint?.constraintBody? (name.map lower)) := by
  refine .bind (.eat _) fun primary => ?_
  cases primary
  · refine .bind (.eat _) fun unique => ?_
    cases unique
    · refine .bind (.eat _) fun foreign => ?_
      cases foreign
      · refine .bind (.eat _) fun check => ?_
        cases check
        · exact .pure _
        · refine .bind .groupText? fun group => ?_
          cases group <;> exact .pure _
      · refine .bind (.eat _) fun _ => .bind .advanceToGroup fun _ => ?_
        refine .bind .columnList fun columns => ?_
        cases columns
        · exact .pure _
        · refine .bind (.eat _) fun references => ?_
          cases references
          · exact .pure _
          · refine .bind .reference? fun target => ?_
            cases target <;> exact .pure _
    · refine .bind (.eat _) fun key => ?_
      cases key
      · refine .bind (.eat _) fun _ => .bind .advanceToGroup fun _ => ?_
        refine .bind .columnList fun columns => ?_
        cases columns <;> exact .pure _
      · refine .bind .advanceToGroup fun _ => .bind .columnList fun columns => ?_
        cases columns <;> exact .pure _
  · refine .bind (.eat _) fun _ => .bind .columnList fun columns => ?_
    cases columns <;> exact .pure _

theorem Folds.tableConstraint? :
    Folds (Option.map Constraint.lowered) tableConstraint? tableConstraint? := by
  refine .bind (.eat _) fun named => ?_
  cases named
  · exact .bind (f := Option.map lower) (.pure none) .constraintBody?
  · exact .bind .constraintName? .constraintBody?

end Reader

end SchemaDiagram.Sql
