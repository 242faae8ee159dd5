import SchemaDiagram.Proofs.Sql.Checked.Lists

/-!
# Clauses by offsets

What stands behind the type of a column, and the constraints of a table, read by walks. A default
is captured from the offset behind its keyword, and a check from the offset of its parenthesis.
-/

namespace SchemaDiagram.Sql.Checked.Walk

def referentialAction? : Walk (Option ReferentialAction) := do
  if ← eatWord (Text.ofString "CASCADE") then return some .cascade
  if ← eatWord (Text.ofString "RESTRICT") then return some .restrict
  if ← eatWord (Text.ofString "SET") then
    if ← eat .null then return some .setNull
    if ← eat .default then return some .setDefault
    return none
  if ← eatWord (Text.ofString "NO") then
    let _ ← eatWord (Text.ofString "ACTION")
    return some .noAction
  return none

def triggeredAction? : Walk (Option (Trigger × Option ReferentialAction)) := do
  if ← eat .delete then return some (.delete, ← referentialAction?)
  if ← eat .update then return some (.update, ← referentialAction?)
  return none

def referentialClause? : Walk (Option (Trigger × Option ReferentialAction)) := do
  if ← eat .on then triggeredAction? else return none

abbrev Actions : Type := Option ReferentialAction × Option ReferentialAction

def Actions.answer (actions : Actions) : Trigger × Option ReferentialAction → Actions
  | (.delete, action) => (action, actions.2)
  | (.update, action) => (actions.1, action)

def actionRound (actions : Actions) : Walk (Actions ⊕ Actions) := do
  match ← referentialClause? with
  | some clause => return .inl (actions.answer clause)
  | none => return .inr actions

/-- What follows REFERENCES. -/
def reference? : Walk (Option Reference) := do
  let some (_, table) ← qualifiedName? | return none
  let columns ← columnList
  let actions ← loop actionRound (none, none)
  return some {
    table
    columns := if columns.isEmpty then [implicitColumn] else columns
    onDelete := actions.1
    onUpdate := actions.2 }

def defaultExpression? (offset : Nat) : Walk (Option Text) := do
  let (expression, stop) ← lookup (captureExpression · offset)
  skipTo stop
  return if expression.isEmpty then none else some expression

/-- What follows GENERATED; true if the column is an identity. -/
def identity : Walk Bool := do
  unless ← eatWord (Text.ofString "ALWAYS") do
    if ← eatWord (Text.ofString "BY") then let _ ← eat .default
  let _ ← eatWord (Text.ofString "AS")
  let isIdentity ← eat .identity
  skipGroup
  return isIdentity

/-- What the token begins that was just taken and that ends at the offset. -/
def clause? (offset : Nat) : Token → Walk (Option Clause)
  | .keyword .primary _ => do
    let _ ← eat .key
    return some .primaryKey
  | .keyword .not _ => do
    if ← eat .null then return some .notNull else return none
  | .keyword .unique _ => do
    let _ ← eat .key
    return some .unique
  | .keyword .default _ => do
    return (← defaultExpression? offset).map .default
  | .keyword .check _ => do
    return (← groupText?).map .check
  | .keyword .references _ => do
    match ← reference? with
    | some target =>
      -- The column of the relationship is the first one.
      let _ ← lookup fun _ => first target.columns
      return some (.references target)
    | none => return none
  | .keyword .autoIncrement _ => return some .autoIncrement
  | .keyword .identity _ => do
    skipGroup
    return some .autoIncrement
  | .keyword .generated _ => do
    if ← identity then return some .autoIncrement else return none
  | .keyword .constraint _ => do
    let _ ← take? fun token => match token with
      | .name _ => some ()
      | _ => none
    return none
  | _ => return none

/-- One round of collecting what tokens begin. -/
def collectRound {α : Type} (begun? : Nat → Token → Walk (Option α)) (found : List α) :
    Walk (List α ⊕ List α) := do
  let spot ← current
  match spot.token? with
  | none => return .inr found
  | some token =>
    advance
    return .inl (found ++ (← begun? spot.stop token).toList)

def collect {α : Type} (begun? : Nat → Token → Walk (Option α)) : Walk (List α) :=
  loop (collectRound begun?) []

def clauses : Walk (List Clause) := collect clause?

/-- A constraint of a table, perhaps named. -/
def tableConstraint? : Walk (Option Constraint) := do
  let named ← eat .constraint
  let name ← if named then constraintName? else pure none
  constraintBody? name
where
  /-- The name behind CONSTRAINT, which can be missing. -/
  constraintName? : Walk (Option Text) := do
    let spot ← current
    if spot.token?.any Token.beginsConstraint then return none else name?
  /-- The constraint itself. -/
  constraintBody? (name : Option Text) : Walk (Option Constraint) := do
    if ← eat .primary then
      let _ ← eat .key
      let columns ← columnList
      return if columns.isEmpty then none else some (.primaryKey name columns)
    if ← eat .unique then
      unless ← eat .key do let _ ← eat .index
      advanceToGroup
      let columns ← columnList
      return if columns.isEmpty then none else some (.unique name columns)
    if ← eat .foreign then
      let _ ← eat .key
      advanceToGroup
      let columns ← columnList
      if columns.isEmpty then return none
      unless ← eat .references do return none
      let some target ← reference? | return none
      return some
        (.foreignKey name columns target.table target.columns target.onDelete target.onUpdate)
    if ← eat .check then
      return (← peekGroup?).map (.check name)
    return none

namespace Follows

theorem referentialAction? : Follows Walk.referentialAction? Reader.referentialAction? := by
  refine .bind (.eatWord _) fun cascade => ?_
  cases cascade with
  | true => exact .pure _
  | false =>
    refine .bind (.eatWord _) fun restrict => ?_
    cases restrict with
    | true => exact .pure _
    | false =>
      refine .bind (.eatWord _) fun set => ?_
      cases set with
      | true =>
        refine .bind (.eat _) fun null => ?_
        cases null with
        | true => exact .pure _
        | false =>
          refine .bind (.eat _) fun default => ?_
          cases default <;> exact .pure _
      | false =>
        refine .bind (.eatWord _) fun no => ?_
        cases no with
        | true => exact .bind (.eatWord _) fun _ => .pure _
        | false => exact .pure _

theorem triggeredAction? : Follows Walk.triggeredAction? Reader.triggeredAction? := by
  refine .bind (.eat _) fun delete => ?_
  cases delete with
  | true => exact .bind referentialAction? fun _ => .pure _
  | false =>
    refine .bind (.eat _) fun update => ?_
    cases update with
    | true => exact .bind referentialAction? fun _ => .pure _
    | false => exact .pure _

theorem referentialClause? : Follows Walk.referentialClause? Reader.referentialClause? := by
  refine .bind (.eat _) fun on => ?_
  cases on with
  | true => exact triggeredAction?
  | false => exact .pure _

end Follows

def actionsFrom (actions : Actions) : Reader Actions := fun t =>
  ((Reader.referentialClauses t).1.foldl Actions.answer actions, (Reader.referentialClauses t).2)

def readActionRound (actions : Actions) : Reader (Actions ⊕ Actions) := do
  match ← Reader.referentialClause? with
  | some clause => return .inl (actions.answer clause)
  | none => return .inr actions

theorem actionsFrom_rounds (actions : Actions) (t : Text) :
    actionsFrom actions t = goOn Prod.mk actionsFrom (readActionRound actions t) := by
  rw [actionsFrom, Reader.referentialClauses]
  split
  · next rest none =>
    rw [readActionRound, Reader.bind_of none]
    rfl
  · next clause rest some =>
    rw [readActionRound, Reader.bind_of some]
    rfl

theorem readActionRound_shorter (actions actions' : Actions) (t rest : Text)
    (h : readActionRound actions t = (.inl actions', rest)) : rest.length < t.length := by
  rcases clause : Reader.referentialClause? t with ⟨_ | clause', left⟩
  · rw [readActionRound, Reader.bind_of clause] at h
    cases h
  · rw [readActionRound, Reader.bind_of clause] at h
    cases h
    exact Reader.referentialClause?_shorter clause

theorem foldl_answer (clauses : List (Trigger × Option ReferentialAction)) (actions : Actions) :
    clauses.foldl Actions.answer actions =
      (((clauses.filter (·.1 = .delete)).getLast?.map (·.2)).getD actions.1,
        ((clauses.filter (·.1 = .update)).getLast?.map (·.2)).getD actions.2) := by
  induction clauses generalizing actions with
  | nil => rfl
  | cons clause clauses ih =>
    obtain ⟨trigger, action⟩ := clause
    rw [List.foldl_cons, ih]
    cases trigger with
    | delete =>
      cases last : (clauses.filter (·.1 = .delete)).getLast? <;>
        simp [Actions.answer, List.getLast?_cons, last]
    | update =>
      cases last : (clauses.filter (·.1 = .update)).getLast? <;>
        simp [Actions.answer, List.getLast?_cons, last]

namespace Follows

theorem actionRound (actions : Actions) :
    Follows (Walk.actionRound actions) (readActionRound actions) := by
  refine .bind referentialClause? fun clause => ?_
  cases clause <;> exact .pure _

theorem reference? : Follows Walk.reference? Reader.reference? := by
  refine .bind .qualifiedName? fun name => ?_
  cases name with
  | none => exact .pure _
  | some name =>
    refine .bind .columnList fun columns => ?_
    have actions : Follows (Walk.loop Walk.actionRound (none, none)) (actionsFrom (none, none)) :=
      loop actionsFrom_rounds readActionRound_shorter actionRound _
    refine Follows.congr (.bind actions fun _ => .pure _) fun t => ?_
    simp only [Reader.bind_apply, Reader.pure_apply, actionsFrom, foldl_answer]
    congr
    · cases ((Reader.referentialClauses t).1.filter (·.1 = .delete)).getLast? <;> rfl
    · cases ((Reader.referentialClauses t).1.filter (·.1 = .update)).getLast? <;> rfl

theorem identity : Follows Walk.identity Reader.identity := by
  refine .bind (.eatWord _) fun always => ?_
  cases always with
  | true =>
    exact .bind (.eatWord _) fun _ => .bind (.eat _) fun _ => .bind .skipGroup fun _ => .pure _
  | false =>
    refine .bind (.eatWord _) fun by' => ?_
    cases by' with
    | true =>
      exact .bind (.eat _) fun _ => .bind (.eatWord _) fun _ => .bind (.eat _) fun _ =>
        .bind .skipGroup fun _ => .pure _
    | false =>
      exact .bind (.eatWord _) fun _ => .bind (.eat _) fun _ => .bind .skipGroup fun _ => .pure _

end Follows

theorem defaultExpression?_gives {text t : Text} {pos offset : Nat} (place : At text pos t)
    (first : StartsAt text offset t) :
    Gives (Steps text pos t) (defaultExpression? offset text pos)
      (Reader.defaultExpression? t) := by
  have whole : t = (blanks t ++ (Scan.start.expression (Text.trimStart t)).1) ++
      (Scan.start.expression (Text.trimStart t)).2 := by
    rw [List.append_assoc, Scan.expression_append, blanks, Text.trimStart,
      List.takeWhile_append_dropWhile]
  have same := SameEnd.front offset (a := blanks t ++ (Scan.start.expression (Text.trimStart t)).1)
    (b := (Scan.start.expression (Text.trimStart t)).2)
  rw [← whole, Text.byteLength_append, List.length_append, ← Nat.add_assoc] at same
  rw [defaultExpression?, bind_of (lookup_of first.captureExpression pos)]
  exact .bind (skipTo_gives place first same) fun _ steps => .pure ⟨rfl, steps.2⟩

/-- What a token begins is found behind the offset at which the token ends. -/
theorem clause?_gives {text t : Text} {pos offset : Nat} (place : At text pos t)
    (first : StartsAt text offset t) (token : Token) :
    Gives (Steps text pos t) (clause? offset token text pos) (Reader.clause? token t) := by
  cases token with
  | keyword k spelled =>
    cases k with
    | primary => exact Follows.bind (.eat _) (fun _ => .pure _) text pos t place
    | unique => exact Follows.bind (.eat _) (fun _ => .pure _) text pos t place
    | not =>
      refine Follows.bind (.eat _) (fun null => ?_) text pos t place
      cases null <;> exact .pure _
    | default =>
      exact .bind (defaultExpression?_gives place first) fun _ steps =>
        .pure ⟨congrArg (Option.map Clause.default) steps.1, steps.2⟩
    | check => exact Follows.bind .groupText? (fun _ => .pure _) text pos t place
    | references =>
      refine Follows.bind_yields .reference? Reader.yields_reference? (fun target some => ?_)
        text pos t place
      cases target with
      | none => exact .pure _
      | some target =>
        obtain ⟨column, found⟩ := first_of_ne_nil (some target rfl)
        exact .bind (r := pure column) (.lookup fun _ => found) fun _ => .pure _
    | identity => exact Follows.bind .skipGroup (fun _ => .pure _) text pos t place
    | generated =>
      refine Follows.bind .identity (fun isIdentity => ?_) text pos t place
      cases isIdentity <;> exact .pure _
    | constraint => exact Follows.bind (.take? _) (fun _ => .pure _) text pos t place
    | _ => exact Follows.pure _ text pos t place
  | _ => exact Follows.pure _ text pos t place

section collect

variable {α : Type} {begun? : Nat → Token → Walk (Option α)} {read : Token → Reader (Option α)}
  {all : Text → List α}

def readCollectRound (read : Token → Reader (Option α)) (found : List α) :
    Reader (List α ⊕ List α) := fun t =>
  match next? t with
  | none => (.inr found, t)
  | some (l, rest) => (.inl (found ++ (read l.token rest).1.toList), (read l.token rest).2)

theorem readCollectRound_shorter (shrinks : ∀ token, Reader.Shrinks (read token))
    {found found' : List α} {t rest : Text}
    (h : readCollectRound read found t = (.inl found', rest)) : rest.length < t.length := by
  rw [readCollectRound] at h
  split at h
  · cases h
  · next l left taken =>
    cases h
    exact Nat.lt_of_le_of_lt (shrinks _ _) (next?_shorter taken)

theorem Follows.collectRound
    (gives : ∀ text pos offset t, At text pos t → StartsAt text offset t → ∀ token,
      Gives (Steps text pos t) (begun? offset token text pos) (read token t)) (found : List α) :
    Follows (Walk.collectRound begun? found) (readCollectRound read found) := by
  intro text pos t place
  rw [readCollectRound]
  match taken : next? t with
  | none =>
    rw [Walk.collectRound, bind_of (place.ended taken).1]
    exact .pure (.refl _ place)
  | some (l, rest) =>
    obtain ⟨start, stop, here, ahead, next, -, behind⟩ := place.token taken
    rw [Walk.collectRound, bind_of here]
    refine .next ahead (.bind (gives text (pos + 1) stop rest next behind l.token) ?_)
    rintro ⟨a, left⟩ steps
    obtain rfl : a = _ := steps.1
    exact .pure (Steps.after (Nat.lt_succ_self pos) ⟨rfl, steps.2⟩)

theorem Tells.collect (shrinks : ∀ token, Reader.Shrinks (read token))
    (gives : ∀ text pos offset t, At text pos t → StartsAt text offset t → ∀ token,
      Gives (Steps text pos t) (begun? offset token text pos) (read token t))
    (rounds : ∀ t, all t = match next? t with
      | none => []
      | some (l, rest) => (read l.token rest).1.toList ++ all (read l.token rest).2) :
    Tells (Walk.collect begun?) all := by
  have unfolded (found : List α) (t : Text) : found ++ all t =
      goOn (fun c _ => c) (fun found t => found ++ all t) (readCollectRound read found t) := by
    rw [rounds, readCollectRound]
    cases next? t with
    | none => simp [goOn]
    | some taken => simp [goOn]
  have shorter (found found' : List α) (t rest : Text)
      (h : readCollectRound read found t = (.inl found', rest)) : rest.length < t.length :=
    readCollectRound_shorter shrinks h
  exact loop unfolded shorter (.collectRound gives) []

end collect

theorem Tells.clauses : Tells Walk.clauses Reader.clauses := by
  refine .collect Reader.Shrinks.clause? (fun _ _ _ _ => clause?_gives) fun t => ?_
  rw [Reader.clauses]
  split
  · next ended => rw [ended]
  · next taken => rw [taken]

theorem Follows.constraintName? :
    Follows tableConstraint?.constraintName? Reader.tableConstraint?.constraintName? := by
  have read (t : Text) : Reader.tableConstraint?.constraintName? t =
      if ((next? t).map (·.1.token)).any Token.beginsConstraint then (none, t)
      else Reader.name? t := by
    rw [Reader.tableConstraint?.constraintName?, Reader.name?, Reader.take?, Reader.take?]
    rcases next? t with _ | ⟨⟨before, token, raw⟩, rest⟩
    · rfl
    · cases token with
      | keyword k spelled => cases k <;> rfl
      | _ => rfl
  intro text pos t place
  rw [read]
  cases taken : next? t with
  | none =>
    rw [tableConstraint?.constraintName?, bind_of (place.ended taken).1]
    exact name? text pos t place
  | some found =>
    obtain ⟨l, rest⟩ := found
    obtain ⟨start, stop, here, -⟩ := place.token taken
    rw [tableConstraint?.constraintName?, bind_of here]
    simp only [Option.map_some, Option.any_some]
    by_cases begins : l.token.beginsConstraint
    · rw [if_pos begins, if_pos begins]
      exact .pure (.refl _ place)
    · rw [if_neg begins, if_neg begins]
      exact name? text pos t place

theorem Tells.constraintBody? (name : Option Text) :
    Tells (tableConstraint?.constraintBody? name)
      fun t => (Reader.tableConstraint?.constraintBody? name t).1 := by
  rw [tableConstraint?.constraintBody?, Reader.tableConstraint?.constraintBody?]
  refine .bind (.eat _) fun primary => ?_
  cases primary with
  | true =>
    exact .of_follows (.bind (.eat _) fun _ => .bind .columnList fun _ => .pure _)
  | false =>
    refine .bind (.eat _) fun unique => ?_
    cases unique with
    | true =>
      refine .of_follows (.bind (.eat _) fun key => ?_)
      cases key with
      | true => exact .bind .advanceToGroup fun _ => .bind .columnList fun _ => .pure _
      | false =>
        exact .bind (.eat _) fun _ => .bind .advanceToGroup fun _ => .bind .columnList fun _ =>
          .pure _
    | false =>
      refine .bind (.eat _) fun foreign => ?_
      cases foreign with
      | true =>
        refine .of_follows (.bind (.eat _) fun _ => .bind .advanceToGroup fun _ =>
          .bind .columnList fun columns => ?_)
        cases columns with
        | nil => exact .pure _
        | cons column columns =>
          refine .bind (.eat _) fun references => ?_
          cases references with
          | false => exact .pure _
          | true =>
            refine .bind .reference? fun target => ?_
            cases target <;> exact .pure _
      | false =>
        refine .bind (.eat _) fun check => ?_
        cases check with
        | true =>
          exact .map (f := fun t => (Reader.groupText? t).1) .groupText?
            (Option.map (Constraint.check name))
        | false => exact .of_follows (.pure _)

theorem Tells.tableConstraint? :
    Tells Walk.tableConstraint? fun t => (Reader.tableConstraint? t).1 := by
  rw [Walk.tableConstraint?, Reader.tableConstraint?]
  refine .bind (.eat _) fun named => ?_
  cases named with
  | true => exact .bind .constraintName? fun name => .constraintBody? name
  | false => exact .bind (.pure none) fun name => .constraintBody? name

end SchemaDiagram.Sql.Checked.Walk
