import SchemaDiagram.Proofs.Sql.Assembly
import SchemaDiagram.Proofs.Sql.ClauseLocality

/-!
# Which constraints a body keeps

A body tells its segments apart by their first tokens and reads as constraints only those that look
like one. Behind CONSTRAINT it leaves one token out as the name, whereas the reader of a constraint
knows that the name can be missing. So a body loses the constraints with CONSTRAINT and no name,
unless the token behind the one that was left out begins a constraint as well.
-/

namespace SchemaDiagram.Sql

/-- CONSTRAINT without a name: the word that begins the constraint stands in its place, and no such
word stands behind that one. -/
inductive Unnamed : List Token → Prop where
  | intro {spelled word rest} : word.beginsConstraint →
      (∀ token ∈ rest.head?, ¬ token.beginsConstraint) →
      Unnamed (.keyword .constraint spelled :: word :: rest)

theorem SegmentKind.ofToken?_eq_constraint_iff {token? : Option Token} :
    ofToken? token? = .constraint ↔ ∃ token ∈ token?, token.beginsConstraint := by
  rcases token? with - | token
  · simp [ofToken?]
  · cases token with
    | keyword k spelled =>
      simp only [ofToken?, Option.mem_some_iff, Token.beginsConstraint, constraintWords]
      split
      · next word => simp [word]
      · next other =>
        split <;> simp [other]
    | name n =>
      simp only [ofToken?, Option.mem_some_iff, Token.beginsConstraint]
      split <;> simp
    | _ => simp [ofToken?, Token.beginsConstraint]

theorem SegmentKind.ofText_of_other {s : Text} {token : Token} {rest : List Token}
    (h : tokens s = token :: rest) (other : ∀ spelled, token ≠ .keyword .constraint spelled) :
    ofText s = ofToken? (some token) := by
  have same : (tokenize s).map Lexeme.token = token :: rest := h
  unfold ofText
  rw [same]
  split
  · next eq => exact absurd (List.cons.inj eq).1 (other _)
  · rfl

theorem SegmentKind.ofText_of_constraint {s spelled : Text} {rest : List Token}
    (h : tokens s = .keyword .constraint spelled :: rest) : ofText s = ofToken? rest[1]? := by
  have same : (tokenize s).map Lexeme.token = .keyword .constraint spelled :: rest := h
  unfold ofText
  rw [same]

theorem tokens_of_firstToken? {t rest : Text} {token : Token}
    (h : firstToken? t = some (token, rest)) : tokens t = token :: tokens rest := by
  rw [tokens_eq, h]

namespace Reader

variable {t : Text}

theorem eat_cases (k : Keyword) (t : Text) :
    (∃ spelled rest, firstToken? t = some (.keyword k spelled, rest) ∧ eat k t = (true, rest)) ∨
      eat k t = (false, t) := by
  by_cases h : ∃ spelled rest, firstToken? t = some (.keyword k spelled, rest)
  · obtain ⟨spelled, rest, first⟩ := h
    exact .inl ⟨spelled, rest, first, eat_true first⟩
  · right
    apply eatIf_false
    intro token rest first
    cases token with
    | keyword k' spelled =>
      have other : k' ≠ k := by
        rintro rfl
        exact h ⟨spelled, rest, first⟩
      simp [other]
    | _ => rfl

/-- What is read as a constraint without CONSTRAINT begins with a word for one. -/
theorem begins_of_constraintBody? {name : Option Text} {k : Constraint}
    (h : (tableConstraint?.constraintBody? name t).1 = some k) :
    ∃ word rest, firstToken? t = some (word, rest) ∧ word.beginsConstraint := by
  rcases eat_cases .primary t with ⟨spelled, rest, first, -⟩ | noPrimary
  · exact ⟨_, rest, first, by simp [Token.beginsConstraint, constraintWords]⟩
  rcases eat_cases .unique t with ⟨spelled, rest, first, -⟩ | noUnique
  · exact ⟨_, rest, first, by simp [Token.beginsConstraint, constraintWords]⟩
  rcases eat_cases .foreign t with ⟨spelled, rest, first, -⟩ | noForeign
  · exact ⟨_, rest, first, by simp [Token.beginsConstraint, constraintWords]⟩
  rcases eat_cases .check t with ⟨spelled, rest, first, -⟩ | noCheck
  · exact ⟨_, rest, first, by simp [Token.beginsConstraint, constraintWords]⟩
  simp [tableConstraint?.constraintBody?, bind_apply, noPrimary, noUnique, noForeign, noCheck,
    pure_apply] at h

/-- Behind CONSTRAINT nothing is taken, or a name that is no word for a constraint. -/
theorem constraintName?_left (t : Text) :
    (tableConstraint?.constraintName? t).2 = t ∨
      ∃ token, firstToken? t = some (token, (tableConstraint?.constraintName? t).2) ∧
        ¬ token.beginsConstraint := by
  rw [tableConstraint?.constraintName?, take?_eq]
  cases first : firstToken? t with
  | none => exact .inl rfl
  | some p =>
    obtain ⟨token, rest⟩ := p
    dsimp only
    split
    · exact .inl rfl
    · next n named =>
      refine .inr ⟨token, rfl, ?_⟩
      cases token with
      | keyword k spelled =>
        intro word
        simp only [Token.beginsConstraint, constraintWords, List.mem_cons, List.not_mem_nil,
          or_false, decide_eq_true_eq] at word
        rcases word with rfl | rfl | rfl | rfl <;> simp at named
      | _ => exact Bool.false_ne_true

/-- The beginnings of what is read as a constraint: it has no CONSTRAINT, or CONSTRAINT and a name,
or CONSTRAINT alone. -/
theorem tableConstraint?_cases {k : Constraint} (h : (tableConstraint? t).1 = some k) :
    (∃ word rest, tokens t = word :: rest ∧ word.beginsConstraint) ∨
    (∃ spelled name word rest, tokens t = .keyword .constraint spelled :: name :: word :: rest ∧
      ¬ name.beginsConstraint ∧ word.beginsConstraint) ∨
    (∃ spelled word rest, tokens t = .keyword .constraint spelled :: word :: rest ∧
      word.beginsConstraint) := by
  unfold tableConstraint? at h
  rcases eat_cases .constraint t with ⟨spelled, u, first, eaten⟩ | noPrefix
  · rw [bind_of eaten] at h
    obtain ⟨word, rest, next, begins⟩ :=
      begins_of_constraintBody? (t := (tableConstraint?.constraintName? u).2) h
    right
    rcases constraintName?_left u with same | ⟨name, named, other⟩
    · right
      rw [same] at next
      refine ⟨spelled, word, tokens rest, ?_, begins⟩
      rw [tokens_of_firstToken? first, tokens_of_firstToken? next]
    · left
      refine ⟨spelled, name, word, tokens rest, ?_, other, begins⟩
      rw [tokens_of_firstToken? first, tokens_of_firstToken? named, tokens_of_firstToken? next]
  · rw [bind_of noPrefix] at h
    obtain ⟨word, rest, first, begins⟩ := begins_of_constraintBody? (t := t) h
    exact .inl ⟨word, tokens rest, tokens_of_firstToken? first, begins⟩

end Reader

theorem Token.ne_constraint_of_begins {token : Token} (h : token.beginsConstraint)
    (spelled : Text) : token ≠ .keyword .constraint spelled := by
  rintro rfl
  simp [Token.beginsConstraint, constraintWords] at h

theorem unnamed_iff {spelled : Text} {word : Token} {rest : List Token} :
    Unnamed (.keyword .constraint spelled :: word :: rest) ↔
      word.beginsConstraint ∧ ∀ token ∈ rest.head?, ¬ token.beginsConstraint := by
  constructor
  · rintro ⟨begins, none⟩
    exact ⟨begins, none⟩
  · rintro ⟨begins, none⟩
    exact .intro begins none

/-- What is read as a constraint is told to be one exactly if its name is not left out. -/
theorem ofText_eq_constraint_iff {s : Text} {k : Constraint}
    (h : (Reader.tableConstraint? s).1 = some k) :
    SegmentKind.ofText s = .constraint ↔ ¬ Unnamed (tokens s) := by
  rcases Reader.tableConstraint?_cases h with ⟨word, rest, eq, begins⟩ |
    ⟨spelled, name, word, rest, eq, other, begins⟩ | ⟨spelled, word, rest, eq, begins⟩
  · have isOne : SegmentKind.ofText s = .constraint := by
      rw [SegmentKind.ofText_of_other eq (Token.ne_constraint_of_begins begins),
        SegmentKind.ofToken?_eq_constraint_iff]
      exact ⟨word, rfl, begins⟩
    refine iff_of_true isOne ?_
    rw [eq]
    intro unnamed
    cases unnamed
    exact Token.ne_constraint_of_begins begins _ rfl
  · rw [SegmentKind.ofText_of_constraint eq, SegmentKind.ofToken?_eq_constraint_iff, eq,
      unnamed_iff]
    exact iff_of_true ⟨word, rfl, begins⟩ fun unnamed => other unnamed.1
  · rw [SegmentKind.ofText_of_constraint eq, SegmentKind.ofToken?_eq_constraint_iff, eq,
      unnamed_iff, List.getElem?_cons_succ, ← List.head?_eq_getElem?]
    simp [begins]

/-- A filter in front takes nothing away exactly if it keeps all that has a value. -/
theorem filterMap_filter_eq_iff {α β : Type} {p : α → Bool} {f : α → Option β} {l : List α} :
    (l.filter p).filterMap f = l.filterMap f ↔ ∀ a ∈ l, (f a).isSome → p a := by
  induction l with
  | nil => simp
  | cons a l ih =>
    have shorter : ((l.filter p).filterMap f).length ≤ (l.filterMap f).length :=
      (List.filter_sublist.filterMap f).length_le
    rw [List.forall_mem_cons, ← ih]
    cases kept : p a <;> cases value : f a <;> simp [kept, value]
    · intro eq
      have longer := congrArg List.length eq
      simp only [List.length_cons] at longer
      omega

theorem CreatedTable.constraints_ofBody (name : Text) (schema : Option Text) (body : Text) :
    (ofBody name schema body).table.constraints = bodyConstraints body := by
  rw [table_ofBody, Table.foldl_constrain]
  rfl

theorem constraints_ofBody_iff (name : Text) (schema : Option Text) (body : Text) :
    (CreatedTable.ofBody name schema body).table.constraints =
        (segments body).filterMap (fun s => (Reader.tableConstraint? s).1) ↔
      ∀ s ∈ segments body, (Reader.tableConstraint? s).1.isSome → ¬ Unnamed (tokens s) := by
  rw [CreatedTable.constraints_ofBody, bodyConstraints, filterMap_filter_eq_iff]
  refine forall₂_congr fun s _ => forall_congr' fun isRead => ?_
  obtain ⟨k, hk⟩ := Option.isSome_iff_exists.1 isRead
  rw [decide_eq_true_iff, ofText_eq_constraint_iff hk]

/-- A body takes for a constraint whatever is read as one, except for those whose name is left out
behind CONSTRAINT. So it keeps all constraints among its segments exactly if no name is left out. -/
theorem constraints_kept (s name : Text) (schema : Option Text) (body : Text) :
    (∀ k, (Reader.tableConstraint? s).1 = some k →
      (SegmentKind.ofText s = .constraint ↔ ¬ Unnamed (tokens s))) ∧
    ((CreatedTable.ofBody name schema body).table.constraints =
        (segments body).filterMap (fun s => (Reader.tableConstraint? s).1) ↔
      ∀ s ∈ segments body, (Reader.tableConstraint? s).1.isSome → ¬ Unnamed (tokens s)) := by
  constructor
  · intro k isRead
    exact ofText_eq_constraint_iff isRead
  · exact constraints_ofBody_iff name schema body

def keyNamed : Text := Text.ofString "CONSTRAINT key PRIMARY KEY (a)"

theorem not_unnamed_keyNamed : ¬ Unnamed (tokens keyNamed) := by
  have eq : tokens keyNamed = .keyword .constraint (Text.ofString "CONSTRAINT") ::
      .keyword .key (Text.ofString "key") :: (tokens keyNamed).drop 2 := by
    decide +kernel
  rw [eq, unnamed_iff]
  simp [Token.beginsConstraint, constraintWords]

theorem keyNamed_kept :
    SegmentKind.ofText keyNamed = .constraint ∧
      (CreatedTable.ofBody ['t'] none (Text.ofString "a INT," ++ keyNamed)).table.constraints =
        [.primaryKey (some (Text.ofString "key")) [['a']]] := by
  have isRead : (Reader.tableConstraint? keyNamed).1 =
      some (.primaryKey (some (Text.ofString "key")) [['a']]) := by
    decide +kernel
  have noConstraint : (Reader.tableConstraint? (Text.ofString "a INT")).1 = none := by
    decide +kernel
  have split : segments (Text.ofString "a INT," ++ keyNamed) =
      [Text.ofString "a INT", keyNamed] := by
    decide +kernel
  have all : ∀ s ∈ segments (Text.ofString "a INT," ++ keyNamed),
      (Reader.tableConstraint? s).1.isSome → ¬ Unnamed (tokens s) := by
    simp [split, noConstraint, not_unnamed_keyNamed]
  obtain ⟨kind, kept⟩ := constraints_kept keyNamed ['t'] none (Text.ofString "a INT," ++ keyNamed)
  refine ⟨(kind _ isRead).2 not_unnamed_keyNamed, ?_⟩
  rw [kept.2 all, split]
  simp [noConstraint, isRead]

/-- Without its name the key is read as a constraint, but it is taken for an index definition, and
the table is without it. -/
theorem unnamedKey_lost :
    (Reader.tableConstraint? (Text.ofString "CONSTRAINT PRIMARY KEY (a)")).1 =
        some (.primaryKey none [['a']]) ∧
      SegmentKind.ofText (Text.ofString "CONSTRAINT PRIMARY KEY (a)") = .index ∧
      (extract (Text.ofString "CREATE TABLE t (a INT, CONSTRAINT PRIMARY KEY (a));")).tables.map
        (·.constraints) = [[]] := by
  decide +kernel

end SchemaDiagram.Sql
