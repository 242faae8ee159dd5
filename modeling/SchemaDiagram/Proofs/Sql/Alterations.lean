import SchemaDiagram.Proofs.Sql.Declared
import SchemaDiagram.Proofs.Sql.Reading

/-!
# Scripts that alter nothing

Readers take tokens off a text and make no new ones. So a script without the keyword ALTER holds no
statement that adds anything, and its tables are just those that it creates.
-/

namespace SchemaDiagram.Sql

def tokens (t : Text) : List Token := (tokenize t).map (·.token)

theorem tokens_eq (t : Text) :
    tokens t = match firstToken? t with
      | none => []
      | some (token, rest) => token :: tokens rest := by
  rw [tokens, tokenize]
  unfold firstToken?
  split
  · next none => rw [none]; rfl
  · next l rest next => rw [next]; rfl

theorem tokens_of_next? {t rest : Text} {l : Lexeme} (h : next? t = some (l, rest)) :
    tokens t = l.token :: tokens rest := by
  rw [tokens_eq, firstToken?, h]
  rfl

theorem tokens_skipPast (n : Nat) (t : Text) : tokens (skipPast n t) ⊆ tokens t := by
  fun_induction skipPast n t with
  | case1 => exact List.Subset.refl _
  | case2 n t l rest h _ ih =>
    rw [tokens_of_next? h]
    exact List.Subset.trans ih (List.subset_cons_self _ _)
  | case3 => exact List.Subset.refl _

namespace Reader

variable {α β : Type}

/-- Every token of the rest was there before. -/
def Passes (r : Reader α) : Prop := ∀ t, tokens (r t).2 ⊆ tokens t

theorem Passes.pure (a : α) : Passes (Pure.pure a) := fun _ => List.Subset.refl _

theorem Passes.bind {r : Reader α} {f : α → Reader β} (h : Passes r) (k : ∀ a, Passes (f a)) :
    Passes (r >>= f) :=
  fun t => List.Subset.trans (k _ _) (h t)

theorem Passes.take? (f : Token → Option α) : Passes (take? f) := by
  intro t
  rw [take?_eq]
  cases first : firstToken? t with
  | none => exact List.Subset.refl _
  | some p =>
    dsimp only
    cases f p.1 with
    | none => exact List.Subset.refl _
    | some a =>
      rw [tokens_eq t, first]
      exact List.subset_cons_self _ _

theorem Passes.eatIf (test : Token → Bool) : Passes (eatIf test) :=
  .bind (.take? _) fun _ => .pure _

theorem Passes.eat (k : Keyword) : Passes (eat k) := .eatIf _

theorem Passes.name? : Passes name? := .take? _

theorem Passes.skipWords (words : List Text) : Passes (skipWords words) := by
  intro t
  fun_induction Reader.skipWords words t with
  | case1 => exact List.Subset.refl _
  | case2 t l rest h _ ih =>
    rw [tokens_of_next? h]
    exact List.Subset.trans ih (List.subset_cons_self _ _)
  | case3 => exact List.Subset.refl _

theorem Passes.qualifiedName? : Passes qualifiedName? := by
  refine .bind .name? fun first => ?_
  split
  · refine .bind (.eatIf _) fun dotted => ?_
    split
    · refine .bind .name? fun second => ?_
      split <;> exact .pure _
    · exact .pure _
  · exact .pure _

theorem Passes.groupInside? : Passes groupInside? := by
  intro t
  unfold Reader.groupInside? group
  split
  · next h =>
    split at h
    · split at h <;> contradiction
    · exact List.Subset.refl _
  · next behind h =>
    split at h
    · next next =>
      split at h
      · contradiction
      · cases h
        rw [tokens_of_next? next]
        exact List.subset_cons_self _ _
    · contradiction
  · next inside behind h =>
    split at h
    · next next =>
      split at h
      · cases h
        rw [tokens_of_next? next]
        exact List.Subset.trans (tokens_skipPast _ _) (List.subset_cons_self _ _)
      · contradiction
    · contradiction

theorem Passes.newTable? : Passes newTable? := by
  refine .bind .qualifiedName? fun name => ?_
  split
  · refine .bind .groupInside? fun body => ?_
    split <;> exact .pure _
  · exact .pure _

theorem Passes.createTable? : Passes createTable? := by
  refine .bind (.skipWords _) fun _ => .bind (.eat _) fun b => ?_
  cases b
  · exact .pure _
  · refine .bind (.eat _) fun b => ?_
    cases b
    · exact .newTable?
    · exact .bind (.eat _) fun _ => .bind (.eat _) fun _ => .newTable?

end Reader

def Token.isAlter : Token → Bool
  | keyword .alter _ => true
  | _ => false

/-- No ALTER stands among the tokens. -/
def AlterFree (t : Text) : Prop := ∀ token ∈ tokens t, token.isAlter = false

instance (t : Text) : Decidable (AlterFree t) :=
  inferInstanceAs (Decidable (∀ token ∈ tokens t, token.isAlter = false))

def Statement.isCreate : Statement → Bool
  | create _ => true
  | add _ _ => false

namespace Reader

theorem isCreate_statement? {token : Token} (h : token.isAlter = false) :
    Yields (fun o => ∀ s ∈ o, s.isCreate) (statement? token) ∧ Passes (statement? token) := by
  unfold statement?
  split
  · exact ⟨.createTable? (.newTable? fun _ _ _ => rfl), .createTable?⟩
  · contradiction
  · exact ⟨.pure (by simp), .pure _⟩

/-- What holds of the statements that a token of some kind can begin holds of all statements of a
text that has no other tokens. -/
theorem forall_statements {allowed : Token → Prop} {P : Statement → Prop}
    (step : ∀ token, allowed token →
      Yields (fun o => ∀ s ∈ o, P s) (statement? token) ∧ Passes (statement? token))
    {t : Text} (h : ∀ token ∈ tokens t, allowed token) : ∀ s ∈ statements t, P s := by
  fun_induction statements t with
  | case1 => simp
  | case2 t l rest next taken ih =>
    have all := tokens_of_next? next
    obtain ⟨yields, passes⟩ := step l.token (h _ (by rw [all]; exact List.mem_cons_self))
    have behind : ∀ token ∈ tokens taken.2, allowed token := by
      intro token mem
      refine h token ?_
      rw [all]
      exact List.mem_cons_of_mem _ (passes rest mem)
    intro s hs
    rcases List.mem_append.1 hs with hs | hs
    · exact yields rest s (Option.mem_toList.1 hs)
    · exact ih behind s hs

/-- A text without ALTER holds no statement but those that create tables. -/
theorem isCreate_statements {t : Text} (h : AlterFree t) : ∀ s ∈ statements t, s.isCreate :=
  forall_statements (fun _ => isCreate_statement?) h

end Reader

theorem addedConstraints_of_isCreate {l : List Statement} (h : ∀ s ∈ l, s.isCreate) :
    addedConstraints l = [] := by
  refine List.filterMap_eq_nil_iff.2 fun s hs => ?_
  cases s with
  | create => rfl
  | add => exact absurd (h _ hs) (by simp [Statement.isCreate])

/-- Without additions the tables are those that are created, and so are their relationships. -/
theorem schemaOf_of_isCreate {l : List Statement} (h : ∀ s ∈ l, s.isCreate) :
    schemaOf l =
      { tables := (createdTables l).map (·.table)
        relationships := Text.firstOfEach Relationship.key
          ((createdTables l).flatMap (·.relationships)) } := by
  unfold schemaOf declaredRelationships
  rw [addedConstraints_of_isCreate h, List.foldl_nil, List.filterMap_nil, List.append_nil]

end SchemaDiagram.Sql
