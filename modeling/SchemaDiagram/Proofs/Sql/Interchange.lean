import SchemaDiagram.Proofs.Sql.Concatenation

/-!
# Creations and additions in any order

A schema does not depend on how the statements that create tables and those that add constraints
are mixed. So in a script the two can change places, whichever tables they are about.
-/

namespace SchemaDiagram.Sql

theorem createdTables_filter (l : List Statement) :
    createdTables (l.filter (·.isCreate)) = createdTables l := by
  unfold createdTables
  rw [List.filterMap_filter]
  congr 2
  funext s
  cases s <;> rfl

theorem addedConstraints_filter (l : List Statement) :
    addedConstraints (l.filter (!·.isCreate)) = addedConstraints l := by
  unfold addedConstraints
  rw [List.filterMap_filter]
  congr 1
  funext s
  cases s <;> rfl

/-- The order matters among creations and among additions, but not between the two. -/
theorem schemaOf_congr {l m : List Statement}
    (creations : l.filter (·.isCreate) = m.filter (·.isCreate))
    (additions : l.filter (!·.isCreate) = m.filter (!·.isCreate)) : schemaOf l = schemaOf m := by
  have created : createdTables l = createdTables m := by
    rw [← createdTables_filter, creations, createdTables_filter]
  have added : addedConstraints l = addedConstraints m := by
    rw [← addedConstraints_filter, additions, addedConstraints_filter]
  have declared : declaredRelationships l = declaredRelationships m := by
    rw [declaredRelationships, created, added, declaredRelationships]
  rw [schemaOf, created, added, declared, schemaOf]

theorem schemaOf_interchange {c d : List Statement} (creates : ∀ s ∈ c, s.isCreate)
    (adds : ∀ s ∈ d, s.isCreate = false) (a b : List Statement) :
    schemaOf (a ++ c ++ d ++ b) = schemaOf (a ++ d ++ c ++ b) := by
  have noCreation : d.filter (·.isCreate) = [] :=
    List.filter_eq_nil_iff.2 fun s hs => by simp [adds s hs]
  have noAddition : c.filter (!·.isCreate) = [] :=
    List.filter_eq_nil_iff.2 fun s hs => by simp [creates s hs]
  refine schemaOf_congr ?_ ?_
  · simp only [List.filter_append, noCreation, List.append_nil]
  · simp only [List.filter_append, noAddition, List.append_nil]

def Token.isCreate : Token → Bool
  | keyword .create _ => true
  | _ => false

/-- No CREATE stands among the tokens. -/
def CreateFree (t : Text) : Prop := ∀ token ∈ tokens t, token.isCreate = false

instance (t : Text) : Decidable (CreateFree t) :=
  inferInstanceAs (Decidable (∀ token ∈ tokens t, token.isCreate = false))

namespace Reader

theorem Passes.statementRest : Passes statementRest := fun t => tokens_skipPast _ t

theorem Passes.addition? : Passes addition? := by
  refine .bind (.eat _) fun _ => .bind .qualifiedName? fun name => ?_
  split
  · refine .bind (.eat _) fun b => ?_
    cases b
    · exact .pure _
    · exact .bind .statementRest fun _ => .pure _
  · exact .pure _

theorem Passes.alterTable? : Passes alterTable? := by
  refine .bind (.eat _) fun b => ?_
  cases b
  · exact .pure _
  · refine .bind (.eat _) fun _ => .bind (.eat _) fun b => ?_
    cases b
    · exact .addition?
    · exact .bind (.eat _) fun _ => .addition?

theorem adds_statement? {token : Token} (h : token.isCreate = false) :
    Yields (fun o => ∀ s ∈ o, s.isCreate = false) (statement? token) ∧
      Passes (statement? token) := by
  unfold statement?
  split
  · contradiction
  · exact ⟨.alterTable? fun _ _ => rfl, .alterTable?⟩
  · exact ⟨.pure (by simp), .pure _⟩

/-- A text without CREATE holds no statement but those that add constraints. -/
theorem adds_statements {t : Text} (h : CreateFree t) : ∀ s ∈ statements t, s.isCreate = false :=
  forall_statements (fun _ => adds_statement?) h

end Reader

/-- In front of any text, a script that only creates and one that only alters can change places. -/
theorem extract_interchange {p c d : Text} (hp : ClosedScript p) (hc : ClosedScript c)
    (hd : ClosedScript d) (creates : AlterFree (stripComments c))
    (alters : CreateFree (stripComments d)) (t : Text) :
    extract (p ++ c ++ d ++ t) = extract (p ++ d ++ c ++ t) := by
  have parts {x y : Text} (hx : ClosedScript x) (hy : ClosedScript y) :
      Reader.statements (stripComments (p ++ x ++ y ++ t)) =
        Reader.statements (stripComments p) ++ Reader.statements (stripComments x) ++
          Reader.statements (stripComments y) ++ Reader.statements (stripComments t) := by
    simp only [List.append_assoc, statements_closedScript hp, statements_closedScript hx,
      statements_closedScript hy]
  rw [extract, extract, parts hc hd, parts hd hc]
  exact schemaOf_interchange (Reader.isCreate_statements creates) (Reader.adds_statements alters) _ _

def itemBegun : Text := Text.ofString "CREATE TABLE a (x INT REFERENCES \"CREATE\")"

/-- Additions to the table above and to one that comes later, in another spelling. -/
def additionsBegun : Text :=
  Text.ofString "ALTER TABLE A ADD UNIQUE (x); ALTER TABLE b ADD UNIQUE (y) -- CREATE\n"

def laterScript : Text := Text.ofString "CREATE TABLE b (y INT); ALTER TABLE b ADD UNIQUE (y"

theorem closedScript_itemBegun : ClosedScript (itemBegun ++ [';']) :=
  .ended (by decide +kernel) (by decide +kernel) (by decide +kernel) (by decide +kernel)

theorem closedScript_additionsBegun : ClosedScript (additionsBegun ++ [';']) :=
  .ended (by decide +kernel) (by decide +kernel) (by decide +kernel) (by decide +kernel)

theorem extract_additions_interchanged :
    extract ([] ++ (itemBegun ++ [';']) ++ (additionsBegun ++ [';']) ++ laterScript) =
        extract ([] ++ (additionsBegun ++ [';']) ++ (itemBegun ++ [';']) ++ laterScript) ∧
      (extract ([] ++ (itemBegun ++ [';']) ++ (additionsBegun ++ [';']) ++ laterScript)).tables.map
        (·.constraints.length) = [1, 2] := by
  refine ⟨?_, by decide +kernel⟩
  exact extract_interchange .nil closedScript_itemBegun closedScript_additionsBegun
    (by decide +kernel) (by decide +kernel) laterScript

end SchemaDiagram.Sql
