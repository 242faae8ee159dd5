import SchemaDiagram.Proofs.Sql.ClauseLocality
import SchemaDiagram.Proofs.Sql.ClauseText
import SchemaDiagram.Proofs.Sql.ReferentialActions
import SchemaDiagram.Proofs.Sql.Segments

/-!
# Constraints that are read back

A constraint is written as its first word and what belongs to it, its name in front if it has one.
It is read back whole.
-/

namespace SchemaDiagram

namespace Sql

def actionText (trigger : Trigger) : Option ReferentialAction → Text
  | none => []
  | some action => Text.ofString " ON " ++ trigger.word ++ ' ' :: action.text

def targetText (table : Text) (columns : List Text) (onDelete onUpdate : Option ReferentialAction) :
    Text :=
  ' ' :: (quoted table ++ ' ' :: (nameList columns ++
    (actionText .delete onDelete ++ actionText .update onUpdate)))

end Sql

namespace Constraint

open Sql

def keyword : Constraint → Keyword
  | primaryKey .. => .primary
  | unique .. => .unique
  | foreignKey .. => .foreign
  | check .. => .check

def word : Constraint → Text
  | primaryKey .. => Text.ofString "PRIMARY"
  | unique .. => Text.ofString "UNIQUE"
  | foreignKey .. => Text.ofString "FOREIGN"
  | check .. => Text.ofString "CHECK"

/-- What stands behind the first word. -/
def operand : Constraint → Text
  | primaryKey _ columns => Text.ofString " KEY " ++ nameList columns
  | unique _ columns => ' ' :: nameList columns
  | foreignKey _ columns refTable refColumns onDelete onUpdate =>
    Text.ofString " KEY " ++ nameList columns ++ Text.ofString " REFERENCES" ++
      targetText refTable refColumns onDelete onUpdate
  | check _ expression => ' ' :: expression

def nameText : Option Text → Text
  | none => []
  | some name => Text.ofString "CONSTRAINT " ++ quoted name ++ [' ']

def text (k : Constraint) : Text := nameText k.name ++ (k.word ++ k.operand)

/-- What a constraint needs for its text to say all of it, its name left out. -/
def Tellable : Constraint → Prop
  | primaryKey _ columns => columns ≠ [] ∧ ∀ c ∈ columns, Quotable c
  | unique _ columns => columns ≠ [] ∧ ∀ c ∈ columns, Quotable c
  | foreignKey _ columns refTable refColumns _ _ =>
    (columns ≠ [] ∧ ∀ c ∈ columns, Quotable c) ∧ Quotable refTable ∧
      refColumns ≠ [] ∧ ∀ c ∈ refColumns, Quotable c
  | check _ expression => IsGroup expression

structure Writable (k : Constraint) : Prop where
  name : ∀ n ∈ k.name, Quotable n
  tellable : k.Tellable

theorem operand_foreignKey (name : Option Text) (columns : List Text) (refTable : Text)
    (refColumns : List Text) (onDelete onUpdate : Option ReferentialAction) :
    (foreignKey name columns refTable refColumns onDelete onUpdate).operand =
      ' ' :: (Text.ofString "KEY" ++ ' ' :: (nameList columns ++
        ' ' :: (Text.ofString "REFERENCES" ++
          targetText refTable refColumns onDelete onUpdate))) := by
  simp [operand, Text.ofString]

theorem isBareWord_word (k : Constraint) : isBareWord k.word := by
  cases k <;> rfl

theorem ofWord_word (k : Constraint) : Token.ofWord k.word = .keyword k.keyword k.word := by
  cases k <;> rfl

theorem keyword_mem_constraintWords (k : Constraint) : k.keyword ∈ constraintWords := by
  cases k <;> simp [keyword, constraintWords]

theorem keyword_ne_constraint (k : Constraint) : k.keyword ≠ .constraint := by
  cases k <;> simp [keyword]

theorem delimited_operand (k : Constraint) : Delimited k.operand := by
  cases k <;> rfl

theorem firstToken?_word_operand (k : Constraint) :
    firstToken? (k.word ++ k.operand) = some (.keyword k.keyword k.word, k.operand) := by
  rw [firstToken?_word k.isBareWord_word k.delimited_operand, k.ofWord_word]

theorem text_unnamed {k : Constraint} (h : k.name = none) : k.text = k.word ++ k.operand := by
  rw [text, h]
  rfl

theorem text_named {k : Constraint} {name : Text} (h : k.name = some name) :
    k.text =
      Text.ofString "CONSTRAINT" ++ ' ' :: (quoted name ++ ' ' :: (k.word ++ k.operand)) := by
  rw [text, h]
  simp [nameText, Text.ofString]

theorem firstToken?_text {k : Constraint} {name : Text} (h : k.name = some name) :
    firstToken? k.text = some (.keyword .constraint (Text.ofString "CONSTRAINT"),
      ' ' :: (quoted name ++ ' ' :: (k.word ++ k.operand))) := by
  have behind : Delimited (' ' :: (quoted name ++ ' ' :: (k.word ++ k.operand))) := rfl
  rw [text_named h, firstToken?_word (w := Text.ofString "CONSTRAINT") rfl behind]
  rfl

end Constraint

namespace Sql

theorem firstToken?_spaced_name (name t : Text) :
    firstToken? (' ' :: (quoted name ++ ' ' :: t)) = some (.name name, ' ' :: t) := by
  rw [firstToken?_space, (Spells.quoted name).standsFor]

theorem delimited_actionText (trigger : Trigger) (action : Option ReferentialAction) {b : Text}
    (hb : Delimited b) : Delimited (actionText trigger action ++ b) := by
  cases action with
  | none => exact hb
  | some action => rfl

namespace Reader

theorem phrase_actionText (trigger : Trigger) (action : ReferentialAction) {b : Text}
    (hb : Delimited b) :
    Phrase b (Text.ofString "ON" :: trigger.word :: action.words)
      (actionText trigger (some action) ++ b) := by
  have text : actionText trigger (some action) =
      [' '] ++ Text.join [' '] (Text.ofString "ON" :: trigger.word :: action.words) := by
    cases trigger <;> cases action <;> rfl
  rw [text, List.append_assoc]
  exact (phrase_join (List.cons_ne_nil _ _) hb.apart).behind_blank (List.cons_ne_nil _ _) rfl

/-- The ON clause of an action, if there is one, is the next of all clauses. -/
theorem referentialClauses_actionText (trigger : Trigger) (action : Option ReferentialAction)
    {b : Text} (hb : Delimited b) :
    referentialClauses (actionText trigger action ++ b) =
      ((action.map fun a => (trigger, some a)).toList ++ (referentialClauses b).1,
        (referentialClauses b).2) := by
  cases action with
  | none => rfl
  | some action =>
    rw [referentialClauses_eq, referentialClause?_phrase (phrase_actionText trigger action hb)]
    rfl

theorem reference?_targetText (table : Text) {columns : List Text} (some : columns ≠ [])
    (onDelete onUpdate : Option ReferentialAction) :
    reference? (targetText table columns onDelete onUpdate) =
      (.some { table, columns, onDelete, onUpdate }, []) := by
  have noClause : referentialClauses [] = ([], []) := by
    rw [referentialClauses_eq]
    rfl
  have update : referentialClauses (actionText .update onUpdate) =
      ((onUpdate.map fun a => (.update, .some a)).toList, []) := by
    have read := referentialClauses_actionText .update onUpdate (b := []) rfl
    rwa [noClause, List.append_nil, List.append_nil] at read
  have behind : Delimited (actionText .update onUpdate) := by
    have all := delimited_actionText .update onUpdate (b := []) rfl
    rwa [List.append_nil] at all
  have all := referentialClauses_actionText .delete onDelete behind
  rw [update] at all
  rw [targetText, reference?_target some all]
  cases onDelete <;> cases onUpdate <;> rfl

theorem advanceToGroup_of_opening {t rest : Text} (h : firstToken? t = some (.opening, rest)) :
    advanceToGroup t = ((), t) := by
  have stays : eatIf (· ≠ .opening) t = (false, t) := by
    apply eatIf_false
    intro token rest' first
    rw [h] at first
    obtain ⟨rfl, -⟩ := Prod.mk.inj (Option.some_inj.1 first)
    rfl
  exact bind_of stays

theorem firstToken?_nameList (names : List Text) (t : Text) :
    firstToken? (' ' :: (nameList names ++ t)) =
      some (.opening, Text.join [',', ' '] (names.map quoted) ++ ')' :: t) := by
  rw [firstToken?_space]
  simp [nameList, firstToken?_opening]

theorem columnList_operand (names : List Text) :
    columnList (' ' :: nameList names) = (names, []) := by
  have read := columnList_nameList names []
  rwa [List.append_nil] at read

theorem constraintBody?_text {k : Constraint} (h : k.Tellable) {t : Text}
    (first : firstToken? t = some (.keyword k.keyword k.word, k.operand)) :
    (tableConstraint?.constraintBody? k.name t).1 = some k := by
  cases k with
  | primaryKey name columns =>
    have key : eat .key (Text.ofString " KEY " ++ nameList columns) =
        (true, ' ' :: nameList columns) :=
      eat_word (w := Text.ofString "KEY") rfl rfl (t := ' ' :: nameList columns) rfl
    have read : tableConstraint?.constraintBody? name t =
        (some (.primaryKey name columns), []) := by
      refine (bind_of (eat_true first)).trans ?_
      refine (bind_of key).trans ((bind_of (columnList_operand columns)).trans ?_)
      simp [pure_apply, h.1]
    exact congrArg Prod.fst read
  | unique name columns =>
    replace first : firstToken? t =
        some (.keyword .unique (Text.ofString "UNIQUE"), ' ' :: nameList columns) := first
    have opened := firstToken?_nameList columns []
    rw [List.append_nil] at opened
    have read : tableConstraint?.constraintBody? name t = (some (.unique name columns), []) := by
      refine (bind_of (eat_other first (by decide))).trans ((bind_of (eat_true first)).trans ?_)
      refine (bind_of (eat_of_opening opened)).trans ?_
      refine (bind_of (bind_of (eat_of_opening opened))).trans ?_
      refine (bind_of (advanceToGroup_of_opening opened)).trans ?_
      refine (bind_of (columnList_operand columns)).trans ?_
      simp [pure_apply, h.1]
    exact congrArg Prod.fst read
  | foreignKey name columns refTable refColumns onDelete onUpdate =>
    obtain ⟨⟨some, -⟩, -, refSome, -⟩ := h
    have referenced := reference?_targetText refTable refSome onDelete onUpdate
    have delimited : Delimited (targetText refTable refColumns onDelete onUpdate) := rfl
    rw [Constraint.operand_foreignKey] at first
    generalize targetText refTable refColumns onDelete onUpdate = target
      at first referenced delimited
    replace first : firstToken? t = .some (.keyword .foreign (Text.ofString "FOREIGN"), _) := first
    have opened := firstToken?_nameList columns (' ' :: (Text.ofString "REFERENCES" ++ target))
    have key : eat .key (' ' :: (Text.ofString "KEY" ++ ' ' :: (nameList columns ++
        ' ' :: (Text.ofString "REFERENCES" ++ target)))) =
          (true, ' ' :: (nameList columns ++ ' ' :: (Text.ofString "REFERENCES" ++ target))) :=
      eat_word rfl rfl rfl
    have references : eat .references (' ' :: (Text.ofString "REFERENCES" ++ target)) =
        (true, target) :=
      eat_word rfl rfl delimited
    have read : tableConstraint?.constraintBody? name t =
        (.some (.foreignKey name columns refTable refColumns onDelete onUpdate), []) := by
      refine (bind_of (eat_other first (by decide))).trans ?_
      refine (bind_of (eat_other first (by decide))).trans ((bind_of (eat_true first)).trans ?_)
      refine (bind_of key).trans ((bind_of (advanceToGroup_of_opening opened)).trans ?_)
      refine (bind_of (columnList_nameList columns _)).trans ?_
      rw [if_neg (by simp [some])]
      exact (bind_of references).trans (bind_of referenced)
    exact congrArg Prod.fst read
  | check name expression =>
    replace first : firstToken? t =
        some (.keyword .check (Text.ofString "CHECK"), ' ' :: expression) := first
    obtain ⟨x, group, -⟩ := groupText?_text h []
    have behind : clauseText [] = [] := rfl
    rw [behind, List.append_nil] at group
    have read : tableConstraint?.constraintBody? name t = (some (.check name expression), x) := by
      refine (bind_of (eat_other first (by decide))).trans ?_
      refine (bind_of (eat_other first (by decide))).trans ?_
      refine (bind_of (eat_other first (by decide))).trans ((bind_of (eat_true first)).trans ?_)
      exact bind_of group
    exact congrArg Prod.fst read

theorem tableConstraint?_text {k : Constraint} (h : k.Tellable) :
    (tableConstraint? k.text).1 = some k := by
  have body := k.firstToken?_word_operand
  cases named : k.name with
  | none =>
    have unnamed : eat .constraint (k.word ++ k.operand) = (false, k.word ++ k.operand) :=
      eat_other body k.keyword_ne_constraint
    have whole : tableConstraint? (k.word ++ k.operand) =
        tableConstraint?.constraintBody? none (k.word ++ k.operand) :=
      bind_of unnamed
    have read := constraintBody?_text h body
    rw [named] at read
    rw [Constraint.text_unnamed named, whole, read]
  | some name =>
    have first := Constraint.firstToken?_text named
    have second := firstToken?_spaced_name name (k.word ++ k.operand)
    have taken : tableConstraint?.constraintName?
        (' ' :: (quoted name ++ ' ' :: (k.word ++ k.operand))) =
          (some name, ' ' :: (k.word ++ k.operand)) := by
      rw [tableConstraint?.constraintName?, take?_eq, second]
      rfl
    have whole : tableConstraint? k.text =
        tableConstraint?.constraintBody? (some name) (' ' :: (k.word ++ k.operand)) :=
      (bind_of (eat_true first)).trans (bind_of taken)
    have read := constraintBody?_text h ((firstToken?_space _).trans body)
    rw [named] at read
    rw [whole, read]

end Reader

end Sql

namespace Constraint

open Sql

theorem constraintOpening_text (k : Constraint) : ConstraintOpening (tokens k.text) := by
  have body := k.firstToken?_word_operand
  cases named : k.name with
  | none =>
    rw [Constraint.text_unnamed named]
    exact .of_firstToken? body k.keyword_mem_constraintWords
  | some name =>
    have second := firstToken?_spaced_name name (k.word ++ k.operand)
    have third := (firstToken?_space (k.word ++ k.operand)).trans body
    rw [tokens_eq, Constraint.firstToken?_text named]
    dsimp only
    rw [tokens_eq, second]
    dsimp only
    rw [tokens_eq, third]
    exact .named rfl k.keyword_mem_constraintWords

theorem inline_actionText (trigger : Trigger) (action : Option ReferentialAction) {b : Text}
    (hb : Delimited b) : Inline (actionText trigger action) b := by
  refine inline_of_harmless ?_ hb
  cases trigger <;> rcases action with _ | action <;> (try cases action) <;> decide +kernel

theorem inline_operand {k : Constraint} (h : k.Tellable) {b : Text} (hb : Delimited b) :
    Inline k.operand b := by
  have spacedKey (t : Text) : Inline (Text.ofString " KEY ") ('(' :: t) :=
    inline_of_harmless (by decide +kernel) rfl
  cases k with
  | primaryKey name columns => exact .append (spacedKey _) (inline_nameList h.2 b)
  | unique name columns => exact (inline_nameList h.2 b).cons_space
  | foreignKey name columns refTable refColumns onDelete onUpdate =>
    obtain ⟨⟨-, ownColumns⟩, table, -, targetColumns⟩ := h
    have references (t : Text) : Inline (Text.ofString " REFERENCES") (' ' :: t) :=
      inline_of_harmless (by decide +kernel) rfl
    have update := inline_actionText .update onUpdate hb
    have actions := (inline_actionText .delete onDelete
      (delimited_actionText .update onUpdate hb)).append update
    have target : Inline (targetText refTable refColumns onDelete onUpdate) b := by
      refine .cons_space (.append (table.inline rfl) (.cons_space ?_))
      exact (inline_nameList targetColumns _).append actions
    exact .append (.append (.append (spacedKey _) (inline_nameList ownColumns _)) (references _))
      target
  | check name expression => exact (IsGroup.inline h b).cons_space

theorem inline_text {k : Constraint} (h : k.Writable) {b : Text} (hb : Delimited b) :
    Inline k.text b := by
  have word : Inline k.word (k.operand ++ b) := by
    refine inline_of_isNameChar (isNameChar_of_isBareWord k.isBareWord_word) ?_
    cases k <;> rfl
  have body := word.append (inline_operand h.tellable hb)
  cases named : k.name with
  | none =>
    rw [Constraint.text_unnamed named]
    exact body
  | some name =>
    have quotable := h.name name named
    have constraint : Inline (Text.ofString "CONSTRAINT")
        (' ' :: (quoted name ++ ' ' :: (k.word ++ k.operand)) ++ b) :=
      inline_of_isNameChar (by decide +kernel) rfl
    rw [Constraint.text_named named]
    exact .append constraint (.cons_space (.append (quotable.inline rfl) body.cons_space))

theorem solid_actionText (trigger : Trigger) (action : Option ReferentialAction) :
    Solid (actionText trigger action) := by
  cases trigger <;> rcases action with _ | action <;> (try cases action) <;> decide +kernel

theorem solid_operand {k : Constraint} (h : k.Tellable) : Solid k.operand := by
  cases k with
  | primaryKey name columns => exact .append_right (by simp [nameList]) (.group _)
  | unique name columns => exact .cons_space (by simp [nameList]) (.group _)
  | foreignKey name columns refTable refColumns onDelete onUpdate =>
    have actions := (solid_actionText .delete onDelete).append (solid_actionText .update onUpdate)
    have listed : Solid (nameList refColumns ++
        (actionText .delete onDelete ++ actionText .update onUpdate)) :=
      .append (.group _) actions
    have target : Solid (targetText refTable refColumns onDelete onUpdate) :=
      .append_right (a := _ :: quoted refTable) (by simp) (.cons_space (by simp [nameList]) listed)
    exact .append_right (by simp [targetText]) target
  | check name expression =>
    obtain ⟨inside, rfl, -⟩ := h
    exact .cons_space (by simp) (.group inside)

theorem segment_text {k : Constraint} (h : k.Writable) : Segment k.text where
  balanced := (inline_text h (b := []) rfl).balanced
  uncut := (inline_text h (b := []) rfl).uncut
  nonempty := by
    cases k <;> simp [text, word, Text.ofString]
  first := by
    intro c hc
    cases named : k.name with
    | none =>
      rw [text_unnamed named] at hc
      cases k <;>
        · obtain rfl := Option.some_inj.1 hc
          decide
    | some name =>
      rw [text_named named] at hc
      obtain rfl := Option.some_inj.1 hc
      decide
  last := by
    have some : k.operand ≠ [] := by cases k <;> simp [operand, Text.ofString, nameList]
    exact .append_right (by simp [some]) (.append_right some (solid_operand h.tellable))

end Constraint

end SchemaDiagram
