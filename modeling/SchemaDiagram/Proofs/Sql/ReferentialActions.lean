import SchemaDiagram.Proofs.Sql.ClauseLocality

/-!
# Referential actions in any spelling

An ON clause names a trigger and an action. The words of an action are keywords, or names that are
compared in any letter case.
-/

namespace SchemaDiagram

def ReferentialAction.words : ReferentialAction → List Text
  | cascade => [Text.ofString "CASCADE"]
  | restrict => [Text.ofString "RESTRICT"]
  | setNull => [Text.ofString "SET", Text.ofString "NULL"]
  | setDefault => [Text.ofString "SET", Text.ofString "DEFAULT"]
  | noAction => [Text.ofString "NO", Text.ofString "ACTION"]

namespace Sql

def Trigger.word : Trigger → Text
  | delete => Text.ofString "DELETE"
  | update => Text.ofString "UPDATE"

/-- ON clauses one after the other, the text `rest` behind them. -/
inductive ActionsText (rest : Text) : List (Trigger × ReferentialAction) → Text → Prop where
  | nil : ActionsText rest [] rest
  | cons {t u trigger action others} :
      Phrase u (Text.ofString "ON" :: trigger.word :: action.words) t →
      ActionsText rest others u → ActionsText rest ((trigger, action) :: others) t

namespace Reader

variable {t u : Text}

theorem referentialAction?_phrase {action : ReferentialAction} (h : Phrase u action.words t) :
    referentialAction? t = (some action, u) := by
  cases action with
  | cascade =>
    obtain ⟨v, eaten, _ | _⟩ := h.eatWord rfl rfl
    exact bind_of eaten
  | restrict =>
    have noCascade := h.eatWord_other (x := Text.ofString "CASCADE") rfl rfl
    obtain ⟨v, eaten, _ | _⟩ := h.eatWord rfl rfl
    exact (bind_of noCascade).trans (bind_of eaten)
  | setNull =>
    have noCascade := h.eatWord_other (x := Text.ofString "CASCADE") rfl rfl
    have noRestrict := h.eatWord_other (x := Text.ofString "RESTRICT") rfl rfl
    obtain ⟨v, eaten, behind⟩ := h.eatWord rfl rfl
    obtain ⟨w, null, _ | _⟩ := behind.eat (k := .null) rfl rfl
    refine (bind_of noCascade).trans ((bind_of noRestrict).trans ?_)
    exact (bind_of eaten).trans (bind_of null)
  | setDefault =>
    have noCascade := h.eatWord_other (x := Text.ofString "CASCADE") rfl rfl
    have noRestrict := h.eatWord_other (x := Text.ofString "RESTRICT") rfl rfl
    obtain ⟨v, eaten, behind⟩ := h.eatWord rfl rfl
    obtain ⟨spelled, w, first, _ | _⟩ := behind.keyword (k := .default) rfl rfl
    refine (bind_of noCascade).trans ((bind_of noRestrict).trans ?_)
    refine (bind_of eaten).trans ((bind_of (eat_other first (by decide))).trans ?_)
    exact bind_of (eat_true first)
  | noAction =>
    have noCascade := h.eatWord_other (x := Text.ofString "CASCADE") rfl rfl
    have noRestrict := h.eatWord_other (x := Text.ofString "RESTRICT") rfl rfl
    have noSet := h.eatWord_other (x := Text.ofString "SET") rfl rfl
    obtain ⟨v, eaten, behind⟩ := h.eatWord rfl rfl
    obtain ⟨w, last, _ | _⟩ := behind.eatWord rfl rfl
    refine (bind_of noCascade).trans ((bind_of noRestrict).trans ((bind_of noSet).trans ?_))
    exact (bind_of eaten).trans (bind_of last)

theorem referentialClause?_phrase {trigger : Trigger} {action : ReferentialAction}
    (h : Phrase u (Text.ofString "ON" :: trigger.word :: action.words) t) :
    referentialClause? t = (some (trigger, some action), u) := by
  obtain ⟨v, on, behind⟩ := h.eat (k := .on) rfl rfl
  refine (bind_of on).trans ?_
  cases trigger with
  | delete =>
    obtain ⟨w, delete, words⟩ := behind.eat (k := .delete) rfl rfl
    exact (bind_of delete).trans (bind_of (referentialAction?_phrase words))
  | update =>
    obtain ⟨spelled, w, first, words⟩ := behind.keyword (k := .update) rfl rfl
    refine (bind_of (eat_other first (by decide))).trans ?_
    exact (bind_of (eat_true first)).trans (bind_of (referentialAction?_phrase words))

theorem referentialClauses_actionsText {rest : Text} {actions : List (Trigger × ReferentialAction)}
    (h : ActionsText rest actions t) (ends : eat .on rest = (false, rest)) :
    referentialClauses t = (actions.map fun a => (a.1, some a.2), rest) := by
  induction h with
  | nil =>
    have none : referentialClause? rest = (none, rest) := bind_of ends
    rw [referentialClauses_eq, none]
    rfl
  | cons first _ ih =>
    rw [referentialClauses_eq, referentialClause?_phrase first]
    dsimp only
    rw [ih]
    rfl

end Reader

end Sql

end SchemaDiagram
