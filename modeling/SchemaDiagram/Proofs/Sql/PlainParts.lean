import SchemaDiagram.Proofs.Sql.ColumnParts

/-!
# Parts written out

Any parts can be written, with or without names of their own: their words in upper case, names in
double quotes, and a single space in front of each word.
-/

namespace SchemaDiagram.Sql

open Text (isBlank)

def spacedWords (words : List Text) : Text := words.flatMap (' ' :: ·)

theorem apart_spacedWords (words : List Text) {t : Text} (ht : Apart t) :
    Apart (spacedWords words ++ t) := by
  cases words with
  | nil => exact ht
  | cons => rfl

theorem phrase_spacedWords (words : List Text) {t : Text} (ht : Apart t) :
    Phrase t words (spacedWords words ++ t) := by
  induction words with
  | nil => exact .nil
  | cons w words ih =>
    have first : spacedWords (w :: words) ++ t = [' '] ++ (w ++ (spacedWords words ++ t)) := by
      simp [spacedWords]
    rw [first]
    exact .cons rfl (.refl w) (apart_spacedWords words ht) ih

def plainActions (actions : List (Trigger × ReferentialAction)) : Text :=
  actions.flatMap fun a => spacedWords (Text.ofString "ON" :: a.1.word :: a.2.words)

namespace Part

def plainOperand : Part → Text
  | default e => ' ' :: e
  | check g => ' ' :: g
  | computed g => ' ' :: g
  | references table column actions =>
    ' ' :: (quoted table ++ ' ' :: '(' :: (quoted column ++ ')' :: plainActions actions))
  | _ => []

def Writable : Part → Prop
  | default e => e ≠ [] ∧ Clear e ∧ Scan.start.avoids Scan.stops e
  | check g => ∃ inside, g = '(' :: inside ++ [')'] ∧ Clear inside
  | computed g => ∃ inside, g = '(' :: inside ++ [')'] ∧ Clear inside
  | _ => True

end Part

/-- Each part as its words and its operand, with the name in front that it may have. -/
def plainParts : List (Option Text × Part) → Text
  | [] => []
  | (label, p) :: parts =>
    (label.elim [] fun name => spacedWords [Text.ofString "CONSTRAINT"] ++ ' ' :: quoted name) ++
      (spacedWords p.words ++ (p.plainOperand ++ plainParts parts))

theorem Spaced.apart {t : Text} (h : Spaced t) : Apart t := h.delimited.apart

theorem Spaced.no_quote {t : Text} (h : Spaced t) : t.head? ≠ some '"' := by
  intro head
  rw [Spaced, head] at h
  contradiction

theorem identifier_quoted (name : Text) {b rest : Text} (blank : isBlank b)
    (ends : rest.head? ≠ some '"') : Identifier rest name (b ++ (quoted name ++ rest)) :=
  .quoted .doubleQuotes blank (by simp) ends

theorem actionsText_plain (actions : List (Trigger × ReferentialAction)) {rest : Text}
    (h : Spaced rest) :
    Spaced (plainActions actions ++ rest) ∧
      ActionsText rest actions (plainActions actions ++ rest) := by
  induction actions with
  | nil => exact ⟨h, .nil⟩
  | cons a actions ih =>
    have first : plainActions (a :: actions) ++ rest =
        spacedWords (Text.ofString "ON" :: a.1.word :: a.2.words) ++
          (plainActions actions ++ rest) := by
      simp [plainActions]
    rw [first]
    exact ⟨rfl, .cons (phrase_spacedWords _ ih.1.apart) ih.2⟩

namespace Part

theorem spaced_plainOperand (p : Part) {rest : Text} (h : Spaced rest) :
    Spaced (p.plainOperand ++ rest) := by
  cases p
  all_goals first | exact h | rfl

theorem Writable.operand {p : Part} (hp : p.Writable) {rest : Text} (h : Spaced rest) :
    p.Operand rest (p.plainOperand ++ rest) := by
  cases p with
  | primaryKey => exact .primaryKey
  | notNull => exact .notNull
  | null => exact .null
  | unique => exact .unique
  | autoIncrement => exact .autoIncrement
  | identity => exact .identity
  | default e =>
    obtain ⟨nonempty, clear, whole⟩ := hp
    exact .default (@ExpressionText.intro rest [' '] e rfl nonempty clear whole h)
  | check g =>
    obtain ⟨inside, rfl, clear⟩ := hp
    exact .check (@GroupText.intro rest [' '] inside rfl clear)
  | computed g =>
    obtain ⟨inside, rfl, clear⟩ := hp
    exact .computed (@GroupText.intro rest [' '] inside rfl clear)
  | references table column actions =>
    have text : (references table column actions).plainOperand ++ rest =
        [' '] ++ (quoted table ++ ([' '] ++ '(' :: ([] ++ (quoted column ++
          ([] ++ ')' :: (plainActions actions ++ rest)))))) := by
      simp [plainOperand]
    rw [text]
    exact .references (.identifier (identifier_quoted table rfl (by simp)))
      (.intro rfl rfl (.identifier (identifier_quoted column rfl (by simp))))
      (actionsText_plain actions h).2

end Part

theorem partsText_plain {parts : List (Option Text × Part)} (h : ∀ p ∈ parts, p.2.Writable) :
    Spaced (plainParts parts) ∧ PartsText (parts.map (·.2)) (plainParts parts) := by
  induction parts with
  | nil => exact ⟨rfl, .nil rfl⟩
  | cons lp parts ih =>
    obtain ⟨label, p⟩ := lp
    rw [List.forall_mem_cons] at h
    obtain ⟨spaced, behind⟩ := ih h.2
    have operand := h.1.operand spaced
    have words := phrase_spacedWords p.words (p.spaced_plainOperand spaced).apart
    have begins : Spaced (spacedWords p.words ++ (p.plainOperand ++ plainParts parts)) := by
      obtain ⟨w, others, _, eq, -⟩ := p.words_eq
      rw [eq]
      rfl
    cases label with
    | none => exact ⟨begins, .cons .plain words operand behind⟩
    | some name =>
      have named := identifier_quoted name (b := [' ']) rfl begins.no_quote
      have label := phrase_spacedWords [Text.ofString "CONSTRAINT"]
        (t := [' '] ++ (quoted name ++ (spacedWords p.words ++
          (p.plainOperand ++ plainParts parts)))) rfl
      refine ⟨rfl, .cons (.named ?_ named) words operand behind⟩
      simpa [plainParts] using label

end SchemaDiagram.Sql
