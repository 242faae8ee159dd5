import SchemaDiagram.Proofs.LetterCase
import SchemaDiagram.Proofs.Sql.Locality

/-!
# Words in any spelling

What a text begins with can be written in many ways: words in any letter case, names in any quoting,
all of them behind any white space. Each relation here says that a text begins with something and
goes on with another text. Reading finds what stands there and leaves that other text.
-/

namespace SchemaDiagram.Sql

open Text (SameName isBlank)

/-- The text begins with white space, unless it is empty. -/
def Spaced (t : Text) : Prop := t.head?.all Text.isBlankChar

theorem Spaced.delimited {t : Text} (h : Spaced t) : Delimited t := by
  cases t with
  | nil => rfl
  | cons c t => exact separates_of_isBlankChar h

theorem firstToken?_behind_blank {b : Text} (h : isBlank b) (t : Text) :
    firstToken? (b ++ t) = firstToken? t :=
  firstToken?_blank_append (List.all_eq_true.1 h) t

theorem firstToken?_isBlank {b : Text} (h : isBlank b) : firstToken? b = none := by
  have behind := firstToken?_behind_blank h []
  rwa [List.append_nil] at behind

theorem trimStart_behind_blank {b : Text} (h : isBlank b) (t : Text) :
    Text.trimStart (b ++ t) = Text.trimStart t :=
  List.dropWhile_append_of_pos (List.all_eq_true.1 h)

theorem splits_blank {a b : Text} (h : isBlank a) : Splits a b := by
  induction a with
  | nil => exact .nil b
  | cons c a ih =>
    rw [isBlank, List.all_cons, Bool.and_eq_true] at h
    exact .gap (startsToken_of_isBlankChar h.1 _) (ih h.2)

theorem isNameChar_toLower (c : Char) : isNameChar c.toLower = isNameChar c := by
  simp [isNameChar, Text.beq_toLower]

theorem isBareWord_lower (w : Text) : isBareWord (Text.lower w) = isBareWord w := by
  cases w with
  | nil => rfl
  | cons c w => simp [isBareWord, Text.beq_toLower, Text.all_lower isNameChar_toLower]

theorem isBareWord_congr {v w : Text} (h : SameName v w) : isBareWord v = isBareWord w := by
  rw [← isBareWord_lower v, ← isBareWord_lower w, h]

theorem upper_congr {v w : Text} (h : SameName v w) : Text.upper v = Text.upper w := by
  rw [← Text.upper_lower v, ← Text.upper_lower w, h]

theorem ofWord_keyword {v w : Text} {k : Keyword} (h : SameName v w)
    (known : Token.ofWord w = .keyword k w) : Token.ofWord v = .keyword k v := by
  unfold Token.ofWord at known ⊢
  rw [upper_congr h]
  split at known
  · exact congrArg (Token.keyword · v) (Token.keyword.inj known).1
  · contradiction

theorem ofWord_name {v w : Text} (h : SameName v w) (known : Token.ofWord w = .name w) :
    Token.ofWord v = .name v := by
  unfold Token.ofWord at known ⊢
  rw [upper_congr h]
  split at known
  · contradiction
  · rfl

/-- The text begins with these words and goes on with `rest`. -/
inductive Phrase (rest : Text) : List Text → Text → Prop where
  | nil : Phrase rest [] rest
  | cons {b v w words t} : isBlank b → SameName v w → Apart t → Phrase rest words t →
      Phrase rest (w :: words) (b ++ (v ++ t))

theorem Phrase.apart {rest t : Text} {words : List Text} (h : Phrase rest words t)
    (some : words ≠ []) : Apart rest := by
  induction h with
  | nil => contradiction
  | @cons _ _ _ words _ _ _ apart behind ih =>
    cases words with
    | nil =>
      cases behind
      exact apart
    | cons => exact ih (List.cons_ne_nil _ _)

theorem Phrase.behind_blank {rest t b : Text} {words : List Text} (h : Phrase rest words t)
    (some : words ≠ []) (blank : isBlank b) : Phrase rest words (b ++ t) := by
  cases h with
  | nil => contradiction
  | @cons b' v _ _ u blank' same apart behind =>
    have both : isBlank (b ++ b') := by
      rw [isBlank, List.all_append, Bool.and_eq_true]
      exact ⟨blank, blank'⟩
    rw [← List.append_assoc]
    exact .cons both same apart behind

theorem Phrase.firstToken? {t rest w : Text} {words : List Text} (h : Phrase rest (w :: words) t)
    (bare : isBareWord w) :
    ∃ v u, SameName v w ∧ firstToken? t = some (.ofWord v, u) ∧ Phrase rest words u := by
  cases h with
  | @cons b v _ _ u blank same apart behind =>
    have bare' : isBareWord v := (isBareWord_congr same).trans bare
    refine ⟨v, u, same, ?_, behind⟩
    rw [firstToken?_behind_blank blank, firstToken?_bareWord bare' apart]

theorem Phrase.keyword {t rest w : Text} {words : List Text} {k : Keyword}
    (h : Phrase rest (w :: words) t) (bare : isBareWord w)
    (known : Token.ofWord w = .keyword k w) :
    ∃ v u, Sql.firstToken? t = some (.keyword k v, u) ∧ Phrase rest words u := by
  obtain ⟨v, u, same, first, behind⟩ := h.firstToken? bare
  exact ⟨v, u, by rw [first, ofWord_keyword same known], behind⟩

theorem Phrase.eat {t rest w : Text} {words : List Text} {k : Keyword}
    (h : Phrase rest (w :: words) t) (bare : isBareWord w)
    (known : Token.ofWord w = .keyword k w) :
    ∃ u, Reader.eat k t = (true, u) ∧ Phrase rest words u := by
  obtain ⟨v, u, first, behind⟩ := h.keyword bare known
  exact ⟨u, Reader.eat_true first, behind⟩

theorem Phrase.eatWord {t rest w : Text} {words : List Text} (h : Phrase rest (w :: words) t)
    (bare : isBareWord w) (known : Token.ofWord w = .name w) :
    ∃ u, Reader.eatWord w t = (true, u) ∧ Phrase rest words u := by
  obtain ⟨v, u, same, first, behind⟩ := h.firstToken? bare
  rw [ofWord_name same known] at first
  refine ⟨u, Reader.eatIf_true first ?_, behind⟩
  simpa [Token.isWord] using same

theorem isWord_ofWord {v w : Text} (h : SameName v w) (word : Text) :
    Token.isWord word (.ofWord v) = Token.isWord word (.ofWord w) := by
  unfold Token.ofWord
  rw [upper_congr h]
  split
  · rfl
  · have same : SameName v word ↔ SameName w word := ⟨h.symm.trans, h.trans⟩
    simp [Token.isWord, same]

theorem Phrase.eatWord_other {t rest w x : Text} {words : List Text}
    (h : Phrase rest (w :: words) t) (bare : isBareWord w)
    (other : Token.isWord x (.ofWord w) = false) : Reader.eatWord x t = (false, t) := by
  obtain ⟨v, u, same, first, -⟩ := h.firstToken? bare
  apply Reader.eatIf_false
  intro token rest' first'
  rw [first] at first'
  obtain ⟨rfl, -⟩ := Prod.mk.inj (Option.some_inj.1 first')
  exact (isWord_ofWord same x).trans other

end SchemaDiagram.Sql
