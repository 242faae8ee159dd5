import SchemaDiagram.Proofs.Sql.Checked.ColumnTypes

/-!
# The longest type name

Several names of the vocabulary may stand at the head of one text. Each of them is then made of the
first words of a longer one, and the vocabulary has the longer one in front, so the first name that
is found there is the longest one.
-/

namespace SchemaDiagram.Sql

open Text (SameName)

/-- The words stand at the head of a text, in any letter case and with white space between them, and
`rest` is behind them. Each of them is compared with all the word characters that stand at its
place. -/
inductive Names : List Text → Text → Text → Prop where
  | last {w t} : SameName (t.takeWhile Text.isWordChar) w →
      Names [w] t (t.dropWhile Text.isWordChar)
  | more {w words t rest} : SameName (t.takeWhile Text.isWordChar) w →
      (t.dropWhile Text.isWordChar).head?.any Text.isBlankChar →
      Names words (Text.trimStart (t.dropWhile Text.isWordChar)) rest → Names (w :: words) t rest

theorem noWord_dropWhile (t : Text) :
    (t.dropWhile Text.isWordChar).head?.any Text.isWordChar = false := by
  have first := List.head?_dropWhile_not Text.isWordChar t
  cases eq : (t.dropWhile Text.isWordChar).head? with
  | none => rfl
  | some c => rwa [eq] at first

theorem behindWord?_eq_some_iff {w : Text} (isWord : IsWord w) {t rest : Text} :
    behindWord? w t = some rest ↔
      SameName (t.takeWhile Text.isWordChar) w ∧ t.dropWhile Text.isWordChar = rest := by
  constructor
  · intro found
    obtain ⟨v, rfl, same⟩ := Checked.exists_of_behindWord? found
    rw [Checked.behindWord?_of_sameName same] at found
    split at found
    · contradiction
    · next ends =>
      have chars (c : Char) (hc : c ∈ v) : Text.isWordChar c := ((isWord.spelled same).2 c hc).1
      have noWord : rest.head?.any Text.isWordChar = false := Bool.eq_false_iff.2 ends
      rw [takeWhile_append_of_head noWord, dropWhile_append_of_head noWord,
        List.takeWhile_eq_self_iff.2 chars, List.dropWhile_eq_nil_iff.2 chars]
      exact ⟨same, rfl⟩
  · rintro ⟨same, rfl⟩
    have found := behindWord?_spelled same (noWord_dropWhile t)
    rwa [List.takeWhile_append_dropWhile] at found

theorem behindWords?_eq_some_iff {words : List Text} (some : words ≠ [])
    (isWords : ∀ w ∈ words, IsWord w) {t rest : Text} :
    behindWords? words t = .some rest ↔ Names words t rest := by
  induction words generalizing t with
  | nil => contradiction
  | cons w words ih =>
    rw [List.forall_mem_cons] at isWords
    cases words with
    | nil =>
      constructor
      · intro found
        obtain ⟨same, rfl⟩ := (behindWord?_eq_some_iff isWords.1).1 found
        exact .last same
      · rintro (⟨same⟩ | ⟨_, _, ⟨⟩⟩)
        exact (behindWord?_eq_some_iff isWords.1).2 ⟨same, rfl⟩
    | cons w' words =>
      replace ih := @ih (List.cons_ne_nil w' words) isWords.2
      constructor
      · intro found
        rw [behindWords?_cons_cons] at found
        split at found
        · next c behind first =>
          obtain ⟨same, left⟩ := (behindWord?_eq_some_iff isWords.1).1 first
          split at found
          · next blank =>
            have trimmed : Text.trimStart (c :: behind) = Text.trimStart behind :=
              List.dropWhile_cons_of_pos blank
            refine .more same ?_ ?_
            · rw [left]
              exact blank
            · rw [left, trimmed]
              exact ih.1 found
          · contradiction
        · contradiction
      · rintro (_ | ⟨same, blank, behind⟩)
        have first := (behindWord?_eq_some_iff isWords.1).2 ⟨same, rfl⟩
        rw [behindWords?_cons_cons, first]
        cases left : t.dropWhile Text.isWordChar with
        | nil =>
          rw [left] at blank
          contradiction
        | cons c u =>
          rw [left] at blank behind
          have trimmed : Text.trimStart (c :: u) = Text.trimStart u :=
            List.dropWhile_cons_of_pos blank
          rw [trimmed] at behind
          have space : Text.isBlankChar c := blank
          dsimp only
          rw [if_pos space, ih.2 behind]

namespace Names

variable {words others : List Text} {t rest left : Text}

theorem ne_nil (h : Names words t rest) (isWords : ∀ w ∈ words, IsWord w) : t ≠ [] := by
  rintro rfl
  have nothing {w : Text} (same : SameName [] w) : w = [] := List.map_eq_nil_iff.1 same.symm
  cases h with
  | last same => exact (isWords _ List.mem_cons_self).1 (nothing same)
  | more same _ _ => exact (isWords _ List.mem_cons_self).1 (nothing same)

theorem endsWord (h : Names words t rest) : rest.head?.any Text.isWordChar = false := by
  induction h with
  | last => exact noWord_dropWhile _
  | more _ _ _ ih => exact ih

/-- Of two names at the head of one text, one is made of the first words of the other. -/
theorem prefix_or_prefix (h : Names words t rest) (k : Names others t left) :
    words.map Text.lower <+: others.map Text.lower ∨
      others.map Text.lower <+: words.map Text.lower := by
  induction h generalizing others with
  | @last w t same =>
    left
    cases k with
    | last same' =>
      rw [List.map_singleton, List.map_singleton, ← same, ← same']
    | more same' _ _ =>
      rw [List.map_singleton, List.map_cons, ← same, ← same']
      exact (List.prefix_cons_inj _).2 List.nil_prefix
  | @more w words t rest same _ _ ih =>
    cases k with
    | last same' =>
      right
      rw [List.map_singleton, List.map_cons, ← same, ← same']
      exact (List.prefix_cons_inj _).2 List.nil_prefix
    | more same' _ behind =>
      rw [List.map_cons, List.map_cons, ← same, ← same']
      exact (ih behind).imp (List.prefix_cons_inj _).2 (List.prefix_cons_inj _).2

end Names

/-- The first element that meets one condition and also meets another is the first one to meet
both. -/
theorem find?_and_of_find? {α : Type} {p q : α → Bool} {l : List α} {a : α}
    (first : l.find? p = some a) (also : q a) : l.find? (fun x => p x && q x) = some a := by
  obtain ⟨meets, before, after, rfl, earlier⟩ := List.find?_eq_some_iff_append.1 first
  refine List.find?_eq_some_iff_append.2 ⟨by rw [meets, also]; rfl, before, after, rfl, ?_⟩
  intro x mem
  simp [earlier x mem]

/-- A name that begins another one of the vocabulary is not found before it. -/
theorem eq_of_find?_beginning {p : List Text → Bool} {found words : List Text}
    (first : typeVocabulary.find? p = some found) (known : words ∈ typeVocabulary) (fits : p words)
    (begins : found.map Text.lower <+: words.map Text.lower) : found = words := by
  have byFound := find?_and_of_find? first (List.isPrefixOf_iff_prefix.2 begins)
    (q := fun v => (v.map Text.lower).isPrefixOf (words.map Text.lower))
  have byWords := find?_and_of_find? (find?_vocabulary words known) fits
  simp only [Bool.and_comm (p _)] at byFound
  rw [byFound] at byWords
  exact Option.some.inj byWords

def knownName? (t : Text) : Option (Text × Text) :=
  typeVocabulary.findSome? fun words =>
    (behindWords? words t).map fun rest => (Text.join [' '] words, rest)

def ownName? (t : Text) : Option (Text × Text) :=
  match dottedWord false t with
  | ([], _) => none
  | (word, rest) => some (Text.upper word, rest)

theorem typeName?_eq (t : Text) : typeName? t = (knownName? t).or (ownName? t) := rfl

theorem knownName?_eq_none_iff {t : Text} :
    knownName? t = none ↔ ∀ words ∈ typeVocabulary, ∀ rest, ¬Names words t rest := by
  rw [knownName?, List.findSome?_eq_none_iff]
  refine forall₂_congr fun words known => ?_
  obtain ⟨some, isWords⟩ := isWord_of_vocabulary words known
  rw [Option.map_eq_none_iff, Option.eq_none_iff_forall_ne_some]
  exact forall_congr' fun rest => not_congr (behindWords?_eq_some_iff some isWords)

/-- The longest name of the vocabulary at the head of a text, and the text behind it. -/
structure Longest (t : Text) (longest : List Text) (rest : Text) : Prop where
  known : longest ∈ typeVocabulary
  names : Names longest t rest
  shorter : ∀ words ∈ typeVocabulary, ∀ left, Names words t left →
    words = longest ∨ words.length < longest.length

theorem longest_of_knownName? {t name rest : Text} (h : knownName? t = some (name, rest)) :
    ∃ words, name = Text.join [' '] words ∧ Longest t words rest := by
  obtain ⟨before, words, after, split, here, earlier⟩ := List.findSome?_eq_some_iff.1 h
  obtain ⟨_, found, eq⟩ := Option.map_eq_some_iff.1 here
  obtain ⟨rfl, rfl⟩ := Prod.mk.inj eq
  have first : (typeVocabulary.find? fun words => (behindWords? words t).isSome) = some words := by
    rw [List.find?_eq_some_iff_append]
    refine ⟨by rw [found]; rfl, before, after, split, fun v mem => ?_⟩
    rw [Option.map_eq_none_iff.1 (earlier v mem)]
    rfl
  have known := List.mem_of_find?_eq_some first
  obtain ⟨some, isWords⟩ := isWord_of_vocabulary words known
  have names := (behindWords?_eq_some_iff some isWords).1 found
  refine ⟨words, rfl, known, names, fun others known' left names' => ?_⟩
  obtain ⟨some', isWords'⟩ := isWord_of_vocabulary others known'
  have found' := (behindWords?_eq_some_iff some' isWords').2 names'
  have earliest (begins : words.map Text.lower <+: others.map Text.lower) : others = words :=
    (eq_of_find?_beginning first known' (by rw [found']; rfl) begins).symm
  rcases names.prefix_or_prefix names' with begins | begins
  · exact .inl (earliest begins)
  · by_cases size : others.length < words.length
    · exact .inr size
    · -- equally many words are the same words, so the first name begins the other one too
      have short := begins.length_le
      rw [List.length_map, List.length_map] at short
      have same := begins.eq_of_length (by rw [List.length_map, List.length_map]; omega)
      exact .inl (earliest (by rw [same]))

/-- The type at the head of a text has the longest name of the vocabulary that stands there, in any
letter case and with any white space between its words. A name is found only where it stands, that
is where each of its words is a whole word of the text, and where no name of the vocabulary stands
the text is read as a type with a name of its own. -/
theorem columnType?_longest (t : Text) :
    (∀ words ∈ typeVocabulary, ∀ rest, behindWords? words (Text.trimStart t) = some rest ↔
      Names words (Text.trimStart t) rest) ∧
    (∀ words ∈ typeVocabulary, ∀ rest, Names words (Text.trimStart t) rest →
      rest.head?.any Text.isWordChar = false ∧
      ∃ longest left, Longest (Text.trimStart t) longest left ∧
        typeName? (Text.trimStart t) = some (Text.join [' '] longest, left) ∧
        columnType? t = some
          ⟨Text.join [' '] longest ++ (typeArguments left).1 ++
            (arraySuffixes (typeArguments left).2).1,
            (arraySuffixes (typeArguments left).2).2⟩) ∧
    ((∀ words ∈ typeVocabulary, ∀ rest, ¬Names words (Text.trimStart t) rest) →
      typeName? (Text.trimStart t) = ownName? (Text.trimStart t)) := by
  refine ⟨fun words known rest => ?_, fun words known rest names => ⟨names.endsWord, ?_⟩,
    fun unknown => ?_⟩
  · obtain ⟨some, isWords⟩ := isWord_of_vocabulary words known
    exact behindWords?_eq_some_iff some isWords
  · cases first : knownName? (Text.trimStart t) with
    | none => exact absurd names (knownName?_eq_none_iff.1 first words known rest)
    | some found =>
      obtain ⟨longest, name, isLongest⟩ := longest_of_knownName? first
      have named : typeName? (Text.trimStart t) = some (Text.join [' '] longest, found.2) := by
        rw [typeName?_eq, first, ← name]
        rfl
      have nonblank := isLongest.names.ne_nil (isWord_of_vocabulary longest isLongest.known).2
      exact ⟨longest, found.2, isLongest, named, WrittenType.columnType?_of_typeName? nonblank named
        (vocabulary_no_clause longest isLongest.known)⟩
  · rw [typeName?_eq, knownName?_eq_none_iff.2 unknown, Option.none_or]

/-- A name of four words behind the name that its first word is. -/
theorem columnType?_longTimestamp :
    let t := Text.ofString "\u2003TimeStamp\u00a0with\ttime  ZONE(3) not null"
    [Text.ofString "TIMESTAMP"] ∈ typeVocabulary ∧
      Names [Text.ofString "TIMESTAMP"] (Text.trimStart t)
        (Text.ofString "\u00a0with\ttime  ZONE(3) not null") ∧
      (∃ longest left, Longest (Text.trimStart t) longest left ∧
        typeName? (Text.trimStart t) = some (Text.join [' '] longest, left)) ∧
      typeName? (Text.trimStart t) =
        some (Text.ofString "TIMESTAMP WITH TIME ZONE", Text.ofString "(3) not null") := by
  intro t
  have known : [Text.ofString "TIMESTAMP"] ∈ typeVocabulary := by decide +kernel
  have found : behindWords? [Text.ofString "TIMESTAMP"] (Text.trimStart t) =
      some (Text.ofString "\u00a0with\ttime  ZONE(3) not null") := by decide +kernel
  obtain ⟨stands, longest, -⟩ := columnType?_longest t
  have names := (stands _ known _).1 found
  obtain ⟨-, words, left, isLongest, named, -⟩ := longest _ known _ names
  exact ⟨known, names, ⟨words, left, isLongest, named⟩, by decide +kernel⟩

end SchemaDiagram.Sql
