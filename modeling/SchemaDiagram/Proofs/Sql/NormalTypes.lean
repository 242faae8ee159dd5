import SchemaDiagram.Proofs.Sql.LetterCase.ColumnTypes
import SchemaDiagram.Proofs.Sql.LongestName
import SchemaDiagram.Proofs.Sql.TypeArguments
import SchemaDiagram.Proofs.UpperCase

/-!
# Normal names of types

The name that a type is shown with is read as a type of that same name. Each part of it is in a form
that reading leaves as it is: the words of a known name have single spaces between them, a name of
its own and the arguments are in upper case, and nothing stands between the parts.
-/

namespace SchemaDiagram.Sql

open Text (SameName Capital structureMarks upperFull upperChar)

theorem LiteralContent.capitals {quote : Char} (hq : quote ∈ structureMarks) {a t : Text}
    (capitals : ∀ c ∈ a, Capital c) (h : LiteralContent quote t) :
    LiteralContent quote (a ++ t) := by
  induction a with
  | nil => exact h
  | cons c a ih =>
    rw [List.forall_mem_cons] at capitals
    have noMark {d : Char} (hd : d ∈ structureMarks) : c ≠ d := by
      rintro rfl
      exact capitals.1.noMark hd
    exact .other (noMark hq) (noMark (by decide)) (ih capitals.2)

theorem LiteralContent.upperFull {quote : Char} (hq : quote ∈ structureMarks) {t : Text}
    (h : LiteralContent quote t) : LiteralContent quote (upperFull t) := by
  induction h with
  | nil => exact .nil
  | @other c t noQuote noBackslash _ ih =>
    rw [Text.upperFull_cons]
    rcases Text.upperChar_eq_or c with same | ⟨-, -, capitals⟩
    · rw [same]
      exact .other noQuote noBackslash ih
    · exact ih.capitals hq capitals
  | @escaped c t _ ih =>
    have backslash : upperChar '\\' = ['\\'] := by decide
    rw [Text.upperFull_cons, Text.upperFull_cons, backslash]
    rcases Text.upperChar_eq_or c with same | ⟨-, nonempty, capitals⟩
    · rw [same]
      exact .escaped ih
    · -- the backslash takes the first character of the upper case with it
      obtain ⟨d, made, eq⟩ := List.exists_cons_of_ne_nil nonempty
      rw [eq, List.forall_mem_cons] at capitals
      rw [eq]
      exact .escaped (ih.capitals hq capitals.2)

theorem wellNested_of_ordinary {t : Text} (h : ∀ c ∈ t, c ∉ ['\'', '"', '(', ')']) :
    WellNested t := by
  induction t with
  | nil => exact .nil
  | cons c t ih =>
    rw [List.forall_mem_cons] at h
    exact .append (.ordinary h.1) (ih h.2)

theorem WellNested.upperFull {t : Text} (h : WellNested t) : WellNested (upperFull t) := by
  induction h with
  | nil => exact .nil
  | @ordinary c noMark =>
    refine wellNested_of_ordinary fun d hd => ?_
    rw [Text.upperFull_cons, Text.upperFull_nil, List.append_nil] at hd
    rcases Text.upperChar_eq_or c with same | ⟨-, -, capitals⟩
    · rw [same, List.mem_singleton] at hd
      rwa [hd]
    · intro listed
      refine (capitals d hd).noMark ?_
      exact List.mem_append_left ['\\'] listed
  | @literal quote t hq content =>
    have listed : quote ∈ structureMarks := by rcases hq with rfl | rfl <;> decide
    rw [List.cons_append, Text.upperFull_cons, Text.upperFull_append,
      Text.upperChar_of_mark quote listed]
    have closed : Text.upperFull [quote] = [quote] := by
      rw [Text.upperFull_cons, Text.upperChar_of_mark quote listed]
      rfl
    rw [closed]
    exact .literal hq (content.upperFull listed)
  | @group t _ ih =>
    rw [List.cons_append, Text.upperFull_cons, Text.upperFull_append]
    exact .group ih
  | append _ _ iha ihb =>
    rw [Text.upperFull_append]
    exact .append iha ihb

inductive NormalArguments : Text → Prop where
  | none : NormalArguments []
  | group {inside} : WellNested inside → upperFull inside = inside →
      NormalArguments ('(' :: inside ++ [')'])

theorem normalArguments_typeArguments (t : Text) : NormalArguments (typeArguments t).1 := by
  unfold typeArguments
  split
  · next rest _ =>
    cases closed : closeGroup? rest with
    | none => exact .none
    | some cut =>
      have nested := (closeGroup?_eq_some_iff.1 closed).2
      have group : upperFull ('(' :: cut.1 ++ [')']) = '(' :: upperFull cut.1 ++ [')'] := by
        rw [List.cons_append, Text.upperFull_cons, Text.upperFull_append]
        rfl
      dsimp only
      rw [group]
      exact .group nested.upperFull (Text.upperFull_upperFull _)
  · exact .none

theorem NormalArguments.typeArguments {a y : Text} (h : NormalArguments a)
    (noGroup : (Text.trimStart y).head? ≠ some '(') : typeArguments (a ++ y) = (a, y) := by
  cases h with
  | none => exact typeArguments_of_head noGroup
  | @group inside nested upper =>
    have blank : Text.isBlank [] := rfl
    have found := typeArguments_of_balanced blank nested.balanced y
    have group : upperFull ('(' :: inside ++ [')']) = '(' :: inside ++ [')'] := by
      rw [List.cons_append, Text.upperFull_cons, Text.upperFull_append, upper]
      rfl
    rw [group] at found
    simpa using found

theorem exists_size_of_arraySuffix? {t suffix rest : Text}
    (h : arraySuffix? t = some (suffix, rest)) :
    ∃ size, (∀ c ∈ size, Text.isAsciiDigit c) ∧ suffix = '[' :: size ++ [']'] := by
  unfold arraySuffix? at h
  split at h
  · next inside _ =>
    dsimp only at h
    split at h
    · split at h
      · next digits =>
        obtain ⟨rfl, -⟩ := Prod.mk.inj (Option.some.inj h)
        exact ⟨_, List.all_eq_true.1 digits, rfl⟩
      · contradiction
    · contradiction
  · contradiction

theorem exists_sizes (t : Text) :
    ∃ sizes, (∀ s ∈ sizes, ∀ c ∈ s, Text.isAsciiDigit c) ∧
      (arraySuffixes t).1 = arrayText sizes := by
  induction t using arraySuffixes.induct with
  | case1 t none =>
    refine ⟨[], List.forall_mem_nil _, ?_⟩
    rw [arraySuffixes_eq, none]
    rfl
  | case2 t suffix rest some _ _ _ ih =>
    obtain ⟨size, digits, rfl⟩ := exists_size_of_arraySuffix? some
    obtain ⟨sizes, others, eq⟩ := ih
    refine ⟨size :: sizes, List.forall_mem_cons.2 ⟨digits, others⟩, ?_⟩
    rw [arraySuffixes_eq, some]
    simp only [eq]
    rfl

/-- A text that may stand right behind the word of a type: nothing, arguments or array suffixes. -/
def BehindWord (t : Text) : Prop := t.head?.all (· ∈ ['(', '['])

namespace BehindWord

variable {y : Text}

theorem cases (h : BehindWord y) : y = [] ∨ (∃ t, y = '(' :: t) ∨ ∃ t, y = '[' :: t := by
  cases y with
  | nil => exact .inl rfl
  | cons c t =>
    have listed : c = '(' ∨ c = '[' := by simpa [BehindWord] using h
    rcases listed with rfl | rfl
    · exact .inr (.inl ⟨t, rfl⟩)
    · exact .inr (.inr ⟨t, rfl⟩)

theorem endsName (h : BehindWord y) : EndsName y := by
  rcases h.cases with rfl | ⟨t, rfl⟩ | ⟨t, rfl⟩
  · exact endsName_nil
  · exact endsName_opening t
  · exact endsName_bracket t

theorem apart (h : BehindWord y) : Apart y := by
  rcases h.cases with rfl | ⟨t, rfl⟩ | ⟨t, rfl⟩ <;> rfl

theorem dottedWord_eq (h : BehindWord y) (started : Bool) : dottedWord started y = ([], y) := by
  rcases h.cases with rfl | ⟨t, rfl⟩ | ⟨t, rfl⟩
  · rfl
  · rw [dottedWord, if_neg (by simp [Text.isWordChar]; decide)]
  · rw [dottedWord, if_neg (by simp [Text.isWordChar]; decide)]

end BehindWord

theorem head?_dottedWord {t : Text} (word : t.head?.any Text.isWordChar) (y : Text) :
    ((dottedWord true t).1 ++ y).head?.any Text.isWordChar := by
  cases t with
  | nil => contradiction
  | cons c t =>
    have first : Text.isWordChar c := word
    rw [dottedWord, if_pos (by simp [first])]
    exact first

/-- The word is cut off alike in front of arguments, of array suffixes or of nothing. -/
theorem dottedWord_append_of_behindWord {y : Text} (h : BehindWord y) (started : Bool) (t : Text) :
    dottedWord started ((dottedWord started t).1 ++ y) = ((dottedWord started t).1, y) := by
  induction t generalizing started with
  | nil => exact h.dottedWord_eq started
  | cons c t ih =>
    rw [dottedWord]
    split
    · next taken =>
      have goesOn : Text.isWordChar c || c == '.' && started &&
          ((dottedWord true t).1 ++ y).head?.any Text.isWordChar := by
        rw [Bool.or_eq_true, Bool.and_eq_true] at taken ⊢
        exact taken.imp_right fun also => ⟨also.1, head?_dottedWord also.2 y⟩
      dsimp only
      rw [List.cons_append, dottedWord, if_pos goesOn, ih true]
    · exact h.dottedWord_eq started

theorem not_blank_of_mem_dottedWord (started : Bool) (t : Text) :
    ∀ c ∈ (dottedWord started t).1, Text.isBlankChar c = false := by
  induction t generalizing started with
  | nil => exact List.forall_mem_nil _
  | cons c t ih =>
    rw [dottedWord]
    split
    · next taken =>
      refine List.forall_mem_cons.2 ⟨?_, ih true⟩
      rcases Bool.or_eq_true_iff.1 taken with word | dot
      · exact isBlankChar_of_isWordChar word
      · obtain rfl : c = '.' := by simp_all
        rfl
    · exact List.forall_mem_nil _

theorem noWord_behind_dottedWord (started : Bool) (t : Text) :
    (dottedWord started t).2.head?.any Text.isWordChar = false := by
  induction t generalizing started with
  | nil => rfl
  | cons c t ih =>
    rw [dottedWord]
    split
    · exact ih true
    · next ended =>
      cases word : Text.isWordChar c with
      | false => exact word
      | true => simp [word] at ended

/-- Behind a word without white space no name of several words stands, and a name of one word is
that whole word. -/
theorem Names.of_noBlank {w y z left : Text} {words : List Text}
    (noBlank : ∀ c ∈ w, Text.isBlankChar c = false) (behind : BehindWord y)
    (ends : z.head?.any Text.isWordChar = false) (h : Names words (w ++ y) left) :
    ∃ left, Names words (w ++ z) left := by
  have noWord : y.head?.any Text.isWordChar = false := behind.endsName.noWord
  cases h with
  | @last x _ same =>
    rw [takeWhile_append_of_head noWord, ← takeWhile_append_of_head ends] at same
    exact ⟨_, .last same⟩
  | more _ blank _ =>
    rw [dropWhile_append_of_head noWord] at blank
    have first : ((w.dropWhile Text.isWordChar) ++ y).head?.any Text.isBlankChar = false := by
      cases eq : w.dropWhile Text.isWordChar with
      | nil => rcases behind.cases with rfl | ⟨t, rfl⟩ | ⟨t, rfl⟩ <;> rfl
      | cons c t =>
        have mem : c ∈ w.dropWhile Text.isWordChar := by
          rw [eq]
          exact List.mem_cons_self
        exact noBlank c ((List.dropWhile_suffix _).mem mem)
    rw [first] at blank
    contradiction

/-- A name of its own is read alike in front of arguments, of array suffixes or of nothing. -/
theorem typeName?_ownName {t base rest : Text} (unknown : knownName? t = none)
    (own : ownName? t = some (base, rest)) {y : Text} (behind : BehindWord y) :
    ∃ w, base = Text.upper w ∧ typeName? (w ++ y) = some (base, y) := by
  have whole := Checked.dottedWord_append false t
  have noBlank := not_blank_of_mem_dottedWord false t
  have ends := noWord_behind_dottedWord false t
  have again := dottedWord_append_of_behindWord behind false t
  rw [ownName?] at own
  rcases word : dottedWord false t with ⟨_ | ⟨c, w⟩, z⟩
  · rw [word] at own
    contradiction
  · rw [word] at own whole noBlank ends again
    obtain ⟨rfl, rfl⟩ := Prod.mk.inj (Option.some.inj own)
    dsimp only at whole
    have still : knownName? (c :: w ++ y) = none := by
      rw [knownName?_eq_none_iff] at unknown ⊢
      intro words known left names
      obtain ⟨left', names'⟩ := names.of_noBlank noBlank behind ends
      rw [whole] at names'
      exact unknown words known left' names'
    refine ⟨c :: w, rfl, ?_⟩
    rw [typeName?_eq, still, Option.none_or, ownName?, again]

theorem suffix_of_typeName? {t base rest : Text} (h : typeName? t = some (base, rest)) :
    rest <:+ t := by
  obtain ⟨found, -, related⟩ := (Checked.StartsAt.start t).matchBareType?
  rw [h] at related
  cases related with
  | some place =>
    obtain ⟨front, eq, -⟩ := place.2
    exact ⟨front, eq.symm⟩

/-- In another letter case the name is the same, and the same text is left. -/
theorem typeName?_spelled {v w y base : Text} (same : SameName v w)
    (h : typeName? (w ++ y) = some (base, y)) : typeName? (v ++ y) = some (base, y) := by
  have lowered : Text.lower (v ++ y) = Text.lower (w ++ y) := by
    rw [Text.lower_append, Text.lower_append, same]
  have found := typeName?_lower (v ++ y)
  rw [lowered, typeName?_lower, h] at found
  obtain ⟨⟨base', rest⟩, read, eq⟩ := Option.map_eq_some_iff.1 found.symm
  obtain ⟨rfl, left⟩ := Prod.mk.inj eq
  have size : rest.length = y.length := by
    have lengths := congrArg List.length left
    simpa using lengths
  obtain rfl : rest = y :=
    (List.suffix_of_suffix_length_le (suffix_of_typeName? read) (List.suffix_append v y)
      (Nat.le_of_eq size)).eq_of_length size
  exact read

theorem sameName_upper (t : Text) : SameName (Text.upper t) t := by
  simp [SameName, Text.lower, Text.upper, Function.comp_def]

theorem trimStart_of_typeName? {t : Text} {found : Text × Text} (h : typeName? t = some found) :
    Text.trimStart t = t ∧ t ≠ [] := by
  obtain ⟨c, rest, rfl, noBlank⟩ := exists_head_of_typeName? h
  refine ⟨Text.trimStart_eq_self fun d first => ?_, List.cons_ne_nil c rest⟩
  obtain rfl : c = d := Option.some.inj first
  exact noBlank

theorem trimStart_join {words : List Text} (some : words ≠ []) (isWords : ∀ w ∈ words, IsWord w)
    (y : Text) : Text.trimStart (Text.join [' '] words ++ y) = Text.join [' '] words ++ y := by
  match words with
  | [w] =>
    have alone : Text.join [' '] [w] = w := by simp [Text.join]
    rw [alone]
    exact (isWords w List.mem_cons_self).trimStart y
  | v :: w :: words =>
    rw [join_cons_cons]
    exact (isWords v List.mem_cons_self).trimStart _

/-- The bare name of a type is read as itself in front of arguments, of array suffixes or of
nothing. -/
theorem typeName?_base {t base rest : Text} (h : typeName? t = some (base, rest)) {y : Text}
    (behind : BehindWord y) : typeName? (base ++ y) = some (base, y) := by
  rw [typeName?_eq] at h
  cases known : knownName? t with
  | some found =>
    rw [known] at h
    obtain rfl := Option.some.inj h
    obtain ⟨words, rfl, longest⟩ := longest_of_knownName? known
    obtain ⟨some, isWords⟩ := isWord_of_vocabulary words longest.known
    have read := typeName?_phrase (phrase_join some behind.apart) longest.known behind.endsName
    rwa [trimStart_join some isWords] at read
  | none =>
    rw [known, Option.none_or] at h
    obtain ⟨w, rfl, read⟩ := typeName?_ownName known h behind
    exact typeName?_spelled (sameName_upper w) read

theorem noWord_of_typeName? {c : Char} {t : Text} (h : typeName? (c :: t) = none) :
    Text.isWordChar c = false := by
  cases word : Text.isWordChar c with
  | false => rfl
  | true =>
    rw [typeName?_eq, Option.or_eq_none_iff] at h
    have own := h.2
    rw [ownName?, dottedWord, if_pos (by simp [word])] at own
    contradiction

/-- A text without a word at its head is a type as a whole, up to the next white space. -/
theorem columnType?_token {c : Char} {t : Text} (noWord : Text.isWordChar c = false)
    (noBlank : ∀ d ∈ c :: t, Text.isBlankChar d = false) :
    columnType? (upperFull (c :: t)) = some ⟨upperFull (c :: t), []⟩ := by
  have first : upperFull (c :: t) = c :: upperFull t := by
    rw [Text.upperFull_cons, Text.upperChar_of_noWord noWord]
    rfl
  have blanks := Text.upperFull_no_blank noBlank
  have again := Text.upperFull_upperFull (c :: t)
  rw [first] at blanks again ⊢
  have start : Text.trimStart (c :: upperFull t) = c :: upperFull t := by
    refine Text.trimStart_eq_self fun d hd => blanks d ?_
    exact List.mem_of_head? hd
  have inside : ∀ d ∈ c :: upperFull t, (!Text.isBlankChar d) = true := by
    intro d hd
    rw [blanks d hd]
    rfl
  have none : typeName? (c :: upperFull t) = none := typeName?_of_noWord noWord
  have taken := List.takeWhile_eq_self_iff.2 inside
  have left := List.dropWhile_eq_nil_iff.2 inside
  rw [columnType?_eq (by rw [start]; exact List.cons_ne_nil _ _), start, none]
  simp only [taken, left, again]

theorem behindWord_arrayText (sizes : List Text) : BehindWord (arrayText sizes) := by
  cases sizes <;> rfl

theorem NormalArguments.behindWord {a : Text} (h : NormalArguments a) (sizes : List Text) :
    BehindWord (a ++ arrayText sizes) := by
  cases h with
  | none => exact behindWord_arrayText sizes
  | group => rfl

theorem head?_trimStart_arrayText (sizes : List Text) :
    (Text.trimStart (arrayText sizes)).head? ≠ some '(' := by
  cases sizes with
  | nil => simp [arrayText, Text.trimStart]
  | cons size sizes =>
    intro head
    have opened : some '[' = some '(' := head
    simp at opened

/-- A bare name with its arguments and array suffixes behind it is read as that whole text. -/
theorem columnType?_parts {t base rest arguments : Text} {sizes : List Text}
    (found : typeName? t = some (base, rest)) (noClause : Text.isAmong base clauseWords = false)
    (normal : NormalArguments arguments) (digits : ∀ s ∈ sizes, ∀ c ∈ s, Text.isAsciiDigit c) :
    columnType? (base ++ arguments ++ arrayText sizes) =
      some ⟨base ++ arguments ++ arrayText sizes, []⟩ := by
  have named := typeName?_base found (normal.behindWord sizes)
  obtain ⟨start, nonblank⟩ := trimStart_of_typeName? named
  have suffixes := arraySuffixes_arrayText digits (t := []) (by simp [Text.trimStart])
  rw [List.append_nil] at suffixes
  rw [← start] at nonblank named
  rw [List.append_assoc, WrittenType.columnType?_of_typeName? nonblank named noClause,
    normal.typeArguments (head?_trimStart_arrayText sizes), suffixes, List.append_assoc]

theorem columnType?_name {t : Text} {m : ColumnType} (read : columnType? t = some m) :
    columnType? m.name = some ⟨m.name, []⟩ := by
  by_cases blank : Text.trimStart t = []
  · rw [columnType?, blank] at read
    contradiction
  rw [columnType?_eq blank] at read
  cases found : typeName? (Text.trimStart t) with
  | none =>
    rw [found] at read
    obtain rfl := Option.some.inj read
    have ends := List.head?_dropWhile_not Text.isBlankChar t
    rw [← Text.trimStart] at ends
    cases start : Text.trimStart t with
    | nil => contradiction
    | cons c u =>
      rw [start] at found ends
      have first : (!Text.isBlankChar c) = true := by
        rw [ends]
        rfl
      dsimp only
      rw [List.takeWhile_cons_of_pos (p := fun d => !Text.isBlankChar d) first]
      refine columnType?_token (noWord_of_typeName? found) (List.forall_mem_cons.2 ⟨ends, ?_⟩)
      intro d hd
      simpa using List.mem_takeWhile_imp hd
  | some cut =>
    obtain ⟨base, rest⟩ := cut
    rw [found] at read
    dsimp only at read
    split at read
    · contradiction
    · next noClause =>
      obtain rfl := Option.some.inj read
      obtain ⟨sizes, digits, arrays⟩ := exists_sizes (typeArguments rest).2
      dsimp only
      rw [arrays]
      exact columnType?_parts found (Bool.eq_false_iff.2 noClause)
        (normalArguments_typeArguments rest) digits

/-- The name of a type is read as a type of that name, and all of it belongs to the type. The type
itself ends in its text, at a place where a character begins. -/
theorem columnType?_normal {t : Text} {m : ColumnType} (read : columnType? t = some m) :
    (∃ stop, Checked.matchType? t = .ok (some (m.name, stop)) ∧ stop ≤ t.byteLength ∧
      Checked.StartsAt t stop m.rest) ∧
    columnType? m.name = some ⟨m.name, []⟩ ∧
    Checked.matchType? m.name = .ok (some (m.name, m.name.byteLength)) := by
  have again := columnType?_name read
  refine ⟨?_, again, ?_⟩
  · obtain ⟨found, matched, related⟩ := Checked.StartsAt.matchType? t
    rw [read] at related
    cases related with
    | @some found _ related =>
      obtain ⟨name, stop⟩ := found
      obtain ⟨rfl, place⟩ := related
      exact ⟨stop, matched, place.le_byteLength, place⟩
  · obtain ⟨found, matched, related⟩ := Checked.StartsAt.matchType? m.name
    rw [again] at related
    cases related with
    | @some found _ related =>
      obtain ⟨name, stop⟩ := found
      obtain ⟨rfl, place⟩ := related
      have size : stop = m.name.byteLength := place.unique (Checked.StartsAt.stop _)
      rw [matched, size]

/-- A name of two words, a parenthesis and a letter that becomes two in a literal, and blanks around
the size of an array. -/
theorem columnType?_stretched :
    let t := Text.ofString "  Double\u2003Precision ( 'ß)' ) [ 3 ] not null"
    let name := Text.ofString "DOUBLE PRECISION( 'SS)' )[3]"
    columnType? t = some ⟨name, Text.ofString " not null"⟩ ∧ columnType? name = some ⟨name, []⟩ ∧
      Checked.matchType? name = .ok (some (name, name.byteLength)) := by
  intro t name
  have named : typeName? (Text.trimStart t) =
      some (Text.ofString "DOUBLE PRECISION", Text.ofString " ( 'ß)' ) [ 3 ] not null") := by
    decide +kernel
  have grouped : typeArguments (Text.ofString " ( 'ß)' ) [ 3 ] not null") =
      (Text.ofString "( 'SS)' )", Text.ofString " [ 3 ] not null") := by decide +kernel
  have sized : arraySuffix? (Text.ofString " [ 3 ] not null") =
      some (Text.ofString "[3]", Text.ofString " not null") := by decide +kernel
  have ended : arraySuffix? (Text.ofString " not null") = none := by decide +kernel
  have nonblank : Text.trimStart t ≠ [] := by decide +kernel
  have read : columnType? t = some ⟨name, Text.ofString " not null"⟩ := by
    rw [WrittenType.columnType?_of_typeName? nonblank named (by decide +kernel), grouped,
      arraySuffixes_eq, sized]
    dsimp only
    rw [arraySuffixes_eq, ended]
    rfl
  obtain ⟨-, again, whole⟩ := columnType?_normal read
  exact ⟨read, again, whole⟩

end SchemaDiagram.Sql
