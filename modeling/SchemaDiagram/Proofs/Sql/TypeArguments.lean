import SchemaDiagram.Proofs.Sql.Nesting
import SchemaDiagram.Proofs.Sql.PartedColumn
import SchemaDiagram.Proofs.Sql.TokenLocality

/-!
# Arguments of types

The arguments of a type stand in parentheses behind its name, and the clauses of the column are read
behind them. So they are part of the column's type and of nothing else, but for one thing: whether
a column numbers its rows is looked up in the whole text of its type, arguments included.
-/

namespace SchemaDiagram.Sql

open Text (isBlank)

def OpensGroup (t : Text) : Prop := (Text.trimStart t).head? = some '('

theorem opensGroup_behind_blank {gap : Text} (blank : isBlank gap) (t : Text) :
    OpensGroup (gap ++ '(' :: t) := by
  rw [OpensGroup, trimStart_behind_blank blank]
  rfl

namespace OpensGroup

variable {y : Text}

theorem exists_cons (h : OpensGroup y) :
    ∃ c t, y = c :: t ∧ (c = '(' ∨ Text.isBlankChar c) := by
  cases y with
  | nil => contradiction
  | cons c t =>
    refine ⟨c, t, rfl, ?_⟩
    by_cases blank : Text.isBlankChar c
    · exact .inr blank
    · left
      have first : Text.trimStart (c :: t) = c :: t := List.dropWhile_cons_of_neg blank
      rw [OpensGroup, first] at h
      exact Option.some_inj.1 h

theorem apart (h : OpensGroup y) : Apart y := by
  obtain ⟨c, t, rfl, rfl | blank⟩ := h.exists_cons
  · rfl
  · exact isNameChar_of_isBlankChar blank

theorem head_ne_dot (h : OpensGroup y) : y.head? ≠ some '.' := by
  obtain ⟨c, t, rfl, rfl | blank⟩ := h.exists_cons
  · simp
  · intro dot
    obtain rfl : c = '.' := Option.some_inj.1 dot
    contradiction

end OpensGroup

theorem behindWord?_append {y : Text} (apart : y.head?.any Text.isWordChar = false) {w : Text}
    (isWord : ∀ c ∈ w, Text.isWordChar c) (t : Text) :
    behindWord? w (t ++ y) = (behindWord? w t).map (· ++ y) := by
  induction w generalizing t with
  | nil =>
    cases t with
    | nil =>
      rw [List.nil_append, behindWord?, apart]
      rfl
    | cons c t =>
      rw [List.cons_append, behindWord?, behindWord?, List.head?_cons, List.head?_cons]
      split <;> rfl
  | cons d w ih =>
    rw [List.forall_mem_cons] at isWord
    cases t with
    | nil =>
      cases y with
      | nil => rfl
      | cons c y =>
        have differs : c.toLower ≠ d.toLower := fun same => by
          have word : Text.isWordChar c := by
            rw [← Text.isWordChar_toLower, same, Text.isWordChar_toLower]
            exact isWord.1
          simp [word] at apart
        rw [List.nil_append, behindWord?, if_neg differs]
        rfl
    | cons c t =>
      rw [List.cons_append, behindWord?, behindWord?, ih isWord.2]
      split <;> rfl

theorem behindWords?_of_noWord {t w : Text} (noWord : t.head?.any Text.isWordChar = false)
    (word : IsWord w) (words : List Text) : behindWords? (w :: words) t = none := by
  have nothing := behindWord?_append noWord (fun c hc => (word.2 c hc).1) []
  obtain ⟨c, w, rfl⟩ := List.exists_cons_of_ne_nil word.1
  exact behindWords?_eq_none nothing words

theorem OpensGroup.no_words {y w : Text} (opens : OpensGroup y) (word : IsWord w)
    (words : List Text) : behindWords? (w :: words) (Text.trimStart y) = none := by
  obtain ⟨z, eq⟩ := List.head?_eq_some_iff.1 opens
  rw [eq]
  exact behindWords?_of_noWord rfl word words

theorem behindWords?_append {y : Text} (opens : OpensGroup y) {words : List Text}
    (isWords : ∀ w ∈ words, IsWord w) (t : Text) :
    behindWords? words (t ++ y) = (behindWords? words t).map (· ++ y) := by
  induction words generalizing t with
  | nil => rfl
  | cons v words ih =>
    rw [List.forall_mem_cons] at isWords
    have first := behindWord?_append opens.apart.noWord (fun c hc => (isWords.1.2 c hc).1) t
    cases words with
    | nil => exact first
    | cons w words =>
      have word : IsWord w := isWords.2 w List.mem_cons_self
      rw [behindWords?_cons_cons, behindWords?_cons_cons, first]
      -- what is left behind the first word: no word, nothing but the group, or more text
      rcases behindWord? v t with _ | _ | ⟨c, rest⟩
      · rfl
      · obtain ⟨c, z, rfl, -⟩ := opens.exists_cons
        simp only [Option.map_some, List.nil_append, Option.map_none, ite_eq_right_iff]
        intro blank
        have trimmed : Text.trimStart (c :: z) = Text.trimStart z :=
          List.dropWhile_cons_of_pos blank
        rw [← trimmed]
        exact opens.no_words word words
      · simp only [Option.map_some, List.cons_append]
        split
        · rw [Text.trimStart, List.dropWhile_append]
          split
          · next ended =>
            have none : behindWords? (w :: words) [] = none := behindWords?_of_noWord rfl word words
            rw [Text.trimStart, List.isEmpty_iff.1 ended, none]
            exact opens.no_words word words
          · exact ih isWords.2 _
        · rfl

theorem dottedWord_append_of_opens {y : Text} (opens : OpensGroup y) (started : Bool) (t : Text) :
    dottedWord started (t ++ y) = ((dottedWord started t).1, (dottedWord started t).2 ++ y) := by
  have noWord := opens.apart.noWord
  induction t generalizing started with
  | nil =>
    obtain ⟨c, z, rfl, -⟩ := opens.exists_cons
    have plain : Text.isWordChar c = false := noWord
    have noDot : c ≠ '.' := by simpa using opens.head_ne_dot
    change dottedWord started (c :: z) = ([], c :: z)
    rw [dottedWord, if_neg (by simp [plain, noDot])]
  | cons c t ih =>
    have next : (t ++ y).head?.any Text.isWordChar = t.head?.any Text.isWordChar := by
      cases t with
      | nil => exact noWord
      | cons d t => rfl
    rw [List.cons_append, dottedWord, dottedWord, next, ih]
    split <;> rfl

theorem typeName?_append {y : Text} (opens : OpensGroup y) (t : Text) :
    typeName? (t ++ y) = (typeName? t).map (Prod.map id (· ++ y)) := by
  have found (words : List Text) (known : words ∈ typeVocabulary) :
      (behindWords? words (t ++ y)).map (fun rest => (Text.join [' '] words, rest)) =
        ((behindWords? words t).map fun rest => (Text.join [' '] words, rest)).map
          (Prod.map id (· ++ y)) := by
    rw [behindWords?_append opens (isWord_of_vocabulary words known).2, Option.map_map,
      Option.map_map]
    rfl
  have first : typeVocabulary.findSome? (fun words =>
      (behindWords? words (t ++ y)).map fun rest => (Text.join [' '] words, rest)) =
      (typeVocabulary.findSome? fun words =>
        (behindWords? words t).map fun rest => (Text.join [' '] words, rest)).map
          (Prod.map id (· ++ y)) := by
    rw [List.map_findSome?, ← List.head?_filterMap, ← List.head?_filterMap]
    exact congrArg List.head? (List.filterMap_congr found)
  rw [typeName?, typeName?, first, Option.map_or, dottedWord_append_of_opens opens]
  rcases dottedWord false t with ⟨_ | ⟨c, word⟩, rest⟩ <;> rfl

theorem typeName?_of_noWord {t : Text} (noWord : t.head?.any Text.isWordChar = false) :
    typeName? t = none := by
  have unknown : typeVocabulary.findSome? (fun words =>
      (behindWords? words t).map fun rest => (Text.join [' '] words, rest)) = none := by
    rw [List.findSome?_eq_none_iff]
    intro words known
    obtain ⟨some, isWords⟩ := isWord_of_vocabulary words known
    obtain ⟨w, words, rfl⟩ := List.exists_cons_of_ne_nil some
    rw [behindWords?_of_noWord noWord (isWords w List.mem_cons_self)]
    rfl
  have nothing : (dottedWord false t).1 = [] := by
    cases t with
    | nil => rfl
    | cons c t =>
      have plain : Text.isWordChar c = false := noWord
      rw [dottedWord, if_neg (by simp [plain])]
  rw [typeName?, unknown, Option.none_or]
  rcases word : dottedWord false t with ⟨_ | ⟨c, word⟩, rest⟩
  · rfl
  · rw [word] at nothing
    contradiction

theorem isBlankChar_of_isWordChar {c : Char} (word : Text.isWordChar c) :
    Text.isBlankChar c = false := by
  rw [Bool.eq_false_iff]
  intro blank
  have noName := isNameChar_of_isBlankChar blank
  rw [isNameChar_of_isWordChar word] at noName
  contradiction

theorem exists_head_of_typeName? {t : Text} {found : Text × Text} (h : typeName? t = some found) :
    ∃ c rest, t = c :: rest ∧ Text.isBlankChar c = false := by
  have word : t.head?.any Text.isWordChar := by
    by_contra noWord
    rw [typeName?_of_noWord (Bool.eq_false_iff.2 noWord)] at h
    contradiction
  cases t with
  | nil => contradiction
  | cons c rest => exact ⟨c, rest, rfl, isBlankChar_of_isWordChar word⟩

/-- How a column begins whose type has arguments: a name, and the word of a type, with white space
behind each of them. -/
structure ColumnHead where
  spelled : Text
  name : Text
  space : Text
  word : Text
  base : Text
  gap : Text
  readsName : Reader.name? (spelled ++ (space ++ word)) = (some name, space ++ word)
  readsType : typeName? word = some (base, [])
  noClause : Text.isAmong base clauseWords = false
  blankSpace : isBlank space
  blankGap : isBlank gap

namespace ColumnHead

variable (h : ColumnHead)

def group (arguments rest : Text) : Text := h.gap ++ '(' :: (arguments ++ ')' :: rest)

def text (arguments rest : Text) : Text :=
  h.spelled ++ (h.space ++ (h.word ++ h.group arguments rest))

/-- The type with its arguments, and array suffixes if some stand behind them. -/
def type (arguments rest : Text) : ColumnType :=
  ⟨h.base ++ Text.upperFull ('(' :: arguments ++ [')']) ++ (arraySuffixes rest).1,
    (arraySuffixes rest).2⟩

def column (arguments rest : Text) : Column :=
  Clause.column h.name (some (h.type arguments rest)) (Reader.clauses (arraySuffixes rest).2)

theorem exists_word : ∃ c word, h.word = c :: word ∧ Text.isBlankChar c = false :=
  exists_head_of_typeName? h.readsType

variable {arguments : Text} (nested : WellNested arguments) (rest : Text)

theorem name?_text : Reader.name? (h.text arguments rest) =
    (some h.name, h.space ++ (h.word ++ h.group arguments rest)) := by
  refine Reader.take?_local h.readsName (.append h.space ?_)
  obtain ⟨c, word, eq, -⟩ := h.exists_word
  rw [eq]
  exact .cons c _ _

include nested

theorem columnType?_text :
    columnType? (h.space ++ (h.word ++ h.group arguments rest)) = some (h.type arguments rest) := by
  obtain ⟨c, word, eq, noBlank⟩ := h.exists_word
  have start : Text.trimStart (h.space ++ (h.word ++ h.group arguments rest)) =
      h.word ++ h.group arguments rest := by
    rw [trimStart_behind_blank h.blankSpace, eq]
    exact List.dropWhile_cons_of_neg (by simp [noBlank])
  have nonblank : Text.trimStart (h.space ++ (h.word ++ h.group arguments rest)) ≠ [] := by
    rw [start, eq]
    exact List.cons_ne_nil _ _
  have found : typeName? (Text.trimStart (h.space ++ (h.word ++ h.group arguments rest))) =
      some (h.base, h.group arguments rest) := by
    have opens : OpensGroup (h.group arguments rest) := opensGroup_behind_blank h.blankGap _
    rw [start, typeName?_append opens, h.readsType]
    rfl
  rw [WrittenType.columnType?_of_typeName? nonblank found h.noClause, group,
    typeArguments_of_balanced h.blankGap nested.balanced]
  rfl

theorem column?_text : column? (h.text arguments rest) = some (h.column arguments rest) := by
  rw [column?, h.name?_text]
  simp only [h.columnType?_text nested, Option.map_some, Option.getD_some]
  rfl

end ColumnHead

def namesSerial (t : Text) : Bool := Text.contains (Text.ofString "SERIAL") t

/-- Nothing is found across a character that the part does not have. -/
theorem contains_append_cons_of_foreign {part : Text} (some : part ≠ []) {c : Char}
    (foreign : c ∉ part) (a b : Text) :
    Text.contains part (a ++ c :: b) = (Text.contains part a || Text.contains part b) := by
  induction a with
  | nil =>
    obtain ⟨d, part, rfl⟩ := List.exists_cons_of_ne_nil some
    have apart : d ≠ c := fun eq => foreign (by simp [eq])
    simp [Text.contains, List.isPrefixOf, apart]
  | cons d a ih =>
    have head : ∀ e ∈ (c :: b).head?, e ∉ part := fun e first => by
      obtain rfl : c = e := Option.some_inj.1 first
      exact foreign
    rw [List.cons_append, Text.contains, Text.contains, ← List.cons_append,
      isPrefixOf_append_of_foreign head, ih, Bool.or_assoc]

theorem arraySuffix?_no_serial {t suffix rest : Text} (h : arraySuffix? t = some (suffix, rest)) :
    ∀ c ∈ suffix, c ∉ Text.ofString "SERIAL" := by
  unfold arraySuffix? at h
  split at h
  · dsimp only at h
    split at h
    · split at h
      · next digits =>
        obtain ⟨rfl, -⟩ := Prod.mk.inj (Option.some_inj.1 h)
        exact suffix_no_serial (List.all_eq_true.1 digits)
      · contradiction
    · contradiction
  · contradiction

theorem arraySuffixes_no_serial (t : Text) :
    ∀ c ∈ (arraySuffixes t).1, c ∉ Text.ofString "SERIAL" := by
  fun_induction arraySuffixes t with
  | case1 => exact fun c hc => absurd hc List.not_mem_nil
  | case2 t suffix rest first others left eq ih =>
    rw [eq] at ih
    intro c hc
    rcases List.mem_append.1 hc with mem | mem
    · exact arraySuffix?_no_serial first c mem
    · exact ih c mem

/-- A type with arguments numbers its rows if the family is named in its word or in them. -/
theorem ColumnHead.isSerial_type (h : ColumnHead) (arguments rest : Text) :
    (h.type arguments rest).isSerial =
      (namesSerial h.base || namesSerial (Text.upperFull arguments)) := by
  have some : Text.ofString "SERIAL" ≠ [] := by decide
  have upper : Text.upperFull ('(' :: arguments ++ [')']) =
      '(' :: (Text.upperFull arguments ++ [')']) := by
    change '(' :: (arguments ++ [')']).flatMap Text.upperChar = _
    rw [List.flatMap_append]
    rfl
  rw [ColumnType.isSerial, type, contains_append_of_foreign some (arraySuffixes_no_serial rest),
    upper, contains_append_cons_of_foreign some (by decide),
    contains_append_cons_of_foreign some (by decide)]
  change (namesSerial h.base || (namesSerial (Text.upperFull arguments) || false)) = _
  rw [Bool.or_false]

namespace ColumnHead

variable (h : ColumnHead) (arguments others rest : Text)

def numbersByClause (rest : Text) : Bool :=
  (Reader.clauses (arraySuffixes rest).2).contains .autoIncrement

theorem isAutoIncrement_column : (h.column arguments rest).isAutoIncrement =
    (namesSerial h.base || namesSerial (Text.upperFull arguments) || numbersByClause rest) := by
  rw [← h.isSerial_type arguments rest]
  rfl

/-- Other arguments make another column, apart from its type, only by numbering the rows. -/
theorem column_eq_iff :
    h.column others rest = { h.column arguments rest with type := (h.column others rest).type } ↔
      (h.column others rest).isAutoIncrement = (h.column arguments rest).isAutoIncrement := by
  constructor
  · exact congrArg Column.isAutoIncrement
  · intro same
    have notNull : (h.column others rest).isNotNull = (h.column arguments rest).isNotNull := by
      change (_ || (h.column others rest).isAutoIncrement) =
        (_ || (h.column arguments rest).isAutoIncrement)
      rw [same]
    exact (Column.mk.injEq ..).mpr ⟨rfl, rfl, rfl, rfl, notNull, same, rfl, rfl, rfl⟩

end ColumnHead

/-- The arguments of a type leave everything but the type of the column as it is, unless they name
the SERIAL family. A column numbers its rows if the word of its type or a clause says so, and also
if its arguments do. So the columns of two lists of arguments differ in more than their types just
if one of the lists names the family and the other does not, and neither the word nor a clause says
so anyway. -/
theorem column?_arguments (h : ColumnHead) {arguments others : Text}
    (nested : WellNested arguments) (nested' : WellNested others) (rest : Text) :
    ∃ c d, column? (h.text arguments rest) = some c ∧ column? (h.text others rest) = some d ∧
      d.name = c.name ∧ d.isPrimaryKey = c.isPrimaryKey ∧ d.isUnique = c.isUnique ∧
      d.defaultValue = c.defaultValue ∧ d.checkExpression = c.checkExpression ∧
      d.foreignKey = c.foreignKey ∧
      (c.isAutoIncrement ↔ namesSerial h.base ∨ namesSerial (Text.upperFull arguments) ∨
        ColumnHead.numbersByClause rest) ∧
      (d = { c with type := d.type } ↔
        namesSerial h.base ∨ ColumnHead.numbersByClause rest ∨
          namesSerial (Text.upperFull others) = namesSerial (Text.upperFull arguments)) := by
  refine ⟨h.column arguments rest, h.column others rest, h.column?_text nested rest,
    h.column?_text nested' rest, rfl, rfl, rfl, rfl, rfl, rfl, ?_, ?_⟩
  · rw [h.isAutoIncrement_column, Bool.or_eq_true, Bool.or_eq_true, or_assoc]
  · rw [h.column_eq_iff, h.isAutoIncrement_column, h.isAutoIncrement_column]
    cases namesSerial h.base
    · cases ColumnHead.numbersByClause rest <;> simp
    · simp

/-- A mood, one of several. -/
def moodHead : ColumnHead where
  spelled := Text.ofString "mood"
  name := Text.ofString "mood"
  space := [' ']
  word := Text.ofString "enum"
  base := Text.ofString "ENUM"
  gap := []
  readsName := by decide +kernel
  readsType := by decide +kernel
  noClause := by decide +kernel
  blankSpace := rfl
  blankGap := rfl

/-- Parentheses in literals, and literals in parentheses. -/
theorem column?_moodArguments :
    WellNested (Text.ofString "'a)b', \"(c\"") ∧ WellNested (Text.ofString "(1, ''), 2") ∧
      ∃ c d, column? (moodHead.text (Text.ofString "'a)b', \"(c\"") (Text.ofString " NOT NULL")) =
          some c ∧
        column? (moodHead.text (Text.ofString "(1, ''), 2") (Text.ofString " NOT NULL")) = some d ∧
        d = { c with type := d.type } := by
  have nested : WellNested (Text.ofString "'a)b', \"(c\"") := wellNested_iff.2 ⟨by rfl, by rfl⟩
  have nested' : WellNested (Text.ofString "(1, ''), 2") := wellNested_iff.2 ⟨by rfl, by rfl⟩
  obtain ⟨c, d, read, read', -, -, -, -, -, -, -, same⟩ :=
    column?_arguments moodHead nested nested' (Text.ofString " NOT NULL")
  exact ⟨nested, nested', c, d, read, read', same.2 (.inr (.inr (by decide)))⟩

/-- A label that looks like a type: the column numbers its rows, and with another label it does
not. -/
theorem column?_serialLabel :
    WellNested (Text.ofString "'Serial'") ∧ WellNested (Text.ofString "'calm'") ∧
      namesSerial moodHead.base = false ∧
      ∃ c d, column? (Text.ofString "mood enum('Serial')") = some c ∧
        column? (Text.ofString "mood enum('calm')") = some d ∧
        c.isAutoIncrement ∧ c.isNotNull ∧ d.isAutoIncrement = false ∧ d.isNotNull = false := by
  have nested : WellNested (Text.ofString "'Serial'") := wellNested_iff.2 ⟨by rfl, by rfl⟩
  have nested' : WellNested (Text.ofString "'calm'") := wellNested_iff.2 ⟨by rfl, by rfl⟩
  have noClauses : Reader.clauses (arraySuffixes []).2 = [] := by
    rw [arraySuffixes_of_head (by simp [Text.trimStart])]
    exact Reader.clauses_isBlank rfl
  have numbers (arguments : Text) : (moodHead.column arguments []).isAutoIncrement =
      namesSerial (Text.upperFull arguments) := by
    rw [moodHead.isAutoIncrement_column, ColumnHead.numbersByClause, noClauses]
    change (false || _ || false) = _
    rw [Bool.false_or, Bool.or_false]
  have notNull (arguments : Text) : (moodHead.column arguments []).isNotNull =
      (moodHead.column arguments []).isAutoIncrement := by
    rw [ColumnHead.column, noClauses]
    rfl
  refine ⟨nested, nested', by decide, _, _, moodHead.column?_text nested [],
    moodHead.column?_text nested' [], ?_⟩
  rw [notNull, notNull, numbers, numbers]
  decide

end SchemaDiagram.Sql
