import Mathlib.Data.List.Nodup
import SchemaDiagram.Proofs.Sql.PlainParts
import SchemaDiagram.Proofs.Sql.Types

/-!
# Columns made of parts

Each part of a column says one thing about it, and no part says what another one does. So a column
whose parts are of different kinds is what its parts say, whatever their order and their spelling.
-/

namespace SchemaDiagram.Sql

theorem isPrefixOf_append_of_foreign {part b : Text} (foreign : ∀ c ∈ b.head?, c ∉ part)
    (a : Text) : part.isPrefixOf (a ++ b) = part.isPrefixOf a := by
  induction part generalizing a with
  | nil => rfl
  | cons d part ih =>
    cases a with
    | nil =>
      cases b with
      | nil => rfl
      | cons c b =>
        have apart : d ≠ c := fun eq => foreign c rfl (by simp [eq])
        simp [List.isPrefixOf, apart]
    | cons c a =>
      have behind := ih (fun e he mem => foreign e he (List.mem_cons_of_mem d mem)) a
      simp [List.isPrefixOf, behind]

/-- Behind a text, characters that the part does not have make no difference to finding it. -/
theorem contains_append_of_foreign {part b : Text} (some : part ≠ [])
    (foreign : ∀ c ∈ b, c ∉ part) (a : Text) :
    Text.contains part (a ++ b) = Text.contains part a := by
  obtain ⟨d, part, rfl⟩ := List.exists_cons_of_ne_nil some
  induction a with
  | nil =>
    induction b with
    | nil => rfl
    | cons c b ih =>
      rw [List.forall_mem_cons] at foreign
      have apart : d ≠ c := fun eq => foreign.1 (by simp [eq])
      have behind := ih foreign.2
      rw [List.nil_append] at behind ⊢
      simp [Text.contains, List.isPrefixOf, apart, behind]
  | cons c a ih =>
    rw [List.cons_append, Text.contains, Text.contains, ← List.cons_append,
      isPrefixOf_append_of_foreign (fun d hd => foreign d (List.mem_of_head? hd)), ih]

def serialTypes : List (List Text) := [
  [Text.ofString "BIGSERIAL"], [Text.ofString "SMALLSERIAL"], [Text.ofString "SERIAL"],
  [Text.ofString "SERIAL2"], [Text.ofString "SERIAL4"], [Text.ofString "SERIAL8"]]

theorem contains_serial : ∀ base ∈ typeVocabulary,
    Text.contains (Text.ofString "SERIAL") (Text.join [' '] base) =
      decide (base ∈ serialTypes) := by
  decide +kernel

theorem isArgumentChar_no_serial {c : Char} (h : isArgumentChar c) :
    c ∉ Text.ofString "SERIAL" := by
  have facts : ∀ d ∈ Text.ofString "SERIAL", isArgumentChar d = false := by decide
  intro mem
  rw [facts c mem] at h
  contradiction

theorem suffix_no_serial {size : Text} (digits : ∀ c ∈ size, Text.isAsciiDigit c) :
    ∀ c ∈ '[' :: size ++ [']'], c ∉ Text.ofString "SERIAL" := by
  intro c hc
  rw [List.cons_append, List.mem_cons, List.mem_append, List.mem_singleton] at hc
  rcases hc with rfl | hc | rfl
  · decide
  · exact isArgumentChar_no_serial (by simp [isArgumentChar, digits c hc])
  · decide

namespace WrittenType

variable (w : WrittenType)

theorem argumentText_no_serial : ∀ c ∈ w.argumentText, c ∉ Text.ofString "SERIAL" := by
  have chars := w.argumentChars
  unfold argumentText
  split
  · next inside eq =>
    intro c hc
    rw [List.cons_append, List.mem_cons, List.mem_append, List.mem_singleton] at hc
    rcases hc with rfl | hc | rfl
    · decide
    · exact isArgumentChar_no_serial (chars inside eq c hc)
    · decide
  · exact fun c hc => absurd hc List.not_mem_nil

theorem arrayText_no_serial : ∀ c ∈ arrayText w.sizes, c ∉ Text.ofString "SERIAL" := by
  intro c hc
  obtain ⟨size, known, mem⟩ := List.mem_flatMap.1 hc
  exact suffix_no_serial (w.sizeDigits size known) c mem

/-- A type numbers its rows if its name is one of the family, whatever its arguments. -/
theorem isSerial_eq (rest : Text) :
    (ColumnType.mk w.text rest).isSerial = decide (w.words ∈ serialTypes) := by
  rw [ColumnType.isSerial, text, contains_append_of_foreign (by decide) w.arrayText_no_serial,
    contains_append_of_foreign (by decide) w.argumentText_no_serial, contains_serial _ w.known]

end WrittenType

/-- The column is what its parts say. -/
structure MadeOf (c : Column) (name : Text) (type : WrittenType) (parts : List Part) : Prop where
  named : c.name = name
  typed : c.type = type.text
  primaryKey : c.isPrimaryKey ↔ .primaryKey ∈ parts
  unique : c.isUnique ↔ .unique ∈ parts
  autoIncrement : c.isAutoIncrement ↔
    .autoIncrement ∈ parts ∨ .identity ∈ parts ∨ type.words ∈ serialTypes
  notNull : c.isNotNull ↔ .notNull ∈ parts ∨ c.isPrimaryKey ∨ c.isAutoIncrement
  default : ∀ e, c.defaultValue = some e ↔ .default e ∈ parts
  check : ∀ g, c.checkExpression = some g ↔ .check g ∈ parts
  foreignKey : ∀ fk, c.foreignKey = some fk ↔
    ∃ actions, .references fk.table fk.column actions ∈ parts

namespace MadeOf

variable {c d : Column} {name : Text} {type : WrittenType} {parts others : List Part}

theorem eq (h : MadeOf c name type parts) (h' : MadeOf d name type parts) : c = d := by
  have primaryKey : c.isPrimaryKey = d.isPrimaryKey :=
    Bool.eq_iff_iff.2 (h.primaryKey.trans h'.primaryKey.symm)
  have autoIncrement : c.isAutoIncrement = d.isAutoIncrement :=
    Bool.eq_iff_iff.2 (h.autoIncrement.trans h'.autoIncrement.symm)
  have unique : c.isUnique = d.isUnique := Bool.eq_iff_iff.2 (h.unique.trans h'.unique.symm)
  have notNull : c.isNotNull = d.isNotNull := by
    rw [Bool.eq_iff_iff, h.notNull, h'.notNull, primaryKey, autoIncrement]
  have default := Option.ext fun e => (h.default e).trans (h'.default e).symm
  have check := Option.ext fun g => (h.check g).trans (h'.check g).symm
  have foreignKey := Option.ext fun fk => (h.foreignKey fk).trans (h'.foreignKey fk).symm
  exact (Column.mk.injEq ..).mpr ⟨h.named.trans h'.named.symm, h.typed.trans h'.typed.symm,
    primaryKey, unique, notNull, autoIncrement, default, check, foreignKey⟩

theorem perm (h : MadeOf c name type parts) (same : parts.Perm others) :
    MadeOf c name type others where
  named := h.named
  typed := h.typed
  primaryKey := by rw [h.primaryKey, same.mem_iff]
  unique := by rw [h.unique, same.mem_iff]
  autoIncrement := by rw [h.autoIncrement, same.mem_iff, same.mem_iff]
  notNull := by rw [h.notNull, same.mem_iff]
  default e := by rw [h.default e, same.mem_iff]
  check g := by rw [h.check g, same.mem_iff]
  foreignKey fk := by simp only [h.foreignKey fk, same.mem_iff]

end MadeOf

/-- Where one element at most has a result, that result is the first one. -/
theorem findSome?_eq_some_of_alone {α β : Type} {f : α → Option β} {l : List α} {b : β}
    (alone : ∀ a ∈ l, ∀ a' ∈ l, (f a).isSome → (f a').isSome → a = a') :
    l.findSome? f = some b ↔ ∃ a ∈ l, f a = some b := by
  refine ⟨List.exists_of_findSome?_eq_some, fun ⟨a, mem, result⟩ => ?_⟩
  cases found : l.findSome? f with
  | none =>
    rw [List.findSome?_eq_none_iff.1 found a mem] at result
    contradiction
  | some b' =>
    obtain ⟨a', mem', result'⟩ := List.exists_of_findSome?_eq_some found
    obtain rfl := alone a mem a' mem' (by simp [result]) (by simp [result'])
    exact result'.symm.trans result

theorem findSome?_filterMap {α β γ : Type} (f : α → Option β) (g : β → Option γ) (l : List α) :
    (l.filterMap f).findSome? g = l.findSome? fun a => (f a).bind g := by
  induction l with
  | nil => rfl
  | cons a l ih =>
    cases eq : f a with
    | none =>
      rw [List.filterMap_cons_none eq, List.findSome?_cons, eq, ih]
      rfl
    | some b =>
      rw [List.filterMap_cons_some eq, List.findSome?_cons, List.findSome?_cons, eq, ih]
      rfl

section

variable {parts : List Part}

/-- Parts that differ in kind say one thing at most that takes a certain form. -/
theorem lastSaid_iff {β : Type} (once : (parts.map Part.words).Nodup) {said : Clause → Option β}
    (form : β → Part → Prop) (forms : ∀ b p, p.clause?.bind said = some b ↔ form b p)
    (kind : ∀ {b p b' p'}, form b p → form b' p' → p.words = p'.words) (b : β) :
    (parts.filterMap Part.clause?).reverse.findSome? said = some b ↔ ∃ p ∈ parts, form b p := by
  rw [← List.filterMap_reverse, findSome?_filterMap, findSome?_eq_some_of_alone]
  · simp only [List.mem_reverse, forms]
  · intro p hp p' hp' some some'
    rw [List.mem_reverse] at hp hp'
    obtain ⟨b, eq⟩ := Option.isSome_iff_exists.1 some
    obtain ⟨b', eq'⟩ := Option.isSome_iff_exists.1 some'
    exact List.inj_on_of_nodup_map once hp hp' (kind ((forms b p).1 eq) ((forms b' p').1 eq'))

theorem contains_clause (mark : Clause) :
    (parts.filterMap Part.clause?).contains mark ↔ ∃ p ∈ parts, p.clause? = some mark := by
  rw [List.contains_iff_mem, List.mem_filterMap]

theorem contains_clause_of_only {mark : Clause} {q : Part}
    (only : ∀ p : Part, p.clause? = some mark ↔ p = q) :
    (parts.filterMap Part.clause?).contains mark ↔ q ∈ parts := by
  simp only [contains_clause, only, exists_eq_right]

/-- The clauses of parts that differ in kind define the column that is made of them. -/
theorem madeOf_column (once : (parts.map Part.words).Nodup) (name : Text) (type : WrittenType)
    (rest : Text) :
    MadeOf (Clause.column name (some ⟨type.text, rest⟩) (parts.filterMap Part.clause?))
      name type parts where
  named := rfl
  typed := rfl
  primaryKey := contains_clause_of_only fun p => by cases p <;> simp [Part.clause?]
  unique := contains_clause_of_only fun p => by cases p <;> simp [Part.clause?]
  autoIncrement := by
    have numbered (p : Part) :
        p.clause? = some .autoIncrement ↔ p = .autoIncrement ∨ p = .identity := by
      cases p <;> simp [Part.clause?]
    change (ColumnType.isSerial _ || _) ↔ _
    rw [Bool.or_eq_true, type.isSerial_eq, contains_clause, decide_eq_true_iff, or_comm, ← or_assoc]
    simp only [numbered, and_or_left, exists_or, exists_eq_right]
  notNull := by
    have notNull : (parts.filterMap Part.clause?).contains .notNull ↔ .notNull ∈ parts :=
      contains_clause_of_only fun p => by cases p <;> simp [Part.clause?]
    change (_ || _ || _) ↔ _
    rw [Bool.or_eq_true, Bool.or_eq_true, notNull, or_assoc]
    rfl
  default e := by
    refine (lastSaid_iff once (fun e p => p = .default e) ?_ ?_ e).trans exists_eq_right
    · intro e p
      cases p <;> simp [Part.clause?]
    · rintro _ _ _ _ rfl rfl
      rfl
  check g := by
    refine (lastSaid_iff once (fun g p => p = .check g) ?_ ?_ g).trans exists_eq_right
    · intro g p
      cases p <;> simp [Part.clause?]
    · rintro _ _ _ _ rfl rfl
      rfl
  foreignKey fk := by
    let form (fk : ForeignKey) (p : Part) := ∃ actions, p = .references fk.table fk.column actions
    refine (lastSaid_iff once form ?_ ?_ fk).trans ?_
    · rintro ⟨table, column⟩ p
      cases p <;> simp [Part.clause?, referencedColumn, form]
    · rintro _ _ _ _ ⟨_, rfl⟩ ⟨_, rfl⟩
      rfl
    · constructor
      · rintro ⟨_, mem, actions, rfl⟩
        exact ⟨actions, mem⟩
      · exact fun ⟨actions, mem⟩ => ⟨_, mem, actions, rfl⟩

end

/-- A column as a text: a name, a type and parts, each in any spelling. Arguments and array
suffixes stand right behind the name of the type. -/
inductive PartedText (name : Text) (type : WrittenType) (parts : List Part) : Text → Prop where
  | intro {t u v} : NameText u name t →
      Phrase (type.argumentText ++ (arrayText type.sizes ++ v)) type.words u → PartsText parts v →
      PartedText name type parts t

theorem PartsText.behindType {parts : List Part} {t : Text} (h : PartsText parts t) :
    BehindType t := by
  rcases h.begins with blank | ⟨w, words, _, _, phrase, -, -, -, clause⟩
  · have trimmed := trimStart_behind_blank blank []
    rw [List.append_nil] at trimmed
    exact behindType_of_blank trimmed
  · rcases phrase with _ | @⟨b, v, _, _, u, blank, same, _, _⟩
    exact behindType_of_clause clause same
      (Phrase.trimStart_cons blank (isWord_of_clauseWords w clause) same)

theorem PartedText.column? {name t : Text} {type : WrittenType} {parts : List Part}
    (h : PartedText name type parts t) : ∃ rest, Sql.column? t =
      some (Clause.column name (some ⟨type.text, rest⟩) (parts.filterMap Part.clause?)) := by
  cases h with
  | @intro _ rest named typed written =>
    refine ⟨rest, ?_⟩
    rw [Sql.column?, named.name?]
    simp only [type.columnType?_phrase written.behindType typed, Option.map_some, Option.getD_some,
      Reader.clauses_partsText written]

theorem MadeOf.columnRelationship? {c : Column} {name : Text} {type : WrittenType}
    {parts : List Part} (h : MadeOf c name type parts) (table : Text) (r : Relationship) :
    Sql.columnRelationship? table c = some r ↔ ∃ refTable refColumn actions,
      .references refTable refColumn actions ∈ parts ∧
        r = ⟨Text.ofString "fk_" ++ table ++ '_' :: name, ⟨table, [name]⟩,
          ⟨refTable, [refColumn]⟩⟩ := by
  rw [Sql.columnRelationship?, Option.map_eq_some_iff, h.named]
  constructor
  · rintro ⟨fk, eq, rfl⟩
    obtain ⟨actions, mem⟩ := (h.foreignKey fk).1 eq
    exact ⟨_, _, actions, mem, rfl⟩
  · rintro ⟨refTable, refColumn, actions, mem, rfl⟩
    exact ⟨_, (h.foreignKey ⟨refTable, refColumn⟩).2 ⟨actions, mem⟩, rfl⟩

def plainColumn (name : Text) (type : WrittenType) (parts : List (Option Text × Part)) : Text :=
  quoted name ++ (spacedWords type.words ++
    (type.argumentText ++ (arrayText type.sizes ++ plainParts parts)))

theorem partedText_plain (name : Text) (type : WrittenType) {parts : List (Option Text × Part)}
    (h : ∀ p ∈ parts, p.2.Writable) :
    PartedText name type (parts.map (·.2)) (plainColumn name type parts) := by
  obtain ⟨spaced, behind⟩ := partsText_plain h
  have typed := phrase_spacedWords type.words (type.apart_behind spaced.apart)
  obtain ⟨w, words, eq⟩ := List.exists_cons_of_ne_nil (isWord_of_vocabulary type.words type.known).1
  refine .intro (.identifier (identifier_quoted name (b := []) rfl ?_)) typed behind
  rw [eq]
  simp [spacedWords]

/-- A column of parts that differ in kind is what each of them says, with a relationship if it
refers to a table, and it is the same one in any order and any spelling. -/
theorem column?_of_parts {name t : Text} {type : WrittenType} {parts : List Part}
    (written : PartedText name type parts t) (once : (parts.map Part.words).Nodup) :
    ∃ c, column? t = some c ∧ MadeOf c name type parts ∧
      (∀ table r, columnRelationship? table c = some r ↔ ∃ refTable refColumn actions,
        .references refTable refColumn actions ∈ parts ∧
          r = ⟨Text.ofString "fk_" ++ table ++ '_' :: name, ⟨table, [name]⟩,
            ⟨refTable, [refColumn]⟩⟩) ∧
      ∀ parts' t', parts.Perm parts' → PartedText name type parts' t' → column? t' = some c := by
  obtain ⟨rest, read⟩ := written.column?
  have made := madeOf_column once name type rest
  refine ⟨_, read, made, made.columnRelationship?, fun parts' t' same written' => ?_⟩
  obtain ⟨rest', read'⟩ := written'.column?
  have once' : (parts'.map Part.words).Nodup := (same.map Part.words).nodup_iff.1 once
  -- what the parts say is known from the parts alone, so no order shows in it
  rw [read', made.eq ((madeOf_column once' name type rest').perm same.symm)]

/-- Parts whose names and operands look like other parts. -/
def pretendedParts : List (Option Text × Part) := [
  (none, .default (Text.ofString "f(') NOT NULL, ', 1)")),
  (some (Text.ofString "CHECK (0)"), .references (Text.ofString "UNIQUE") (Text.ofString "a b")
    [(.delete, .setNull), (.update, .setDefault)]),
  (none, .check (Text.ofString "(a <> ') UNIQUE' AND (b))")),
  (some (Text.ofString "pk"), .identity),
  (none, .null)]

def pretendedType : WrittenType where
  words := [Text.ofString "DOUBLE", Text.ofString "PRECISION"]
  arguments := none
  sizes := [[]]
  known := by decide +kernel
  argumentChars := by simp
  sizeDigits := by simp

def pretendedColumn : Column where
  name := Text.ofString "not"
  type := Text.ofString "DOUBLE PRECISION[]"
  isNotNull := true
  isAutoIncrement := true
  defaultValue := some (Text.ofString "f(') NOT NULL, ', 1)")
  checkExpression := some (Text.ofString "(a <> ') UNIQUE' AND (b))")
  foreignKey := some ⟨Text.ofString "UNIQUE", Text.ofString "a b"⟩

theorem writable_pretendedParts : ∀ p ∈ pretendedParts, p.2.Writable := by
  simp only [pretendedParts, List.forall_mem_cons, List.not_mem_nil, IsEmpty.forall_iff,
    implies_true, and_true]
  refine ⟨⟨by decide, .of_free (by decide) (by decide), rfl⟩, trivial, ?_, trivial, trivial⟩
  exact ⟨Text.ofString "a <> ') UNIQUE' AND (b)", rfl, .of_free (by decide) (by decide)⟩

theorem madeOf_pretendedParts :
    MadeOf pretendedColumn pretendedColumn.name pretendedType (pretendedParts.map (·.2)) where
  named := rfl
  typed := by decide +kernel
  primaryKey := by simp [pretendedColumn, pretendedParts]
  unique := by simp [pretendedColumn, pretendedParts]
  autoIncrement := by simp [pretendedColumn, pretendedParts]
  notNull := by simp [pretendedColumn, pretendedParts]
  default := by simp [pretendedColumn, pretendedParts, eq_comm]
  check := by simp [pretendedColumn, pretendedParts, eq_comm]
  foreignKey := by
    rintro ⟨table, column⟩
    simp [pretendedColumn, pretendedParts, eq_comm]

def pretendedText : Text :=
  Text.ofString "\"not\" DOUBLE PRECISION[] DEFAULT f(') NOT NULL, ', 1) " ++
  Text.ofString "CONSTRAINT \"CHECK (0)\" REFERENCES \"UNIQUE\" (\"a b\") " ++
  Text.ofString "ON DELETE SET NULL ON UPDATE SET DEFAULT CHECK (a <> ') UNIQUE' AND (b)) " ++
  Text.ofString "CONSTRAINT \"pk\" GENERATED BY DEFAULT AS IDENTITY NULL"

def turnedText : Text :=
  Text.ofString "\"not\" DOUBLE PRECISION[] NULL " ++
  Text.ofString "CONSTRAINT \"pk\" GENERATED BY DEFAULT AS IDENTITY CHECK (a <> ') UNIQUE' AND (b)) " ++
  Text.ofString "CONSTRAINT \"CHECK (0)\" REFERENCES \"UNIQUE\" (\"a b\") " ++
  Text.ofString "ON DELETE SET NULL ON UPDATE SET DEFAULT DEFAULT f(') NOT NULL, ', 1)"

theorem column?_of_pretendedParts :
    PartedText pretendedColumn.name pretendedType (pretendedParts.map (·.2)) pretendedText ∧
      ((pretendedParts.map (·.2)).map Part.words).Nodup ∧
      column? pretendedText = some pretendedColumn ∧
      column? turnedText = some pretendedColumn := by
  have text : plainColumn pretendedColumn.name pretendedType pretendedParts = pretendedText := by
    decide +kernel
  have turned : plainColumn pretendedColumn.name pretendedType pretendedParts.reverse =
      turnedText := by
    decide +kernel
  have written := partedText_plain pretendedColumn.name pretendedType writable_pretendedParts
  have written' := partedText_plain pretendedColumn.name pretendedType
    (fun p hp => writable_pretendedParts p (List.mem_reverse.1 hp))
  have once : ((pretendedParts.map (·.2)).map Part.words).Nodup := by decide
  obtain ⟨c, read, made, -, same⟩ := column?_of_parts written once
  have whole := made.eq madeOf_pretendedParts
  have read' := same _ _ ((List.reverse_perm pretendedParts).symm.map (·.2)) written'
  rw [text] at written read
  rw [turned] at read'
  rw [whole] at read read'
  exact ⟨written, once, read, read'⟩

end SchemaDiagram.Sql
