import SchemaDiagram.Proofs.Sql.ClauseText
import SchemaDiagram.Proofs.Sql.Segments

/-!
# Columns that are read back

A column is written as its name, its type and clauses that say what there is to say about it. What a
clause implies may be said again or left out.
-/

namespace SchemaDiagram.Sql

def reference (fk : ForeignKey) : Reference := ⟨fk.table, [fk.column], none, none⟩

def isSerial (c : Column) : Bool := Text.contains (Text.ofString "SERIAL") c.type

/-- The clauses say about the column `c` what there is to say, in any order. -/
structure Describes (clauses : List Clause) (c : Column) : Prop where
  primaryKey : .primaryKey ∈ clauses ↔ c.isPrimaryKey
  unique : .unique ∈ clauses ↔ c.isUnique
  autoIncrement : isSerial c ∨ .autoIncrement ∈ clauses ↔ c.isAutoIncrement
  notNull : .notNull ∈ clauses ∨ c.isPrimaryKey ∨ c.isAutoIncrement ↔ c.isNotNull
  default : ∀ e, .default e ∈ clauses ↔ c.defaultValue = some e
  check : ∀ g, .check g ∈ clauses ↔ c.checkExpression = some g
  references : ∀ r, .references r ∈ clauses ↔ ∃ fk, c.foreignKey = some fk ∧ r = reference fk

theorem findSome?_of_iff {α β : Type} {f : α → Option β} {l : List α} {o : Option β}
    (h : ∀ b, (∃ a ∈ l, f a = some b) ↔ o = some b) : l.findSome? f = o := by
  cases found : l.findSome? f with
  | none =>
    cases o with
    | none => rfl
    | some b =>
      obtain ⟨a, ha, eq⟩ := (h b).2 rfl
      rw [List.findSome?_eq_none_iff.1 found a ha] at eq
      contradiction
  | some b => exact ((h b).1 (List.exists_of_findSome?_eq_some found)).symm

/-- What the last clause of a form says, if all clauses of that form say the same. -/
theorem lastSaid_of_iff {β : Type} {said : Clause → Option β} (form : β → Clause)
    (forms : ∀ c b, said c = some b ↔ form b = c) {cs : List Clause} {o : Option β}
    (h : ∀ b, form b ∈ cs ↔ o = some b) : cs.reverse.findSome? said = o := by
  apply findSome?_of_iff
  intro b
  rw [← h b]
  constructor
  · rintro ⟨c, hc, eq⟩
    rw [(forms c b).1 eq]
    exact List.mem_reverse.1 hc
  · exact fun mem => ⟨form b, List.mem_reverse.2 mem, (forms _ b).2 rfl⟩

theorem Describes.column_eq {cs : List Clause} {c : Column} (h : Describes cs c) (rest : Text) :
    Clause.column c.name (some ⟨c.type, rest⟩) cs = c := by
  have primaryKey : cs.contains .primaryKey = c.isPrimaryKey := by
    rw [Bool.eq_iff_iff, List.contains_iff_mem, h.primaryKey]
  have unique : cs.contains .unique = c.isUnique := by
    rw [Bool.eq_iff_iff, List.contains_iff_mem, h.unique]
  have autoIncrement : (isSerial c || cs.contains .autoIncrement) = c.isAutoIncrement := by
    rw [Bool.eq_iff_iff, Bool.or_eq_true, List.contains_iff_mem, h.autoIncrement]
  unfold Clause.column
  extract_lets last? isPrimaryKey isAutoIncrement
  have isPrimaryKey_eq : isPrimaryKey = c.isPrimaryKey := primaryKey
  have isAutoIncrement_eq : isAutoIncrement = c.isAutoIncrement := autoIncrement
  have notNull : (cs.contains .notNull || isPrimaryKey || isAutoIncrement) = c.isNotNull := by
    rw [isPrimaryKey_eq, isAutoIncrement_eq, Bool.eq_iff_iff, Bool.or_eq_true, Bool.or_eq_true,
      List.contains_iff_mem, or_assoc, h.notNull]
  refine (Column.mk.injEq ..).mpr ⟨rfl, rfl, isPrimaryKey_eq, unique, notNull, isAutoIncrement_eq,
    lastSaid_of_iff .default (fun c e => ?_) h.default,
    lastSaid_of_iff .check (fun c g => ?_) h.check, findSome?_of_iff fun fk => ⟨?_, fun eq => ?_⟩⟩
  · cases c <;> simp [eq_comm]
  · cases c <;> simp [eq_comm]
  · rintro ⟨a, ha, said⟩
    cases a with
    | references r =>
      obtain ⟨fk', eq, rfl⟩ := (h.references r).1 (List.mem_reverse.1 ha)
      have same : fk' = fk := Option.some_inj.1 said
      rw [eq, same]
    | _ => simp at said
  · have mem := (h.references (reference fk)).2 ⟨fk, eq, rfl⟩
    exact ⟨_, List.mem_reverse.2 mem, rfl⟩

theorem Scan.step_blank_eq_start {s : Scan} (h : s.InQuotes) {c : Char} (blank : Text.isBlankChar c)
    (returns : s.step c = start) : s = start := by
  cases place : s.place with
  | plain => rwa [step_ordinary place (ordinary_of_isBlankChar blank)] at returns
  | literal quote escaped =>
    have noQuote : c ≠ quote := by
      rintro rfl
      rcases h c escaped place with rfl | rfl <;> exact absurd blank (by decide)
    have closed : (s.step c).place = .plain := by rw [returns]; rfl
    simp only [step, place, if_neg noQuote] at closed
    repeat' split at closed
    all_goals simp_all

theorem Expression.solid {e : Text} (h : Expression e) : Solid e := by
  rcases List.eq_nil_or_concat e with rfl | ⟨front, c, rfl⟩
  · exact .nil
  rw [List.concat_eq_append] at h ⊢
  cases blank : Text.isBlankChar c with
  | false => simp [Solid, blank]
  | true =>
    -- a blank closes no literal, so it stands outside of all, where it would end the expression
    have quoted := Scan.inQuotes_run Scan.inQuotes_start front
    have returns : (Scan.start.run front).step c = .start := by
      have all := h.closed.balanced.returns
      rwa [Scan.run_append] at all
    have stays := h.whole
    rw [Scan.avoids_append, Scan.step_blank_eq_start quoted blank returns, Bool.and_eq_true] at stays
    have stops : Scan.start.stops c := Scan.stops_of_blank rfl rfl blank
    simp [Scan.avoids, stops] at stays

theorem Clause.solid_text {c : Clause} (h : c.Writable) : Solid (c.word ++ c.operand) := by
  cases c with
  | primaryKey => decide +kernel
  | notNull => decide +kernel
  | unique => decide +kernel
  | autoIncrement => decide +kernel
  | default e =>
    exact .append_right (by simp [operand]) (.cons_space h.nonempty h.solid)
  | check g =>
    obtain ⟨inside, rfl, -⟩ := h
    exact .append_right (by simp [operand]) (.cons_space (by simp) (.group inside))
  | references r =>
    refine .append_right (by simp [operand]) (.cons_space (by simp) ?_)
    exact .append_right (by simp) (.cons_space (by simp [nameList]) (.group _))

theorem solid_clauseText {cs : List Clause} (h : ∀ c ∈ cs, c.Writable) : Solid (clauseText cs) := by
  induction cs with
  | nil => exact .nil
  | cons c cs ih =>
    rw [List.forall_mem_cons] at h
    have some : c.word ++ c.operand ≠ [] := by
      refine List.append_ne_nil_of_left_ne_nil (fun none => ?_) _
      have bare := c.isBareWord_word
      rw [none] at bare
      contradiction
    exact (Solid.cons_space some (c.solid_text h.1)).append (ih h.2)

theorem solid_vocabulary : ∀ words ∈ typeVocabulary,
    Text.join [' '] words ≠ [] ∧ Solid (Text.join [' '] words) := by
  decide +kernel

theorem solid_arrayText (sizes : List Text) : Solid (arrayText sizes) := by
  induction sizes with
  | nil => exact .nil
  | cons size sizes ih => exact (Solid.append_right (by simp) (by decide)).append ih

theorem WrittenType.text_ne_nil (w : WrittenType) : w.text ≠ [] := by
  have some := (solid_vocabulary w.words w.known).1
  exact List.append_ne_nil_of_left_ne_nil (List.append_ne_nil_of_left_ne_nil some _) _

theorem WrittenType.solid (w : WrittenType) : Solid w.text := by
  refine .append (.append (solid_vocabulary w.words w.known).2 ?_) (solid_arrayText w.sizes)
  unfold argumentText
  split
  · exact .group _
  · exact .nil

/-- A segment that begins with a name is a column, if the name does not announce an index. -/
theorem SegmentKind.ofText_of_name {s rest n : Text}
    (first : firstToken? s = some (.name n, rest))
    (noIndex : Text.isAmong n [Text.ofString "FULLTEXT", Text.ofString "SPATIAL"] = false) :
    SegmentKind.ofText s = .column := by
  obtain ⟨⟨l, rest'⟩, next, eq⟩ := Option.map_eq_some_iff.1 first
  obtain ⟨token, -⟩ := Prod.mk.inj eq
  have tokens : (tokenize s).map Lexeme.token = .name n :: (tokenize rest').map Lexeme.token := by
    rw [tokenize]
    split
    · next none => rw [next] at none; contradiction
    · next l' rest'' some =>
      rw [next] at some
      obtain ⟨rfl, rfl⟩ := Prod.mk.inj (Option.some_inj.1 some)
      rw [List.map_cons, ← token]
  rw [SegmentKind.ofText, tokens]
  simp [SegmentKind.ofToken?, noIndex]

structure WritableColumn (c : Column) : Prop where
  name : Quotable c.name
  noIndex : Text.isAmong c.name [Text.ofString "FULLTEXT", Text.ofString "SPATIAL"] = false
  type : ∃ w : WrittenType, w.text = c.type
  autoIncrement : isSerial c → c.isAutoIncrement
  notNull : c.isPrimaryKey ∨ c.isAutoIncrement → c.isNotNull
  default : ∀ e, c.defaultValue = some e → Expression e
  check : ∀ g, c.checkExpression = some g → IsGroup g
  foreignKey : ∀ fk, c.foreignKey = some fk → Quotable fk.table ∧ Quotable fk.column

def columnText (clauses : List Clause) (c : Column) : Text :=
  quoted c.name ++ ' ' :: (c.type ++ clauseText clauses)

/-- All that can be said about a column, once. -/
def plainClauses (c : Column) : List Clause :=
  (if c.isPrimaryKey then [.primaryKey] else []) ++
  (if c.isUnique then [.unique] else []) ++
  (if c.isNotNull then [.notNull] else []) ++
  (if c.isAutoIncrement then [.autoIncrement] else []) ++
  c.defaultValue.toList.map .default ++
  c.checkExpression.toList.map .check ++
  c.foreignKey.toList.map fun fk => .references (reference fk)

theorem WritableColumn.describes {c : Column} (h : WritableColumn c) :
    Describes (plainClauses c) c where
  primaryKey := by simp [plainClauses]
  unique := by simp [plainClauses]
  autoIncrement := by
    have serial := h.autoIncrement
    simpa [plainClauses] using serial
  notNull := by
    have implied := h.notNull
    simpa [plainClauses] using implied
  default e := by simp [plainClauses]
  check g := by simp [plainClauses]
  references r := by
    have turned : ∀ fk, reference fk = r ↔ r = reference fk := fun _ => eq_comm
    simp [plainClauses, turned]

namespace Describes

variable {cs : List Clause} {c : Column}

theorem writable (h : Describes cs c) (hc : WritableColumn c) : ∀ cl ∈ cs, cl.Writable := by
  intro cl mem
  cases cl with
  | default e => exact hc.default e ((h.default e).1 mem)
  | check g => exact hc.check g ((h.check g).1 mem)
  | references r =>
    obtain ⟨fk, eq, rfl⟩ := (h.references r).1 mem
    obtain ⟨table, column⟩ := hc.foreignKey fk eq
    exact ⟨table, by simp [reference], by simpa [reference] using column, rfl, rfl⟩
  | _ => trivial

theorem column?_columnText (h : Describes cs c) (hc : WritableColumn c) :
    column? (columnText cs c) = some c := by
  obtain ⟨w, type⟩ := hc.type
  have name : Reader.name? (columnText cs c) = (some c.name, ' ' :: (c.type ++ clauseText cs)) :=
    Reader.name?_some (firstToken?_quoted c.name (by simp)) rfl
  have typed : columnType? (' ' :: (c.type ++ clauseText cs)) = some ⟨c.type, clauseText cs⟩ := by
    rw [← type]
    exact w.columnType?_text (endsColumnType_clauseText cs)
  unfold column?
  rw [name]
  simp only [typed, Option.map_some, Option.getD_some]
  rw [Reader.clauses_clauseText (h.writable hc), h.column_eq]

theorem inline_columnText (h : Describes cs c) (hc : WritableColumn c) {b : Text}
    (hb : Delimited b) : Inline (columnText cs c) b := by
  obtain ⟨w, type⟩ := hc.type
  have clauses : Inline (clauseText cs) b := inline_clauseText (h.writable hc) hb
  have behindType : Delimited (clauseText cs ++ b) := by
    cases cs with
    | nil => exact hb
    | cons d cs => rfl
  have typed : Inline c.type (clauseText cs ++ b) := by
    rw [← type]
    exact w.inline behindType
  have spaced : Delimited (' ' :: (c.type ++ clauseText cs) ++ b) := rfl
  exact (hc.name.inline spaced).append (typed.append clauses).cons_space

theorem segment_columnText (h : Describes cs c) (hc : WritableColumn c) :
    Segment (columnText cs c) where
  balanced := (h.inline_columnText hc (b := []) rfl).balanced
  uncut := (h.inline_columnText hc (b := []) rfl).uncut
  nonempty := by simp [columnText]
  first := by
    intro d hd
    obtain rfl : '"' = d := Option.some_inj.1 hd
    decide
  last := by
    obtain ⟨w, type⟩ := hc.type
    have behind := w.solid.append (solid_clauseText (h.writable hc))
    have some := List.append_ne_nil_of_left_ne_nil w.text_ne_nil (clauseText cs)
    rw [type] at behind some
    exact .append_right (by simp) (.cons_space some behind)

theorem ofText_columnText (hc : WritableColumn c) (cs : List Clause) :
    SegmentKind.ofText (columnText cs c) = .column :=
  SegmentKind.ofText_of_name (firstToken?_quoted c.name (by simp)) hc.noIndex

end Describes

end SchemaDiagram.Sql
