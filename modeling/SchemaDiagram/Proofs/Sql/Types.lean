import SchemaDiagram.Proofs.Sql.Closed
import SchemaDiagram.Proofs.Sql.Vocabulary

/-!
# Types that are read back

A type of the vocabulary is recognised as itself, with its arguments and array suffixes, wherever a
clause or nothing at all stands behind it.
-/

namespace SchemaDiagram.Sql

theorem join_cons_cons (v w : Text) (words : List Text) (t : Text) :
    Text.join [' '] (v :: w :: words) ++ t = v ++ ' ' :: (Text.join [' '] (w :: words) ++ t) := by
  simp [Text.join, List.intercalate_cons_cons]

theorem phrase_join {words : List Text} (some : words ≠ []) {t : Text} (ht : Apart t) :
    Phrase t words (Text.join [' '] words ++ t) := by
  match words with
  | [w] =>
    have alone : Text.join [' '] [w] ++ t = [] ++ (w ++ t) := by simp [Text.join]
    rw [alone]
    exact .cons rfl (.refl w) ht .nil
  | v :: w :: words =>
    have behind := phrase_join (List.cons_ne_nil w words) ht
    rw [join_cons_cons]
    exact @Phrase.cons t [] v v _ _ rfl (.refl v) rfl
      (behind.behind_blank (b := [' ']) (List.cons_ne_nil _ _) rfl)

theorem vocabulary_no_clause :
    ∀ base ∈ typeVocabulary, Text.isAmong (Text.join [' '] base) clauseWords = false := by
  decide +kernel

theorem vocabulary_harmless :
    ∀ base ∈ typeVocabulary, ∀ c ∈ Text.join [' '] base, harmless c ∧ c ≠ ',' := by
  decide +kernel

theorem endsName_opening (t : Text) : EndsName ('(' :: t) where
  noWord := rfl
  noMore w hw := behindWord?_of_differs ((laterWords_differ w hw).2 ['('] (by simp)) (.refl ['(']) t

theorem endsName_bracket (t : Text) : EndsName ('[' :: t) where
  noWord := rfl
  noMore w hw := behindWord?_of_differs ((laterWords_differ w hw).2 ['['] (by simp)) (.refl ['[']) t

/-- Nothing that belongs to a type stands in the text behind its white space. -/
structure BehindType (t : Text) : Prop where
  noMore : ∀ w ∈ laterWords, behindWord? w (Text.trimStart t) = none
  noGroup : (Text.trimStart t).head? ≠ some '('
  noBracket : (Text.trimStart t).head? ≠ some '['

theorem behindType_of_blank {t : Text} (h : Text.trimStart t = []) : BehindType t := by
  refine ⟨fun w hw => ?_, by simp [h], by simp [h]⟩
  rw [h]
  exact endsName_nil.noMore w hw

theorem behindType_of_clause {t k v u : Text} (hk : k ∈ clauseWords) (same : Text.SameName v k)
    (eq : Text.trimStart t = v ++ u) : BehindType t := by
  have head : (Text.trimStart t).head?.all Text.isWordChar := by
    obtain ⟨some, chars⟩ := (isWord_of_clauseWords k hk).spelled same
    obtain ⟨c, v, rfl⟩ := List.exists_cons_of_ne_nil some
    rw [eq]
    exact (chars c List.mem_cons_self).1
  have noMark {c : Char} (hc : Text.isWordChar c = false) : (Text.trimStart t).head? ≠ some c := by
    intro opened
    rw [opened] at head
    simp [hc] at head
  refine ⟨fun w hw => ?_, noMark rfl, noMark rfl⟩
  rw [eq]
  exact behindWord?_of_differs ((laterWords_differ w hw).2 k (by simp [hk])) same u

def EndsColumnType (t : Text) : Prop := t = [] ∨ ∃ k ∈ clauseWords, ∃ u, t = ' ' :: (k ++ u)

theorem EndsColumnType.apart {t : Text} (h : EndsColumnType t) : Apart t := by
  rcases h with rfl | ⟨k, -, u, rfl⟩ <;> rfl

theorem EndsColumnType.behindType {t : Text} (h : EndsColumnType t) : BehindType t := by
  rcases h with rfl | ⟨k, hk, u, rfl⟩
  · exact behindType_of_blank rfl
  · exact behindType_of_clause hk (.refl k) ((isWord_of_clauseWords k hk).trimStart u)

theorem typeArguments_of_head {t : Text} (h : (Text.trimStart t).head? ≠ some '(') :
    typeArguments t = ([], t) := by
  unfold typeArguments
  split
  · next opened => simp [opened] at h
  · rfl

theorem arraySuffixes_eq (t : Text) :
    arraySuffixes t = match arraySuffix? t with
      | none => ([], t)
      | some (suffix, rest) => (suffix ++ (arraySuffixes rest).1, (arraySuffixes rest).2) := by
  rw [arraySuffixes]
  split
  · next none => rw [none]
  · next some => rw [some]

theorem arraySuffix?_of_head {t : Text} (h : (Text.trimStart t).head? ≠ some '[') :
    arraySuffix? t = none := by
  unfold arraySuffix?
  split
  · next opened => simp [opened] at h
  · rfl

theorem arraySuffixes_of_head {t : Text} (h : (Text.trimStart t).head? ≠ some '[') :
    arraySuffixes t = ([], t) := by
  rw [arraySuffixes_eq, arraySuffix?_of_head h]

theorem columnType?_eq {t : Text} (nonblank : Text.trimStart t ≠ []) :
    columnType? t = match typeName? (Text.trimStart t) with
      | none =>
        some ⟨Text.upperFull ((Text.trimStart t).takeWhile (!Text.isBlankChar ·)),
          (Text.trimStart t).dropWhile (!Text.isBlankChar ·)⟩
      | some (base, rest) =>
        if Text.isAmong base clauseWords then none
        else
          some ⟨base ++ (typeArguments rest).1 ++ (arraySuffixes (typeArguments rest).2).1,
            (arraySuffixes (typeArguments rest).2).2⟩ := by
  unfold columnType?
  cases start : Text.trimStart t with
  | nil => contradiction
  | cons c rest => rfl

theorem mem_digits {c : Char} (h : Text.isAsciiDigit c) :
    c ∈ ['0', '1', '2', '3', '4', '5', '6', '7', '8', '9'] := by
  rw [Text.isAsciiDigit, Bool.and_eq_true, decide_eq_true_eq, decide_eq_true_eq] at h
  have least : 48 ≤ c.toNat := h.1
  have most : c.toNat ≤ 57 := h.2
  have cases : c.toNat = 48 ∨ c.toNat = 49 ∨ c.toNat = 50 ∨ c.toNat = 51 ∨ c.toNat = 52 ∨
      c.toNat = 53 ∨ c.toNat = 54 ∨ c.toNat = 55 ∨ c.toNat = 56 ∨ c.toNat = 57 := by omega
  rcases cases with h | h | h | h | h | h | h | h | h | h <;> simp [← Char.toNat_inj, h]

def isArgumentChar (c : Char) : Bool := Text.isAsciiDigit c || c ∈ [',', ' ', '.']

theorem argumentChar_facts {c : Char} (h : isArgumentChar c) :
    harmless c ∧ Text.upperChar c = [c] := by
  have facts : ∀ d ∈ ['0', '1', '2', '3', '4', '5', '6', '7', '8', '9'] ++ [',', ' ', '.'],
      harmless d ∧ Text.upperChar d = [d] := by decide
  refine facts c ?_
  rcases Bool.or_eq_true_iff.1 h with digit | other
  · exact List.mem_append_left _ (mem_digits digit)
  · exact List.mem_append_right _ (of_decide_eq_true other)

theorem digit_facts {c : Char} (h : Text.isAsciiDigit c) :
    (ordinary c ∧ c ≠ ',' ∧ c ≠ '-' ∧ c ≠ '/' ∧ c ≠ '\r') ∧ c ≠ ']' ∧
      Text.isBlankChar c = false := by
  have facts : ∀ d ∈ ['0', '1', '2', '3', '4', '5', '6', '7', '8', '9'],
      (ordinary d ∧ d ≠ ',' ∧ d ≠ '-' ∧ d ≠ '/' ∧ d ≠ '\r') ∧ d ≠ ']' ∧
        Text.isBlankChar d = false := by decide
  exact facts c (mem_digits h)

theorem typeArguments_of_balanced {gap inside : Text} (blank : Text.isBlank gap)
    (balanced : Balanced inside) (t : Text) :
    typeArguments (gap ++ '(' :: (inside ++ ')' :: t)) =
      (Text.upperFull ('(' :: inside ++ [')']), t) := by
  have opened : Text.trimStart (gap ++ '(' :: (inside ++ ')' :: t)) =
      '(' :: (inside ++ ')' :: t) := by
    rw [trimStart_behind_blank blank]
    rfl
  rw [typeArguments, opened]
  simp only [balanced.closeGroup?]

theorem typeArguments_group {inside : Text} (h : ∀ c ∈ inside, isArgumentChar c) (t : Text) :
    typeArguments ('(' :: (inside ++ ')' :: t)) = ('(' :: inside ++ [')'], t) := by
  have balanced : Balanced inside :=
    (closed_of_harmless fun c hc => (argumentChar_facts (h c hc)).1).balanced
  have upper : Text.upperFull ('(' :: inside ++ [')']) = '(' :: inside ++ [')'] := by
    have same : inside.flatMap Text.upperChar = inside := by
      clear balanced
      induction inside with
      | nil => rfl
      | cons c inside ih =>
        rw [List.forall_mem_cons] at h
        rw [List.flatMap_cons, (argumentChar_facts h.1).2, ih h.2]
        rfl
    change '(' :: (inside ++ [')']).flatMap Text.upperChar = _
    rw [List.flatMap_append, same]
    rfl
  have group : typeArguments ([] ++ '(' :: (inside ++ ')' :: t)) = _ :=
    typeArguments_of_balanced rfl balanced t
  rwa [upper] at group

def arrayText (sizes : List Text) : Text := sizes.flatMap fun size => '[' :: size ++ [']']

theorem arraySuffix?_size {size : Text} (h : ∀ c ∈ size, Text.isAsciiDigit c) (t : Text) :
    arraySuffix? ('[' :: (size ++ ']' :: t)) = some ('[' :: size ++ [']'], t) := by
  have inside : ∀ c ∈ size, (c ≠ ']' : Bool) := fun c hc => by simp [(digit_facts (h c hc)).2.1]
  have taken : (size ++ ']' :: t).takeWhile (· ≠ ']') = size := by
    rw [List.takeWhile_append_of_pos inside]
    simp
  have left : (size ++ ']' :: t).dropWhile (· ≠ ']') = ']' :: t := by
    rw [List.dropWhile_append_of_pos inside]
    simp
  have trimmed : Text.trim size = size :=
    Text.trim_eq_self (fun c hc => (digit_facts (h c (List.mem_of_head? hc))).2.2)
      (fun c hc => (digit_facts (h c (List.mem_of_getLast? hc))).2.2)
  have opened : Text.trimStart ('[' :: (size ++ ']' :: t)) = '[' :: (size ++ ']' :: t) := rfl
  rw [arraySuffix?, opened]
  simp only [taken, left, trimmed, List.all_eq_true.2 h, if_true]

theorem arraySuffixes_arrayText {sizes : List Text} (h : ∀ s ∈ sizes, ∀ c ∈ s, Text.isAsciiDigit c)
    {t : Text} (ht : (Text.trimStart t).head? ≠ some '[') :
    arraySuffixes (arrayText sizes ++ t) = (arrayText sizes, t) := by
  induction sizes with
  | nil => exact arraySuffixes_of_head ht
  | cons size sizes ih =>
    rw [List.forall_mem_cons] at h
    have first : arrayText (size :: sizes) ++ t =
        '[' :: (size ++ ']' :: (arrayText sizes ++ t)) := by
      simp [arrayText]
    rw [first, arraySuffixes_eq, arraySuffix?_size h.1]
    simp only [ih h.2]
    simp [arrayText]

/-- A type of the vocabulary with arguments, perhaps, and the sizes of its arrays. -/
structure WrittenType where
  words : List Text
  arguments : Option Text
  sizes : List Text
  known : words ∈ typeVocabulary
  argumentChars : ∀ a ∈ arguments, ∀ c ∈ a, isArgumentChar c
  sizeDigits : ∀ s ∈ sizes, ∀ c ∈ s, Text.isAsciiDigit c

namespace WrittenType

def argumentText (w : WrittenType) : Text :=
  match w.arguments with
  | some inside => '(' :: inside ++ [')']
  | none => []

def text (w : WrittenType) : Text :=
  Text.join [' '] w.words ++ w.argumentText ++ arrayText w.sizes

theorem endsName_behind (w : WrittenType) {t : Text} (ht : BehindType t)
    (apart : Apart (w.argumentText ++ (arrayText w.sizes ++ t))) :
    EndsName (w.argumentText ++ (arrayText w.sizes ++ t)) := by
  unfold argumentText at apart ⊢
  split at *
  · exact endsName_opening _
  · cases sizes : w.sizes with
    | nil =>
      rw [sizes] at apart
      exact ⟨apart.noWord, ht.noMore⟩
    | cons size sizes => exact endsName_bracket _

theorem apart_behind (w : WrittenType) {t : Text} (ht : Apart t) :
    Apart (w.argumentText ++ (arrayText w.sizes ++ t)) := by
  unfold argumentText
  split
  · rfl
  · cases w.sizes with
    | nil => exact ht
    | cons size sizes => rfl

theorem typeArguments_behind (w : WrittenType) {t : Text} (ht : BehindType t) :
    typeArguments (w.argumentText ++ (arrayText w.sizes ++ t)) =
      (w.argumentText, arrayText w.sizes ++ t) := by
  have chars := w.argumentChars
  unfold argumentText
  split
  · next inside eq =>
    have group := typeArguments_group (chars inside eq) (arrayText w.sizes ++ t)
    simpa using group
  · refine typeArguments_of_head ?_
    cases w.sizes with
    | nil => exact ht.noGroup
    | cons size sizes =>
      intro head
      have opened : some '[' = some '(' := head
      simp at opened

theorem columnType?_of_typeName? {t base rest : Text} (nonblank : Text.trimStart t ≠ [])
    (found : typeName? (Text.trimStart t) = some (base, rest))
    (noClause : Text.isAmong base clauseWords = false) :
    columnType? t = some
      ⟨base ++ (typeArguments rest).1 ++ (arraySuffixes (typeArguments rest).2).1,
        (arraySuffixes (typeArguments rest).2).2⟩ := by
  rw [columnType?_eq nonblank, found]
  simp only [noClause, Bool.false_eq_true, if_false]

theorem columnType?_phrase (w : WrittenType) {t u : Text} (ht : BehindType t)
    (h : Phrase (w.argumentText ++ (arrayText w.sizes ++ t)) w.words u) :
    columnType? u = some ⟨w.text, t⟩ := by
  obtain ⟨some, words⟩ := isWord_of_vocabulary w.words w.known
  have found := typeName?_phrase h w.known (w.endsName_behind ht (h.apart some))
  rw [columnType?_of_typeName? (h.trimStart_ne_nil some words) found
    (vocabulary_no_clause w.words w.known), w.typeArguments_behind ht,
    arraySuffixes_arrayText w.sizeDigits ht.noBracket]
  rfl

theorem columnType?_text (w : WrittenType) {t : Text} (ht : EndsColumnType t) :
    columnType? (' ' :: (w.text ++ t)) = some ⟨w.text, t⟩ := by
  have some := (isWord_of_vocabulary w.words w.known).1
  have whole : ' ' :: (w.text ++ t) =
      [' '] ++ (Text.join [' '] w.words ++ (w.argumentText ++ (arrayText w.sizes ++ t))) := by
    simp [text]
  rw [whole]
  exact w.columnType?_phrase ht.behindType
    ((phrase_join some (w.apart_behind ht.apart)).behind_blank some rfl)

theorem inline_words (w : WrittenType) {b : Text} (hb : Delimited b) :
    Inline (Text.join [' '] w.words) b :=
  inline_of_harmless (vocabulary_harmless w.words w.known) hb

theorem inline_argumentText (w : WrittenType) (b : Text) : Inline w.argumentText b := by
  have chars := w.argumentChars
  unfold argumentText
  split
  · next inside eq =>
    have closed : Closed inside :=
      closed_of_harmless fun c hc => (argumentChar_facts (chars inside eq c hc)).1
    have delimited : Delimited (')' :: b) := rfl
    exact .group (closed.standalone delimited)
  · exact .nil b

end WrittenType

theorem quotedName_bracket {size : Text} (h : ∀ c ∈ size, c ≠ ']') (b : Text) :
    (quotedName ']' (size ++ ']' :: b)).rest = b := by
  induction size with
  | nil => cases b <;> simp [quotedName]
  | cons c size ih =>
    rw [List.forall_mem_cons] at h
    rw [List.cons_append, quotedName.eq_def]
    simp [h.1, ih h.2, Piece.behind]

theorem inline_size {size : Text} (h : ∀ c ∈ size, Text.isAsciiDigit c) (b : Text) :
    Inline ('[' :: size ++ [']']) b := by
  have chars : ∀ c ∈ '[' :: size ++ [']'], ordinary c ∧ c ≠ ',' ∧ c ≠ '-' ∧ c ≠ '/' ∧ c ≠ '\r' := by
    intro c hc
    rw [List.cons_append, List.mem_cons, List.mem_append, List.mem_singleton] at hc
    rcases hc with rfl | hc | rfl
    · decide
    · exact (digit_facts (h c hc)).1
    · decide
  have inside : ∀ c ∈ size, c ≠ ']' := fun c hc => (digit_facts (h c hc)).2.1
  refine ⟨⟨balanced_of_ordinary fun c hc => (chars c hc).1, fun free => ?_, ?_, fun mem => ?_⟩, ?_⟩
  · exact Scan.commentFree_append_of_ordinary
      (fun c hc => ⟨(chars c hc).1, (chars c hc).2.2.1, (chars c hc).2.2.2.1⟩) free
  · have behind : (tokenAt '[' ((size ++ [']']) ++ ([] ++ b))).rest = [] ++ b := by
      have text : (size ++ [']']) ++ ([] ++ b) = size ++ ']' :: b := by simp
      rw [text]
      exact quotedName_bracket inside b
    have splits := @Splits.token '[' (size ++ [']']) [] b rfl behind (.nil b)
    simpa using splits
  · exact (chars _ mem).2.2.2.2 rfl
  · exact Scan.avoids_of_ordinary rfl fun c hc =>
      ⟨(chars c hc).1, decide_eq_false fun cut => (chars c hc).2.1 (Scan.eq_of_mark_comma cut.1)⟩

theorem inline_arrayText {sizes : List Text} (h : ∀ s ∈ sizes, ∀ c ∈ s, Text.isAsciiDigit c)
    (b : Text) : Inline (arrayText sizes) b := by
  induction sizes with
  | nil => exact .nil b
  | cons size sizes ih =>
    rw [List.forall_mem_cons] at h
    exact (inline_size h.1 _).append (ih h.2)

theorem WrittenType.inline (w : WrittenType) {b : Text} (hb : Delimited b) : Inline w.text b := by
  refine .append (.append (w.inline_words ?_) (w.inline_argumentText _))
    (inline_arrayText w.sizeDigits b)
  unfold argumentText
  split
  · rfl
  · cases w.sizes with
    | nil => exact hb
    | cons size sizes => rfl

end SchemaDiagram.Sql
