import SchemaDiagram.Proofs.Sql.Checked.Scans
import SchemaDiagram.Proofs.Sql.Types

/-!
# Column types by offsets

The type at the head of a text, found with offsets into the text. A word of the vocabulary is probed
for where the text may end, or a character may still go on; that finds no word and is no fault.
-/

namespace SchemaDiagram

theorem Text.utf8Size_toLower (c : Char) : c.toLower.utf8Size = c.utf8Size := by
  unfold Char.toLower
  split
  · next upper =>
    have most : c.val.toNat ≤ 90 := UInt32.le_iff_toNat_le.1 upper.2
    have lowered := toNat_lowered most
    have small : (127 : UInt32).toNat = 127 := rfl
    rw [Char.utf8Size_eq_one_iff.2, Char.utf8Size_eq_one_iff.2]
    · exact UInt32.le_iff_toNat_le.2 (by omega)
    · exact UInt32.le_iff_toNat_le.2 (by dsimp only; omega)
  · rfl

theorem Text.byteLength_lower (t : Text) : byteLength (lower t) = t.byteLength := by
  simp [byteLength, lower, Function.comp_def, utf8Size_toLower]

theorem Text.SameName.byteLength {a b : Text} (h : SameName a b) : a.byteLength = b.byteLength := by
  rw [← byteLength_lower a, h, byteLength_lower]

namespace Sql.Checked

/-- The offset behind `word`, if that whole word stands at `offset` in any case. -/
def matchWord? (text : Text) (offset : Nat) (word : Text) : Checked (Option Nat) := do
  let stop := offset + word.byteLength
  match slice text offset stop with
  | .error _ => return none
  | .ok candidate =>
    if Text.SameName candidate word then
      let behind ← sliceFrom text stop
      return if behind.head?.any Text.isWordChar then none else some stop
    else return none

/-- The offset behind the words, white space between them. -/
def matchWords? (text : Text) (offset : Nat) : List Text → Checked (Option Nat)
  | [] => return some offset
  | [word] => matchWord? text offset word
  | word :: words => do
    let some stop ← matchWord? text offset word | return none
    let next ← skipBlanks text stop
    if next = stop then return none else matchWords? text next words

/-- The first type name of the vocabulary that stands at `offset`, and the offset behind it. -/
def matchName? (text : Text) (offset : Nat) : List (List Text) → Checked (Option (Text × Nat))
  | [] => return none
  | words :: others => do
    match ← matchWords? text offset words with
    | some stop => return some (Text.join [' '] words, stop)
    | none => matchName? text offset others

/-- The offset behind the word characters, and the points between them, that stand at `stop`. -/
def wordStop (start stop : Nat) : Text → Nat
  | [] => stop
  | c :: rest =>
    if Text.isWordChar c || c == '.' && decide (start < stop) && rest.head?.any Text.isWordChar then
      wordStop start (stop + c.utf8Size) rest
    else stop

/-- The bare type name at `start`, and the offset behind it. -/
def matchBareType? (text : Text) (start : Nat) : Checked (Option (Text × Nat)) := do
  match ← matchName? text start typeVocabulary with
  | some found => return some found
  | none =>
    let behind ← sliceFrom text start
    let stop := wordStop start start behind
    if start < stop then return some (Text.upper (← slice text start stop), stop) else return none

/-- The arguments behind a type name, parentheses included, and the offset behind them. -/
def matchArguments (text : Text) (offset : Nat) : Checked (Text × Nat) := do
  let first ← skipBlanks text offset
  match ← balancedGroup? text first with
  | some (group, stop) => return (Text.upperFull group, stop)
  | none => return ([], offset)

/-- The array suffix behind a type name, and the offset behind it. -/
def matchArray? (text : Text) (offset : Nat) : Checked (Option (Text × Nat)) := do
  let first ← skipBlanks text offset
  let behind ← sliceFrom text first
  if behind.head? = some '[' ∧ ']' ∈ behind then
    let close := first + Text.byteLength (behind.takeWhile (· ≠ ']'))
    let size := Text.trim (← slice text (first + 1) close)
    return if size.all Text.isAsciiDigit then some ('[' :: size ++ [']'], close + 1) else none
  else return none

/-- All array suffixes behind a type name, and the offset behind them. -/
def matchArrays (text : Text) (offset : Nat) : Checked (Text × Nat) := do
  match ← matchArray? text offset with
  | none => return ([], offset)
  | some (suffix, stop) =>
    if _ : offset < stop ∧ stop ≤ text.byteLength then
      let (others, left) ← matchArrays text stop
      return (suffix ++ others, left)
    else throw .stuck
termination_by text.byteLength - offset

/-- The type at the head of the text, and the offset behind it. -/
def matchType? (text : Text) : Checked (Option (Text × Nat)) := do
  let start ← skipBlanks text 0
  if start = text.byteLength then return none
  else
    match ← matchBareType? text start with
    | none =>
      let behind ← sliceFrom text start
      let stop := start + Text.byteLength (behind.takeWhile (!Text.isBlankChar ·))
      return some (Text.upperFull (← slice text start stop), stop)
    | some (base, stop) =>
      if Text.isAmong base clauseWords then return none
      else
        let (arguments, stop) ← matchArguments text stop
        let (arrays, stop) ← matchArrays text stop
        bounds text 0 stop
        return some (base ++ arguments ++ arrays, stop)

theorem behindWord?_of_sameName {a word : Text} (h : Text.SameName a word) (t : Text) :
    behindWord? word (a ++ t) = if t.head?.any Text.isWordChar then none else some t := by
  induction word generalizing a with
  | nil =>
    obtain rfl := List.map_eq_nil_iff.1 h
    rfl
  | cons w word ih =>
    cases a with
    | nil => exact absurd h (by simp [Text.SameName, Text.lower])
    | cons c a =>
      obtain ⟨first, others⟩ := List.cons.inj h
      rw [List.cons_append, behindWord?, if_pos first, ih others]

theorem exists_of_behindWord? {word t rest : Text} (h : behindWord? word t = some rest) :
    ∃ a, t = a ++ rest ∧ Text.SameName a word := by
  induction word generalizing t with
  | nil =>
    rw [behindWord?] at h
    split at h
    · contradiction
    · exact ⟨[], Option.some.inj h, rfl⟩
  | cons w word ih =>
    cases t with
    | nil => contradiction
    | cons c t =>
      rw [behindWord?] at h
      split at h
      · next first =>
        obtain ⟨a, rfl, others⟩ := ih h
        exact ⟨c :: a, rfl, List.cons_eq_cons.2 ⟨first, others⟩⟩
      · contradiction

theorem behindWords?_more (w v : Text) (words : List Text) (t : Text) :
    behindWords? (w :: v :: words) t = (behindWord? w t).bind fun behind =>
      if blanks behind = [] then none else behindWords? (v :: words) (Text.trimStart behind) := by
  rw [behindWords?_cons_cons]
  cases behindWord? w t with
  | none => rfl
  | some behind =>
    cases behind with
    | nil => rfl
    | cons c rest =>
      by_cases blank : Text.isBlankChar c
      · simp [blanks, Text.trimStart, blank]
      · simp [blanks, blank]

theorem dottedWord_append (started : Bool) (t : Text) :
    (dottedWord started t).1 ++ (dottedWord started t).2 = t := by
  induction t generalizing started with
  | nil => rfl
  | cons c rest ih =>
    rw [dottedWord]
    split
    · simp [ih]
    · rfl

theorem wordStop_eq (start stop : Nat) (t : Text) (ordered : start ≤ stop) :
    wordStop start stop t = stop + (dottedWord (decide (start < stop)) t).1.byteLength := by
  induction t generalizing stop with
  | nil => rfl
  | cons c rest ih =>
    have longer : start < stop + c.utf8Size := by
      have positive := c.utf8Size_pos
      omega
    rw [wordStop, dottedWord]
    split
    · rw [ih _ (Nat.le_of_lt longer), decide_eq_true longer, Text.byteLength_cons, Nat.add_assoc]
    · rfl

namespace StartsAt

variable {text t : Text} {offset : Nat}

theorem matchWord? (h : StartsAt text offset t) (word : Text) :
    Gives (Option.Rel (StartsAt text)) (matchWord? text offset word) (behindWord? word t) := by
  rw [Checked.matchWord?]
  split
  · next sliced =>
    cases found : behindWord? word t with
    | none => exact .pure .none
    | some rest =>
      obtain ⟨a, rfl, same⟩ := exists_of_behindWord? found
      rw [← same.byteLength, h.slice] at sliced
      contradiction
  · next candidate sliced =>
    obtain ⟨rest, rfl, stop⟩ := h.eq_of_slice sliced
    split
    · next same =>
      rw [behindWord?_of_sameName same]
      rw [stop]
      apply Gives.next h.behind.sliceFrom
      split
      · exact .pure .none
      · exact .pure (.some h.behind)
    · next other =>
      cases found : behindWord? word (candidate ++ rest) with
      | none => exact .pure .none
      | some behind =>
        obtain ⟨a, split, same⟩ := exists_of_behindWord? found
        have size : candidate.byteLength = a.byteLength := by
          rw [same.byteLength]
          omega
        rw [(Text.append_inj_of_byteLength split size).1] at other
        exact absurd same other

theorem matchWords? (h : StartsAt text offset t) (words : List Text) :
    Gives (Option.Rel (StartsAt text)) (matchWords? text offset words) (behindWords? words t) := by
  induction words generalizing offset t with
  | nil => exact .pure (.some h)
  | cons word words ih =>
    cases words with
    | nil => exact h.matchWord? word
    | cons next words =>
      rw [Checked.matchWords?, behindWords?_more]
      · apply Gives.option (h.matchWord? word)
        · intro missing
          rw [missing]
          exact .pure .none
        · intro stop behind found place
          rw [found]
          apply Gives.next place.skipBlanks
          by_cases none : blanks behind = []
          · simp only [none, Text.byteLength_nil, Nat.add_zero, if_true, Option.bind_some]
            exact .pure .none
          · have longer : stop + (blanks behind).byteLength ≠ stop := by
              have positive := Text.byteLength_pos none
              omega
            simp only [if_neg longer, if_neg none, Option.bind_some]
            exact ih place.trimStart
      · simp

theorem matchName? (h : StartsAt text offset t) (names : List (List Text)) :
    Gives (Option.Rel fun found cut => found.1 = cut.1 ∧ StartsAt text found.2 cut.2)
      (matchName? text offset names)
      (names.findSome? fun words =>
        (behindWords? words t).map fun rest => (Text.join [' '] words, rest)) := by
  induction names with
  | nil => exact .pure .none
  | cons words others ih =>
    rw [Checked.matchName?, List.findSome?_cons]
    apply Gives.option (h.matchWords? words)
    · intro missing
      rw [missing]
      exact ih
    · intro stop rest found place
      rw [found]
      exact .pure (.some ⟨rfl, place⟩)

theorem matchBareType? (h : StartsAt text offset t) :
    Gives (Option.Rel fun found cut => found.1 = cut.1 ∧ StartsAt text found.2 cut.2)
      (matchBareType? text offset) (typeName? t) := by
  rw [Checked.matchBareType?, typeName?]
  apply Gives.option (h.matchName? typeVocabulary)
  · intro unknown
    rw [unknown, Option.none_or]
    apply Gives.next h.sliceFrom
    dsimp only
    rw [wordStop_eq _ _ _ (Nat.le_refl _), decide_eq_false (Nat.lt_irrefl _)]
    rcases dotted : dottedWord false t with ⟨word, rest⟩
    have whole := dottedWord_append false t
    rw [dotted] at whole
    rw [← whole] at h
    cases word with
    | nil => simpa using Gives.pure .none
    | cons c word =>
      have longer : offset < offset + Text.byteLength (c :: word) := by
        have positive := Text.byteLength_pos (List.cons_ne_nil c word)
        omega
      rw [if_pos longer]
      exact .next h.slice (.pure (.some ⟨rfl, h.behind⟩))
  · intro found cut known related
    rw [known]
    exact .pure (.some related)

theorem matchArguments (h : StartsAt text offset t) :
    Gives (fun found cut => found.1 = cut.1 ∧ StartsAt text found.2 cut.2)
      (matchArguments text offset) (typeArguments t) := by
  rw [Checked.matchArguments]
  apply Gives.next h.skipBlanks
  have same : typeArguments t = ((headGroup? (Text.trimStart t)).map fun cut =>
      (Text.upperFull cut.1, cut.2)).getD ([], t) := by
    rw [typeArguments]
    generalize Text.trimStart t = start
    split
    · next rest =>
      rw [headGroup?]
      cases closeGroup? rest <;> rfl
    · next closed =>
      rw [headGroup?]
      · rfl
      · exact closed
  rw [same]
  apply Gives.next h.trimStart.balancedGroup?
  cases found : headGroup? (Text.trimStart t) with
  | none => exact .pure ⟨rfl, h⟩
  | some cut =>
    have first := h.trimStart
    rw [← headGroup?_append found] at first
    exact .pure ⟨rfl, first.behind⟩

theorem matchArray? (h : StartsAt text offset t) :
    Gives (Option.Rel fun found cut => found.1 = cut.1 ∧ StartsAt text found.2 cut.2)
      (matchArray? text offset) (arraySuffix? t) := by
  have first := h.trimStart
  apply Gives.next h.skipBlanks
  apply Gives.next first.sliceFrom
  by_cases opens : (Text.trimStart t).head? = some '['
  · obtain ⟨rest, trimmed⟩ := List.head?_eq_some_iff.1 opens
    rw [trimmed] at first
    rw [arraySuffix?, trimmed]
    generalize offset + (blanks t).byteLength = start at first
    have inside : StartsAt text (start + 1) rest := first.behind_cons
    by_cases closes : ']' ∈ rest
    · obtain ⟨size, left, rfl, unclosed⟩ := List.eq_append_cons_of_mem closes
      have other : ∀ c ∈ size, (decide (c ≠ ']') : Bool) := by
        intro c mem
        simpa using ne_of_mem_of_not_mem mem unclosed
      have taken : (size ++ ']' :: left).takeWhile (· ≠ ']') = size := by
        rw [List.takeWhile_append_of_pos other]
        simp
      have dropped : (size ++ ']' :: left).dropWhile (· ≠ ']') = ']' :: left := by
        rw [List.dropWhile_append_of_pos other]
        simp
      have bracket : ('[' :: (size ++ ']' :: left)).takeWhile (· ≠ ']') = '[' :: size := by
        rw [List.takeWhile_cons_of_pos (by decide), taken]
      simp only [taken, dropped, bracket]
      rw [if_pos ⟨rfl, List.mem_cons_of_mem _ closes⟩, Text.byteLength_cons, ← Nat.add_assoc]
      apply Gives.next inside.slice
      split
      · exact .pure (.some ⟨rfl, inside.behind.behind_cons⟩)
      · exact .pure .none
    · have other : ∀ c ∈ rest, (decide (c ≠ ']') : Bool) := by
        intro c mem
        simpa using ne_of_mem_of_not_mem mem closes
      have dropped : rest.dropWhile (· ≠ ']') = [] := by
        rw [← List.append_nil rest, List.dropWhile_append_of_pos other, List.dropWhile_nil]
      have unclosed : ']' ∉ '[' :: rest := by
        simpa using closes
      simp only [dropped]
      rw [if_neg (mt And.right unclosed)]
      exact .pure .none
  · rw [arraySuffix?_of_head opens, if_neg (mt And.left opens)]
    exact .pure .none

theorem matchArrays (h : StartsAt text offset t) :
    Gives (fun found cut => found.1 = cut.1 ∧ StartsAt text found.2 cut.2)
      (matchArrays text offset) (arraySuffixes t) := by
  induction t using arraySuffixes.induct generalizing offset with
  | case1 t none =>
    rw [Checked.matchArrays, arraySuffixes_eq, none]
    apply Gives.option h.matchArray?
    · intro _
      exact .pure ⟨rfl, h⟩
    · intro found cut some
      rw [none] at some
      contradiction
  | case2 t suffix rest some _ _ _ ih =>
    rw [Checked.matchArrays, arraySuffixes_eq, some]
    apply Gives.option h.matchArray?
    · intro none
      rw [some] at none
      contradiction
    · intro found cut same related
      obtain rfl := Option.some.inj (some.symm.trans same)
      obtain ⟨rfl, place⟩ := related
      have further : offset < found.2 ∧ found.2 ≤ text.byteLength :=
        ⟨h.lt_of_shorter place (arraySuffix?_shorter some), place.le_byteLength⟩
      dsimp only
      rw [dif_pos further]
      apply Gives.bind (ih place)
      rintro others ⟨same, left⟩
      exact .pure ⟨congrArg (found.1 ++ ·) same, left⟩

theorem matchType? (text : Text) :
    Gives (Option.Rel fun found (type : ColumnType) =>
        found.1 = type.name ∧ StartsAt text found.2 type.rest)
      (matchType? text) (columnType? text) := by
  have first := (start text).trimStart
  apply Gives.next (start text).skipBlanks
  rw [Nat.zero_add] at first ⊢
  by_cases blank : Text.trimStart text = []
  · have stop := first.add_byteLength
    rw [blank, Text.byteLength_nil, Nat.add_zero] at stop
    rw [if_pos stop, columnType?, blank]
    exact .pure .none
  · have further : (blanks text).byteLength ≠ text.byteLength := by
      have positive := Text.byteLength_pos blank
      have stop := first.add_byteLength
      omega
    rw [if_neg further, columnType?_eq blank]
    apply Gives.option first.matchBareType?
    · intro missing
      rw [missing]
      have split := List.takeWhile_append_dropWhile (p := (!Text.isBlankChar ·))
        (l := Text.trimStart text)
      rw [← split] at first
      apply Gives.next first.sliceFrom
      dsimp only
      rw [split]
      exact .next first.slice (.pure (.some ⟨rfl, first.behind⟩))
    · intro found bare known related
      rw [known]
      obtain ⟨base, stop⟩ := found
      obtain ⟨bareName, rest⟩ := bare
      obtain ⟨rfl, place⟩ : base = bareName ∧ StartsAt text stop rest := related
      dsimp only
      split
      · exact .pure .none
      · apply Gives.bind place.matchArguments
        rintro arguments ⟨shown, behind⟩
        apply Gives.bind behind.matchArrays
        rintro arrays ⟨suffix, left⟩
        apply Gives.next left.bounds_start
        rw [shown, suffix]
        exact .pure (.some ⟨rfl, left⟩)

end StartsAt

end Sql.Checked

end SchemaDiagram
