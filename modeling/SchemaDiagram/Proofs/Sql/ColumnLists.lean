import SchemaDiagram.Proofs.Sql.Checked.Lists
import SchemaDiagram.Proofs.Sql.ClauseLocality
import SchemaDiagram.Proofs.Sql.PairedTokens

/-!
# Lists of columns

A list of columns is read by its tokens, but a group in it is passed by a scan. Both keep to the
same level: of each element the first name is read, and nothing inside a group begins an element,
ends one or ends the list.
-/

namespace SchemaDiagram.Sql

/-- What may follow the name of an element: tokens that are no comma and no parenthesis, such as
sort orders, and groups, such as lengths. Inside a group stands any token. -/
inductive Trailing : List Token → Prop where
  | nil : Trailing []
  | token {token ts} : token ∉ [.opening, .closing, .comma] → Trailing ts → Trailing (token :: ts)
  | group {inside ts} : Paired inside → Trailing ts → Trailing (enclosed inside ++ ts)

/-- An element of a list of columns: a name, quoted or not, or a keyword, and what follows it. -/
structure ListElement where
  head : Token
  name : Text
  further : List Token
  named : head.asName? = some name
  trailing : Trailing further

def ListElement.tokens (e : ListElement) : List Token := e.head :: e.further

def elementTokens (elements : List ListElement) : List Token :=
  [Token.comma].intercalate (elements.map ListElement.tokens)

def listTokens (elements : List ListElement) : List Token := enclosed (elementTokens elements)

theorem elementTokens_singleton (e : ListElement) : elementTokens [e] = e.tokens :=
  List.intercalate_singleton

theorem elementTokens_cons_cons (e e' : ListElement) (elements : List ListElement) :
    elementTokens (e :: e' :: elements) =
      e.tokens ++ .comma :: elementTokens (e' :: elements) := by
  simp only [elementTokens, List.map_cons, List.intercalate_cons_cons, List.append_assoc,
    List.singleton_append]

theorem ListElement.head_ne (e : ListElement) :
    e.head ≠ .opening ∧ e.head ≠ .closing ∧ e.head ≠ .comma := by
  have named := e.named
  refine ⟨?_, ?_, ?_⟩ <;> intro mark <;> rw [mark] at named <;> contradiction

namespace Reader

variable {t rest : Text}

theorem listItems_of_closing (takes : Takes t [.closing] rest) (expectName : Bool) :
    listItems expectName t = ([], rest) := by
  obtain ⟨u, first, -, ended⟩ := takes.firstToken?
  cases ended
  rw [listItems_eq expectName first (by simp), if_pos rfl]

theorem listItems_of_comma (takes : Takes t [.comma] rest) (expectName : Bool) :
    listItems expectName t = listItems true rest := by
  obtain ⟨u, first, -, ended⟩ := takes.firstToken?
  cases ended
  rw [listItems_eq expectName first (by simp), if_neg (by simp), if_pos rfl]

/-- What follows a name is passed over, and the tokens of its groups are not looked at. -/
theorem listItems_of_trailing {ts : List Token} (h : Trailing ts) (quoting : SimplyQuoted t)
    (takes : Takes t ts rest) : listItems false t = listItems false rest := by
  induction h generalizing t with
  | nil =>
    cases takes
    rfl
  | token noMark _ ih =>
    obtain ⟨u, first, suffix, behind⟩ := takes.firstToken?
    simp only [List.mem_cons, List.not_mem_nil, or_false, not_or] at noMark
    rw [listItems_eq false first noMark.1, if_neg noMark.2.1, if_neg noMark.2.2]
    exact ih (quoting.of_suffix suffix) behind
  | group paired _ ih =>
    obtain ⟨u, group, behind⟩ := takes.split
    obtain ⟨text, closed⟩ := paired.group_closed quoting group
    rw [listItems_of_closed closed]
    exact ih (quoting.of_suffix group.suffix) behind

theorem listItems_of_element (e : ListElement) (quoting : SimplyQuoted t)
    (takes : Takes t e.tokens rest) :
    listItems true t = (e.name :: (listItems false rest).1, (listItems false rest).2) := by
  obtain ⟨u, first, suffix, behind⟩ := takes.firstToken?
  obtain ⟨noOpening, noClosing, noComma⟩ := e.head_ne
  rw [listItems_eq true first noOpening, if_neg noClosing, if_neg noComma, e.named]
  dsimp only
  rw [listItems_of_trailing e.trailing (quoting.of_suffix suffix) behind]

theorem listItems_of_elements (elements : List ListElement) (quoting : SimplyQuoted t)
    (takes : Takes t (elementTokens elements ++ [.closing]) rest) :
    listItems true t = (elements.map ListElement.name, rest) := by
  induction elements generalizing t with
  | nil => exact listItems_of_closing takes true
  | cons e elements ih =>
    -- a comma stands only between two elements
    cases elements with
    | nil =>
      rw [elementTokens_singleton] at takes
      obtain ⟨u, element, behind⟩ := takes.split
      rw [listItems_of_element e quoting element, listItems_of_closing behind]
      rfl
    | cons e' elements =>
      rw [elementTokens_cons_cons, List.append_assoc] at takes
      obtain ⟨u, element, behind⟩ := takes.split
      obtain ⟨v, comma, others⟩ := behind.split (a := [.comma])
      have quotingU := quoting.of_suffix element.suffix
      rw [listItems_of_element e quoting element, listItems_of_comma comma,
        ih (quotingU.of_suffix comma.suffix) others]
      rfl

end Reader

namespace Checked.Walk

variable {text t : Text} {pos : Nat}

theorem At.unique {pos' : Nat} (h : At text pos t) (h' : At text pos' t) : pos = pos' := by
  have within := h.lt_length
  have within' := h'.lt_length
  obtain ⟨offset, starts, left⟩ := h
  obtain ⟨offset', starts', left'⟩ := h'
  obtain rfl := starts.unique starts'
  have same := congrArg List.length (left.trans left'.symm)
  rw [List.length_drop, List.length_drop] at same
  omega

theorem At.takes {rest : Text} {ts : List Token} (h : At text pos t) (takes : Takes t ts rest) :
    At text (pos + ts.length) rest := by
  induction takes generalizing pos with
  | nil => exact h
  | @cons _ _ _ _ _ ts taken _ _ ih =>
    obtain ⟨-, -, -, -, next, -⟩ := h.token taken
    have behind := ih next
    rwa [Nat.add_assoc, Nat.add_comm 1] at behind

end Checked.Walk

/-- A list of columns is read as the names of its elements, in order, whatever follows the names.
What is left begins with the first token behind the closing parenthesis, and that is where a walk
over the tokens stands. -/
theorem columnList_elements {t : Text} {elements : List ListElement} {after : List Token}
    (quoting : SimplyQuoted t) (list : tokens t = listTokens elements ++ after) :
    ∃ rest, Takes t (listTokens elements) rest ∧ tokens rest = after ∧
      Reader.columnList t = (elements.map ListElement.name, rest) ∧
      ∀ text pos, Checked.Walk.At text pos t →
        Checked.Walk.columnList text pos =
          .ok (elements.map ListElement.name, pos + (listTokens elements).length) ∧
        Checked.Walk.At text (pos + (listTokens elements).length) rest := by
  obtain ⟨rest, takes, left⟩ := exists_takes list
  obtain ⟨u, opened, suffix, inside⟩ := takes.firstToken?
  have items := Reader.listItems_of_elements elements (quoting.of_suffix suffix) inside
  have read : Reader.columnList t = (elements.map ListElement.name, rest) :=
    (Reader.bind_of (Reader.eatIf_true opened rfl)).trans items
  refine ⟨rest, takes, left, read, fun text pos place => ?_⟩
  -- the walk stands where the reader stops, and only one position is there
  obtain ⟨⟨names, stop⟩, walked, same, there, -⟩ :=
    Checked.Walk.Follows.columnList text pos t place
  rw [read] at same there
  have behind := place.takes takes
  obtain rfl : names = elements.map ListElement.name := same
  obtain rfl : stop = pos + (listTokens elements).length := there.unique behind
  exact ⟨walked, behind⟩

/-- Elsewhere the levels can differ: a scan does not know brackets, so it closes the group inside
the name, and the parenthesis of the group is taken for that of the list. -/
example : Reader.columnList (Text.ofString "(a ([)]), b)") = ([['a']], Text.ofString ", b)") := by
  decide +kernel

/-- A quoted name, a keyword and a word, followed by a string, by groups and by a number. In the
literals and groups stands all that could end an element. -/
def sortedKeys : Text :=
  Text.ofString "(\"a,b\" DESC 'x), (', Key((1), ')' , \"(\") 10, qty (2,(3)) ) REFERENCES t"

def sortedElements : List ListElement := [
  { head := .name (Text.ofString "a,b")
    name := Text.ofString "a,b"
    further := [.name (Text.ofString "DESC"), .string (Text.ofString "x), (")]
    named := rfl
    trailing := .token (by decide) (.token (by decide) .nil) },
  { head := .keyword .key (Text.ofString "Key")
    name := Text.ofString "Key"
    further := enclosed (enclosed [.number ['1']] ++
      [.comma, .string [')'], .comma, .name ['(']]) ++ [.number ['1', '0']]
    named := rfl
    trailing := .group
      (.group (.token (by decide) .nil)
        (.token (by decide) (.token (by decide) (.token (by decide) (.token (by decide) .nil)))))
      (.token (by decide) .nil) },
  { head := .name (Text.ofString "qty")
    name := Text.ofString "qty"
    further := enclosed ([.number ['2'], .comma] ++ (enclosed [.number ['3']] ++ [])) ++ []
    named := rfl
    trailing := .group
      (.token (by decide) (.token (by decide) (.group (.token (by decide) .nil) .nil))) .nil }]

def behindKeys : List Token :=
  [.keyword .references (Text.ofString "REFERENCES"), .name ['t']]

theorem columnList_sortedKeys :
    SimplyQuoted sortedKeys ∧ tokens sortedKeys = listTokens sortedElements ++ behindKeys ∧
      ∃ rest, Takes sortedKeys (listTokens sortedElements) rest ∧ tokens rest = behindKeys ∧
        Reader.columnList sortedKeys =
          ([Text.ofString "a,b", Text.ofString "Key", Text.ofString "qty"], rest) ∧
        Checked.Walk.columnList sortedKeys 0 =
          .ok ([Text.ofString "a,b", Text.ofString "Key", Text.ofString "qty"], 26) ∧
        Checked.Walk.At sortedKeys 26 rest := by
  have quoting : SimplyQuoted sortedKeys := ⟨by decide, by decide, by decide⟩
  have list : tokens sortedKeys = listTokens sortedElements ++ behindKeys := by decide +kernel
  obtain ⟨rest, takes, left, read, walked⟩ := columnList_elements quoting list
  exact ⟨quoting, list, rest, takes, left, read, walked sortedKeys 0 (.start sortedKeys)⟩

end SchemaDiagram.Sql
