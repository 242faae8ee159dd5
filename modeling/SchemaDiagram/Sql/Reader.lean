import SchemaDiagram.Sql.Scan
import SchemaDiagram.Sql.Token

/-!
# Readers

A reader takes tokens from the head of a text and leaves the rest. It may answer that it found
nothing, and then still leave less than it got: whoever reads on continues where it stopped. No
reader leaves more than it got (`Reader.Shrinks`), so loops over readers end.
-/

namespace SchemaDiagram.Sql

def Reader (α : Type) : Type := Text → α × Text

namespace Reader

instance : Monad Reader where
  pure a := fun t => (a, t)
  bind r f := fun t => f (r t).1 (r t).2

theorem pure_apply {α : Type} (a : α) (t : Text) : (pure a : Reader α) t = (a, t) := rfl

theorem bind_apply {α β : Type} (r : Reader α) (f : α → Reader β) (t : Text) :
    (r >>= f) t = f (r t).1 (r t).2 := rfl

/-- Never leaves more text than it got. -/
def Shrinks {α : Type} (r : Reader α) : Prop := ∀ t, (r t).2.length ≤ t.length

theorem Shrinks.pure {α : Type} (a : α) : Shrinks (Pure.pure a) := fun _ => Nat.le_refl _

theorem Shrinks.bind {α β : Type} {r : Reader α} {f : α → Reader β} (h : Shrinks r)
    (k : ∀ a, Shrinks (f a)) : Shrinks (r >>= f) :=
  fun t => Nat.le_trans (k _ _) (h t)

/-- The next token if `f` accepts it. -/
def take? {α : Type} (f : Token → Option α) : Reader (Option α) := fun t =>
  match next? t with
  | none => (none, t)
  | some (l, rest) =>
    match f l.token with
    | none => (none, t)
    | some a => (some a, rest)

theorem Shrinks.take? {α : Type} (f : Token → Option α) : Shrinks (take? f) := by
  intro t
  unfold Reader.take?
  split
  · exact Nat.le_refl _
  · next h =>
    split
    · exact Nat.le_refl _
    · exact Nat.le_of_lt (next?_shorter h)

def eatIf (test : Token → Bool) : Reader Bool := do
  return (← take? fun token => if test token then some () else none).isSome

def eat (k : Keyword) : Reader Bool :=
  eatIf fun token => match token with
    | .keyword k' _ => k' = k
    | _ => false

def eatWord (word : Text) : Reader Bool := eatIf (Token.isWord word)

def advanceToGroup : Reader Unit := do
  let _ ← eatIf (· ≠ .opening)

def name? : Reader (Option Text) := take? Token.asName?

theorem Shrinks.eatIf (test : Token → Bool) : Shrinks (eatIf test) :=
  .bind (.take? _) fun _ => .pure _

/-- Taking a token makes progress. -/
theorem eatIf_shorter {test : Token → Bool} {t rest : Text} (h : eatIf test t = (true, rest)) :
    rest.length < t.length := by
  simp only [eatIf, bind_apply, pure_apply, take?, Prod.mk.injEq] at h
  obtain ⟨ha, rfl⟩ := h
  split
  · next hn => simp [hn] at ha
  · next l rest hn =>
    rw [hn] at ha
    dsimp only at ha ⊢
    split
    · next ht => simp [ht] at ha
    · exact next?_shorter hn

theorem Shrinks.eat (k : Keyword) : Shrinks (eat k) := .eatIf _

theorem Shrinks.eatWord (word : Text) : Shrinks (eatWord word) := .eatIf _

theorem Shrinks.name? : Shrinks name? := .take? _

/-- Takes names that spell one of `words`, as many as there are. -/
def skipWords (words : List Text) : Reader Unit := fun t =>
  match _ : next? t with
  | none => ((), t)
  | some (l, rest) =>
    if words.any (Token.isWord · l.token) then skipWords words rest else ((), t)
termination_by t => t.length
decreasing_by exact next?_shorter ‹_›

theorem Shrinks.skipWords (words : List Text) : Shrinks (skipWords words) := by
  intro t
  fun_induction Reader.skipWords words t with
  | case1 => exact Nat.le_refl _
  | case2 t l rest h _ ih => exact Nat.le_trans ih (Nat.le_of_lt (next?_shorter h))
  | case3 => exact Nat.le_refl _

/-- What a parenthesis that may open at the head of a text encloses. -/
inductive Group where
  | absent
  /-- Opened and never closed; `behind` is the text behind the parenthesis. -/
  | unclosed (behind : Text)
  /-- What it encloses, and the text from the first token behind it on. -/
  | closed (inside behind : Text)

def group (t : Text) : Group :=
  match next? t with
  | some (⟨_, .opening, _⟩, rest) =>
    match closeGroup? rest with
    | some (inside, _) => .closed inside (skipPast (inside.length + 1) rest)
    | none => .unclosed rest
  | _ => .absent

theorem unclosed_shorter {t behind : Text} (h : group t = .unclosed behind) :
    behind.length < t.length := by
  unfold group at h
  split at h
  · next hn =>
    split at h
    · contradiction
    · cases h; exact next?_shorter hn
  · contradiction

theorem closed_shorter {t inside behind : Text} (h : group t = .closed inside behind) :
    behind.length < t.length := by
  unfold group at h
  split at h
  · next hn =>
    split at h
    · cases h
      exact Nat.lt_of_le_of_lt (skipPast_length_le _ _) (next?_shorter hn)
    · contradiction
  · contradiction

/-- The text of a group, parentheses included. A group that never closes takes all that is left and
gives no text. -/
def groupText? : Reader (Option Text) := fun t =>
  match group t with
  | .absent => (none, t)
  | .unclosed _ => (none, [])
  | .closed inside behind => (some ('(' :: inside ++ [')']), behind)

def skipGroup : Reader Unit := do
  let _ ← groupText?

theorem Shrinks.groupText? : Shrinks groupText? := by
  intro t
  unfold Reader.groupText?
  split
  · exact Nat.le_refl _
  · exact Nat.zero_le _
  · next h => exact Nat.le_of_lt (closed_shorter h)

theorem Shrinks.skipGroup : Shrinks skipGroup := .bind .groupText? fun _ => .pure _

/-- A name, perhaps with the name of its schema and a dot in front. -/
def qualifiedName? : Reader (Option (Option Text × Text)) := do
  let some first ← name? | return none
  if ← eatIf (· = .dot) then
    let some second ← name? | return none
    return some (some first, second)
  else
    return some (none, first)

theorem Shrinks.qualifiedName? : Shrinks qualifiedName? := by
  refine .bind .name? fun first => ?_
  split
  · refine .bind (.eatIf _) fun dotted => ?_
    split
    · refine .bind .name? fun second => ?_
      split <;> exact .pure _
    · exact .pure _
  · exact .pure _

/-- The names of a list up to its closing parenthesis. Of each element only the first name counts;
what else it holds (sort orders, lengths in parentheses) is passed over. -/
def listItems (expectName : Bool) (t : Text) : List Text × Text :=
  match _ : group t with
  | .closed _ behind => listItems expectName behind
  | .unclosed _ => ([], [])
  | .absent =>
    match _ : next? t with
    | none => ([], t)
    | some (l, rest) =>
      if l.token = .closing then ([], rest)
      else if l.token = .comma then listItems true rest
      else
        match expectName, l.token.asName? with
        | true, some name =>
          let (others, left) := listItems false rest
          (name :: others, left)
        | expectName, _ => listItems expectName rest
termination_by t.length
decreasing_by
  · exact closed_shorter ‹_›
  all_goals exact next?_shorter ‹_›

theorem listItems_length_le (expectName : Bool) (t : Text) :
    (listItems expectName t).2.length ≤ t.length := by
  fun_induction listItems expectName t with
  | case1 e t _ behind h ih => exact Nat.le_trans ih (Nat.le_of_lt (closed_shorter h))
  | case2 => exact Nat.zero_le _
  | case3 => exact Nat.le_refl _
  | case4 e t _ l rest h _ => exact Nat.le_of_lt (next?_shorter h)
  | case5 e t _ l rest h _ _ ih => exact Nat.le_trans ih (Nat.le_of_lt (next?_shorter h))
  | case6 t _ l rest h _ _ name _ others left he ih =>
    rw [he] at ih
    exact Nat.le_trans ih (Nat.le_of_lt (next?_shorter h))
  | case7 t _ l rest h _ _ e _ ih => exact Nat.le_trans ih (Nat.le_of_lt (next?_shorter h))

def columnList : Reader (List Text) := do
  if ← eatIf (· = .opening) then listItems true else return []

theorem Shrinks.columnList : Shrinks columnList := by
  refine .bind (.eatIf _) fun opened => ?_
  cases opened
  · exact .pure _
  · exact listItems_length_le true

end Reader

end SchemaDiagram.Sql
