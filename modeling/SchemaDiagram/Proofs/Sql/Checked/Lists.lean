import SchemaDiagram.Proofs.Sql.Checked.Readers
import SchemaDiagram.Proofs.Sql.Reading

/-!
# Lists by offsets

Words that are passed over and the names of a list, read in rounds. Each round takes at least one
token, so every round of the walk moves on.
-/

namespace SchemaDiagram.Sql.Checked.Walk

def wordRound (words : List Text) (_ : Unit) : Walk (Unit ⊕ Unit) := do
  if ← eatIf fun token => words.any (Token.isWord · token) then return .inl ()
  else return .inr ()

def skipWords (words : List Text) : Walk Unit := loop (wordRound words) ()

def listName (state : List Text × Bool) (spot : Spot) : Walk (List Text × Bool) := do
  let name ← if state.2 then nameAt? spot else pure none
  advance
  match name with
  | some name => return (state.1 ++ [name], false)
  | none => return state

/-- One round over the elements of a list: the names so far, and whether one may come next. -/
def listItem (state : List Text × Bool) : Walk ((List Text × Bool) ⊕ List Text) := do
  let spot ← current
  if spot.token? = none then return .inr state.1
  else if spot.token? = some .opening then
    skipGroup
    return .inl state
  else if spot.token? = some .closing then
    advance
    return .inr state.1
  else if spot.token? = some .comma then
    advance
    return .inl (state.1, true)
  else return .inl (← listName state spot)

def columnList : Walk (List Text) := do
  if ← eatIf (· = .opening) then loop listItem ([], true) else return []

def readWordRound (words : List Text) (_ : Unit) : Reader (Unit ⊕ Unit) := do
  if ← Reader.eatIf fun token => words.any (Token.isWord · token) then return .inl ()
  else return .inr ()

theorem readWordRound_eq (words : List Text) (t : Text) :
    readWordRound words () t = match next? t with
      | none => (.inr (), t)
      | some (l, rest) =>
        if words.any (Token.isWord · l.token) then (.inl (), rest) else (.inr (), t) := by
  have first := eatIf_eq (fun token => words.any (Token.isWord · token)) t
  match taken : next? t with
  | none =>
    rw [taken] at first
    exact Reader.bind_of first
  | some (l, rest) =>
    rw [taken] at first
    dsimp only at first ⊢
    split at first
    · next passed =>
      rw [if_pos passed]
      exact Reader.bind_of first
    · next other =>
      rw [if_neg other]
      exact Reader.bind_of first

theorem readWordRound_shorter (words : List Text) (b b' : Unit) (t rest : Text)
    (h : readWordRound words b t = (.inl b', rest)) : rest.length < t.length := by
  rw [readWordRound_eq] at h
  split at h
  · simp at h
  · next taken =>
    split at h
    · obtain ⟨-, rfl⟩ := Prod.mk.inj h
      exact next?_shorter taken
    · simp at h

theorem skipWords_rounds (words : List Text) (b : Unit) (t : Text) :
    Reader.skipWords words t =
      goOn Prod.mk (fun _ => Reader.skipWords words) (readWordRound words b t) := by
  rw [readWordRound_eq, Reader.skipWords]
  split
  · next ended =>
    rw [ended]
    rfl
  · next taken =>
    rw [taken]
    dsimp only
    split <;> rfl

def nameItem (state : List Text × Bool) (token : Token) : List Text × Bool :=
  match if state.2 then token.asName? else none with
  | some name => (state.1 ++ [name], false)
  | none => state

def readListItem (state : List Text × Bool) : Reader ((List Text × Bool) ⊕ List Text) := fun t =>
  match Reader.group t with
  | .closed _ behind => (.inl state, behind)
  | .unclosed _ => (.inl state, [])
  | .absent =>
    match next? t with
    | none => (.inr state.1, t)
    | some (l, rest) =>
      if l.token = .closing then (.inr state.1, rest)
      else if l.token = .comma then (.inl (state.1, true), rest)
      else (.inl (nameItem state l.token), rest)

theorem readListItem_shorter (state state' : List Text × Bool) (t rest : Text)
    (h : readListItem state t = (.inl state', rest)) : rest.length < t.length := by
  unfold readListItem at h
  split at h
  · next closed =>
    obtain ⟨-, rfl⟩ := Prod.mk.inj h
    exact Reader.closed_shorter closed
  · next unclosed =>
    obtain ⟨-, rfl⟩ := Prod.mk.inj h
    exact Nat.lt_of_le_of_lt (Nat.zero_le _) (Reader.unclosed_shorter unclosed)
  · split at h
    · simp at h
    · next taken =>
      have shorter := next?_shorter taken
      repeat' split at h
      · simp at h
      all_goals
        obtain ⟨-, rfl⟩ := Prod.mk.inj h
        exact shorter

def itemsFrom (state : List Text × Bool) : Reader (List Text) := fun t =>
  (state.1 ++ (Reader.listItems state.2 t).1, (Reader.listItems state.2 t).2)

theorem itemsFrom_rounds (state : List Text × Bool) (t : Text) :
    itemsFrom state t = goOn Prod.mk itemsFrom (readListItem state t) := by
  obtain ⟨names, expectName⟩ := state
  rw [itemsFrom, readListItem, Reader.listItems]
  split
  · next closed =>
    rw [closed]
    rfl
  · next unclosed =>
    have nothing : Reader.listItems expectName [] = ([], []) := by
      simp [Reader.listItems, Reader.group, next?, gap]
    rw [unclosed]
    simp [goOn, itemsFrom, nothing]
  · next absent =>
    rw [absent]
    dsimp only
    split
    · next ended =>
      rw [ended]
      simp [goOn]
    · next l rest taken =>
      rw [taken]
      dsimp only
      by_cases closing : l.token = .closing
      · simp [closing, goOn]
      · by_cases comma : l.token = .comma
        · simp [comma, goOn, itemsFrom]
        · rw [if_neg closing, if_neg comma, if_neg closing, if_neg comma]
          cases expectName <;> cases named : l.token.asName? <;>
            simp [goOn, itemsFrom, nameItem, named]

theorem listName_of {text t rest : Text} {l : Lexeme} {start stop pos : Nat}
    (taken : next? t = some (l, rest)) (first : StartsAt text start (l.raw ++ rest))
    (behind : StartsAt text stop rest) (ahead : advance text pos = .ok ((), pos + 1))
    (state : List Text × Bool) :
    listName state ⟨l.token, start, stop⟩ text pos = .ok (nameItem state l.token, pos + 1) := by
  obtain ⟨names, expectName⟩ := state
  rw [listName, nameItem]
  cases expectName with
  | false => exact (bind_of (pure_apply none text pos)).trans ((bind_of ahead).trans rfl)
  | true =>
    refine (bind_of (nameAt?_eq taken first behind pos)).trans ((bind_of ahead).trans ?_)
    rw [if_pos rfl]
    cases l.token.asName? <;> rfl

namespace Follows

theorem wordRound (words : List Text) (b : Unit) :
    Follows (Walk.wordRound words b) (readWordRound words b) := by
  refine .bind (.eatIf _) fun found => ?_
  cases found <;> exact .pure _

theorem skipWords (words : List Text) :
    Follows (Walk.skipWords words) (Reader.skipWords words) :=
  loop (g := fun _ => Reader.skipWords words) (skipWords_rounds words)
    (readWordRound_shorter words) (wordRound words) ()

theorem listItem (state : List Text × Bool) : Follows (Walk.listItem state) (readListItem state) := by
  intro text pos t place
  cases taken : next? t with
  | none =>
    have absent : Reader.group t = .absent := by rw [Reader.group, taken]
    rw [readListItem, absent, taken, Walk.listItem, bind_of (place.ended taken).1]
    exact .pure (.refl _ place)
  | some found =>
    obtain ⟨l, rest⟩ := found
    obtain ⟨start, stop, here, ahead, next, first, behind⟩ := place.token taken
    by_cases opening : l.token = .opening
    · have round : readListItem state t = (.inl state, (Reader.groupText? t).2) := by
        rw [readListItem, Reader.groupText?]
        have origin := grouped t
        generalize Reader.group t = group at origin
        cases origin with
        | absent other => exact absurd opening (other l rest taken)
        | _ => rfl
      rw [Walk.listItem, bind_of here, if_neg (Option.some_ne_none _), opening, if_pos rfl, round]
      exact .bind (skipGroup text pos t place) fun _ steps => .pure ⟨rfl, steps.2⟩
    · have absent : Reader.group t = .absent := by
        rw [Reader.group, taken]
        split
        · next same =>
          obtain ⟨rfl, -⟩ := Prod.mk.inj (Option.some_inj.1 same)
          exact absurd rfl opening
        · rfl
      rw [readListItem, absent, taken, Walk.listItem, bind_of here, if_neg (Option.some_ne_none _),
        if_neg (mt Option.some.inj opening)]
      dsimp only
      by_cases closing : l.token = .closing
      · rw [if_pos closing, closing, if_pos rfl]
        exact .next ahead (.pure (.moved next (Nat.lt_succ_self pos)))
      · rw [if_neg closing, if_neg (mt Option.some.inj closing)]
        by_cases comma : l.token = .comma
        · rw [if_pos comma, comma, if_pos rfl]
          exact .next ahead (.pure (.moved next (Nat.lt_succ_self pos)))
        · rw [if_neg comma, if_neg (mt Option.some.inj comma),
            bind_of (listName_of taken first behind ahead state)]
          exact .pure (.moved next (Nat.lt_succ_self pos))

theorem columnList : Follows Walk.columnList Reader.columnList := by
  refine .bind (.eatIf _) fun opened => ?_
  cases opened with
  | false => exact .pure _
  | true =>
    exact loop itemsFrom_rounds readListItem_shorter listItem ([], true)

end Follows

end SchemaDiagram.Sql.Checked.Walk
