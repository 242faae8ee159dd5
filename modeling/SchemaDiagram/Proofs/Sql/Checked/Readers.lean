import SchemaDiagram.Proofs.Sql.Checked.Walk

/-!
# Names and groups by offsets

Tokens, names and groups, read by positions and offsets. A group is closed by a scan over the text,
and the walk then passes every token that starts before the offset behind the group, wherever the
tokens of the group may end.
-/

namespace SchemaDiagram.Sql.Checked

namespace Walk

variable {α : Type}

/-- The next token if `f` accepts it. -/
def take? (f : Token → Option α) : Walk (Option α) := do
  let spot ← current
  match spot.token?.bind f with
  | none => return none
  | some a =>
    advance
    return some a

def eatIf (test : Token → Bool) : Walk Bool := do
  return (← take? fun token => if test token then some () else none).isSome

def eat (k : Keyword) : Walk Bool :=
  eatIf fun token => match token with
    | .keyword k' _ => k' = k
    | _ => false

def eatWord (word : Text) : Walk Bool := eatIf (Token.isWord word)

def advanceToGroup : Walk Unit := do
  let _ ← eatIf (· ≠ .opening)

/-- The name at a spot. A keyword is spelled as the text spells it. -/
def nameAt? (spot : Spot) : Walk (Option Text) :=
  match spot.token? with
  | some (.name n) => return some n
  | some (.keyword _ _) => do return some (← lookup (slice · spot.start spot.stop))
  | _ => return none

def name? : Walk (Option Text) := do
  let spot ← current
  match ← nameAt? spot with
  | none => return none
  | some name =>
    advance
    return some name

def passRound (offset : Nat) (_ : Unit) : Walk (Unit ⊕ Unit) := do
  let spot ← current
  if spot.token?.isSome ∧ spot.start < offset then
    advance
    return .inl ()
  else return .inr ()

def skipTo (offset : Nat) : Walk Unit := loop (passRound offset) ()

def skipToEnd : Walk Unit := fun text => skipTo text.byteLength text

/-- Passes a group, if one opens. -/
def skipGroup : Walk Unit := do
  let spot ← current
  if spot.token? = some .opening then
    match ← lookup (closingParen? · spot.stop) with
    | some close => skipTo (close + 1)
    | none => skipToEnd
  else return ()

/-- The text of a group, parentheses included. Passes what never closes. -/
def groupText? : Walk (Option Text) := do
  let spot ← current
  if spot.token? = some .opening then
    match ← lookup (balancedGroup? · spot.start) with
    | some (group, _) =>
      skipTo (spot.start + group.byteLength)
      return some group
    | none =>
      skipToEnd
      return none
  else return none

/-- The text of a group, parentheses included, which is not passed. -/
def peekGroup? : Walk (Option Text) := do
  let spot ← current
  if spot.token? = some .opening then
    match ← lookup (balancedGroup? · spot.start) with
    | some (group, _) => return some group
    | none => return none
  else return none

/-- A name, perhaps with the name of its schema and a dot in front. -/
def qualifiedName? : Walk (Option (Option Text × Text)) := do
  let some first ← name? | return none
  if ← eatIf (· = .dot) then
    let some second ← name? | return none
    return some (some first, second)
  else
    return some (none, first)

namespace Follows

theorem take? (f : Token → Option α) : Follows (Walk.take? f) (Reader.take? f) := by
  intro text pos t place
  match taken : next? t with
  | none =>
    rw [Reader.take?, taken, Walk.take?, bind_of (place.ended taken).1]
    exact .pure (.refl none place)
  | some (l, rest) =>
    obtain ⟨start, stop, here, ahead, next, -, -⟩ := place.token taken
    rw [Reader.take?, taken, Walk.take?, bind_of here]
    simp only [Option.bind_some]
    cases f l.token with
    | none => exact .pure (.refl none place)
    | some a =>
      simp only [bind_of ahead]
      exact .pure (.moved next (Nat.lt_succ_self pos))

theorem eatIf (test : Token → Bool) : Follows (Walk.eatIf test) (Reader.eatIf test) :=
  .bind (.take? _) fun _ => .pure _

theorem eat (k : Keyword) : Follows (Walk.eat k) (Reader.eat k) := .eatIf _

theorem eatWord (word : Text) : Follows (Walk.eatWord word) (Reader.eatWord word) := .eatIf _

theorem advanceToGroup : Follows Walk.advanceToGroup Reader.advanceToGroup :=
  .bind (.eatIf _) fun _ => .pure _

end Follows

theorem nameAt?_eq {text t rest : Text} {l : Lexeme} {start stop : Nat}
    (taken : next? t = some (l, rest)) (first : StartsAt text start (l.raw ++ rest))
    (behind : StartsAt text stop rest) (pos : Nat) :
    nameAt? ⟨l.token, start, stop⟩ text pos = .ok (l.token.asName?, pos) := by
  unfold nameAt?
  cases token : l.token with
  | keyword k spelled =>
    have sliced : slice text start stop = .ok spelled := by
      rw [behind.unique first.behind, first.slice, next?_spelled taken token]
    exact (bind_of (lookup_of sliced pos)).trans rfl
  | _ => rfl

namespace Follows

theorem name? : Follows Walk.name? Reader.name? := by
  intro text pos t place
  match taken : next? t with
  | none =>
    rw [Reader.name?, Reader.take?, taken, Walk.name?, bind_of (place.ended taken).1]
    exact .pure (.refl none place)
  | some (l, rest) =>
    obtain ⟨start, stop, here, ahead, next, first, behind⟩ := place.token taken
    rw [Reader.name?, Reader.take?, taken, Walk.name?, bind_of here,
      bind_of (nameAt?_eq taken first behind pos)]
    dsimp only
    cases l.token.asName? with
    | none => exact .pure (.refl none place)
    | some name =>
      simp only [bind_of ahead]
      exact .pure (.moved next (Nat.lt_succ_self pos))

theorem qualifiedName? : Follows Walk.qualifiedName? Reader.qualifiedName? := by
  refine .bind .name? fun first => ?_
  cases first with
  | none => exact .pure _
  | some first =>
    refine .bind (.eatIf _) fun dotted => ?_
    cases dotted with
    | false => exact .pure _
    | true =>
      refine .bind .name? fun second => ?_
      cases second <;> exact .pure _

end Follows

theorem eatIf_eq (test : Token → Bool) (t : Text) :
    Reader.eatIf test t = match next? t with
      | none => (false, t)
      | some (l, rest) => if test l.token then (true, rest) else (false, t) := by
  rw [Reader.eatIf, Reader.bind_apply, Reader.take?]
  rcases next? t with _ | ⟨l, rest⟩
  · rfl
  · dsimp only
    cases test l.token <;> rfl

/-- An offset and a number of characters end at the same place of `t`, or in front of it. -/
def SameEnd (offset : Nat) (t : Text) (target n : Nat) : Prop :=
  ∀ front back, t = front ++ back → (front.length < n ↔ offset + front.byteLength < target)

theorem SameEnd.front {a b : Text} (offset : Nat) :
    SameEnd offset (a ++ b) (offset + a.byteLength) a.length := by
  intro front back same
  rcases List.append_eq_append_iff.1 same with ⟨between, rfl, rfl⟩ | ⟨between, rfl, rfl⟩
  · rw [List.length_append, Text.byteLength_append]
    omega
  · cases between with
    | nil => simp
    | cons c between =>
      have positive := c.utf8Size_pos
      rw [List.length_append, List.length_cons, Text.byteLength_append, Text.byteLength_cons]
      omega

theorem SameEnd.behind {offset target n : Nat} {a t : Text} (h : SameEnd offset (a ++ t) target n) :
    SameEnd (offset + a.byteLength) t target (n - a.length) := by
  intro front back same
  have whole := h (a ++ front) back (by rw [same, List.append_assoc])
  rw [List.length_append, Text.byteLength_append] at whole
  omega

theorem passRound_of {token : Token} {text : Text} {start stop pos : Nat}
    (here : current text pos = .ok (⟨some token, start, stop⟩, pos))
    (ahead : advance text pos = .ok ((), pos + 1)) (target : Nat) (b : Unit) :
    passRound target b text pos =
      .ok (if start < target then (.inl (), pos + 1) else (.inr (), pos)) := by
  rw [passRound, bind_of here]
  by_cases before : start < target
  · simp only [Option.isSome_some, true_and, if_pos before]
    exact bind_of ahead
  · simp only [Option.isSome_some, true_and, if_neg before]
    rfl

theorem passRound_ended {text : Text} {start stop pos : Nat}
    (here : current text pos = .ok (⟨none, start, stop⟩, pos)) (target : Nat) (b : Unit) :
    passRound target b text pos = .ok (.inr (), pos) := by
  rw [passRound, bind_of here]
  rfl

theorem skipTo_gives {text t : Text} {pos offset target n : Nat} (place : At text pos t)
    (first : StartsAt text offset t) (same : SameEnd offset t target n) :
    Gives (Steps text pos t) (skipTo target text pos) ((), skipPast n t) := by
  fun_induction skipPast n t generalizing pos offset with
  | case1 n t ended =>
    rw [skipTo, loop_eq, passRound_ended (place.ended ended).1, ok_bind]
    exact .pure (.refl () place)
  | case2 n t l rest taken passed ih =>
    obtain ⟨start, stop, here, ahead, next, second, behind⟩ := place.token taken
    rw [← next?_append taken] at first same
    obtain rfl := second.unique first.behind
    have within := (same l.before (l.raw ++ rest) rfl).1 passed
    have other : SameEnd stop rest target (n - l.before.length - l.raw.length) := by
      rw [behind.unique first.behind.behind]
      exact same.behind.behind
    rw [skipTo, loop_eq, passRound_of here ahead, if_pos within, ok_bind]
    dsimp only
    rw [if_pos ⟨Nat.lt_succ_self pos, next.lt_length⟩]
    exact (ih next behind other).mono fun _ steps => steps.after (Nat.lt_succ_self pos)
  | case3 n t l rest taken beyond =>
    obtain ⟨start, stop, here, ahead, -, second, -⟩ := place.token taken
    rw [← next?_append taken] at first same
    obtain rfl := second.unique first.behind
    have within := mt (same l.before (l.raw ++ rest) rfl).2 beyond
    rw [skipTo, loop_eq, passRound_of here ahead, if_neg within, ok_bind]
    exact .pure (.refl () place)

theorem next?_skipPast {n : Nat} {t : Text} (all : t.length ≤ n) : next? (skipPast n t) = none := by
  fun_induction skipPast n t with
  | case1 n t ended => exact ended
  | case2 n t l rest taken passed ih =>
    have size := congrArg List.length (next?_append taken)
    rw [List.length_append, List.length_append] at size
    exact ih (by omega)
  | case3 n t l rest taken beyond =>
    have size := congrArg List.length (next?_append taken)
    have positive := List.length_pos_iff.2 (next?_raw_ne_nil taken)
    rw [List.length_append, List.length_append] at size
    omega

theorem skipToEnd_gives {text t rest : Text} {pos : Nat} {l : Lexeme} (place : At text pos t)
    (taken : next? t = some (l, rest)) :
    Gives (Steps text pos t) (skipToEnd text pos) ((), []) := by
  obtain ⟨offset, first, -⟩ := id place
  have same : SameEnd offset t text.byteLength t.length := by
    have front := SameEnd.front offset (a := t) (b := [])
    rwa [List.append_nil, first.add_byteLength] at front
  have ended := next?_skipPast (Nat.le_refl t.length)
  apply (skipTo_gives place first same).mono
  rintro ⟨_, stop⟩ ⟨-, left, moved⟩
  dsimp only at left moved
  refine .moved (left.ended ended).2 ?_
  rcases moved with ⟨-, stays⟩ | further
  · rw [stays, taken] at ended
    contradiction
  · exact further

/-- What a group at the head of a text comes from. -/
inductive Grouped (t : Text) : Reader.Group → Prop
  | absent (other : ∀ l rest, next? t = some (l, rest) → l.token ≠ .opening) : Grouped t .absent
  | unclosed {before rest : Text} (taken : next? t = some (⟨before, .opening, ['(']⟩, rest))
      (never : closeGroup? rest = none) : Grouped t (.unclosed rest)
  | closed {before rest inside behind : Text}
      (taken : next? t = some (⟨before, .opening, ['(']⟩, rest))
      (close : closeGroup? rest = some (inside, behind)) :
      Grouped t (.closed inside (skipPast (inside.length + 1) rest))

theorem ofWord_ne_opening (word : Text) : Token.ofWord word ≠ .opening := by
  unfold Token.ofWord
  split <;> exact nofun

theorem tokenAt_opening {c : Char} {rest : Text} :
    (tokenAt c rest).value = .opening → (tokenAt c rest).raw = ['('] := by
  by_cases opens : c = '('
  · subst opens
    exact fun _ => rfl
  · simp only [tokenAt, if_neg opens]
    intro value
    repeat' split at value
    all_goals first | contradiction | exact absurd value (ofWord_ne_opening _)

theorem next?_opening {t rest : Text} {l : Lexeme} (taken : next? t = some (l, rest))
    (opening : l.token = .opening) : l.raw = ['('] := by
  unfold next? at taken
  split at taken
  · contradiction
  · obtain ⟨rfl, -⟩ := Prod.mk.inj (Option.some_inj.1 taken)
    exact tokenAt_opening opening

theorem grouped (t : Text) : Grouped t (Reader.group t) := by
  unfold Reader.group
  split
  · next before raw rest taken =>
    obtain rfl : raw = ['('] := next?_opening taken rfl
    cases close : closeGroup? rest with
    | none => exact .unclosed taken close
    | some cut => exact .closed taken close
  · next other =>
    refine .absent ?_
    rintro ⟨before, token, raw⟩ rest taken rfl
    exact other before raw rest taken

theorem At.opening {text t before rest : Text} {pos : Nat} (h : At text pos t)
    (taken : next? t = some (⟨before, .opening, ['(']⟩, rest)) :
    ∃ start, current text pos = .ok (⟨some .opening, start, start + 1⟩, pos) ∧
      advance text pos = .ok ((), pos + 1) ∧ At text (pos + 1) rest ∧
      StartsAt text start ('(' :: rest) ∧ StartsAt text (start + 1) rest := by
  obtain ⟨start, stop, here, ahead, next, first, behind⟩ := h.token taken
  have inside : StartsAt text (start + 1) rest := first.behind_cons
  obtain rfl := behind.unique inside
  exact ⟨start, here, ahead, next, first, inside⟩

theorem At.other {text t : Text} {pos : Nat} (h : At text pos t)
    (other : ∀ l rest, next? t = some (l, rest) → l.token ≠ .opening) :
    ∃ spot, current text pos = .ok (spot, pos) ∧ spot.token? ≠ some .opening := by
  match taken : next? t with
  | none => exact ⟨_, (h.ended taken).1, nofun⟩
  | some (l, rest) =>
    obtain ⟨start, stop, here, -⟩ := h.token taken
    exact ⟨_, here, fun same => other l rest taken (Option.some.inj same)⟩

theorem skipPast_of_some {n : Nat} {t rest : Text} {l : Lexeme} (taken : next? t = some (l, rest))
    (within : l.before.length < n) :
    skipPast n t = skipPast (n - l.before.length - l.raw.length) rest := by
  rw [skipPast]
  split
  · next none =>
    rw [taken] at none
    contradiction
  · next same =>
    obtain ⟨rfl, rfl⟩ := Prod.mk.inj (Option.some_inj.1 (taken.symm.trans same))
    rw [if_pos within]

/-- From a token on, a walk passes what a reader passes behind the token. -/
theorem skipTo_behind {text t a b : Text} {pos stop : Nat} {l : Lexeme} (place : At text pos t)
    (taken : next? t = some (l, a ++ b)) (behind : StartsAt text stop (a ++ b)) :
    Gives (Steps text pos t) (skipTo (stop + a.byteLength) text pos)
      ((), skipPast a.length (a ++ b)) := by
  obtain ⟨offset, front, -⟩ := id place
  have whole := next?_append taken
  have raw := List.length_pos_iff.2 (next?_raw_ne_nil taken)
  rw [← whole] at front
  have same := SameEnd.front offset (a := l.before ++ (l.raw ++ a)) (b := b)
  have target : offset + Text.byteLength (l.before ++ (l.raw ++ a)) = stop + a.byteLength := by
    simp [behind.unique front.behind.behind, Nat.add_assoc]
  have count : List.length (l.before ++ (l.raw ++ a)) - l.before.length - l.raw.length =
      a.length := by
    simp
  rw [target, List.append_assoc, List.append_assoc, whole] at same
  rw [whole] at front
  have skipped := skipTo_gives place front same
  rw [skipPast_of_some taken, count] at skipped
  · exact skipped
  · rw [List.length_append, List.length_append]
    omega

/-- From an opening parenthesis on, a walk passes the tokens of the group. -/
theorem skipTo_group {text t before rest inside behind : Text} {pos start : Nat}
    (place : At text pos t) (taken : next? t = some (⟨before, .opening, ['(']⟩, rest))
    (close : closeGroup? rest = some (inside, behind)) (first : StartsAt text (start + 1) rest) :
    Gives (Steps text pos t) (skipTo (start + 1 + inside.byteLength + 1) text pos)
      ((), skipPast (inside.length + 1) rest) := by
  have whole : (inside ++ [')']) ++ behind = rest := by
    simp [← Scan.close?_append close]
  rw [← whole] at taken first
  have skipped := skipTo_behind place taken first
  rwa [whole, List.length_append, Text.byteLength_append, ← Nat.add_assoc] at skipped

namespace Follows

theorem skipGroup : Follows Walk.skipGroup Reader.skipGroup := by
  intro text pos t place
  show Gives _ (Walk.skipGroup text pos) ((), (Reader.groupText? t).2)
  rw [Reader.groupText?]
  have origin := grouped t
  generalize Reader.group t = group at origin
  cases origin with
  | absent other =>
    obtain ⟨spot, here, unopened⟩ := place.other other
    rw [Walk.skipGroup, bind_of here, if_neg unopened]
    exact .pure (.refl () place)
  | unclosed taken never =>
    obtain ⟨start, here, -, -, -, inside⟩ := place.opening taken
    rw [Walk.skipGroup, bind_of here, if_pos rfl, bind_of (lookup_of inside.closingParen? pos),
      never]
    exact skipToEnd_gives place taken
  | closed taken close =>
    obtain ⟨start, here, -, -, -, inside⟩ := place.opening taken
    rw [Walk.skipGroup, bind_of here, if_pos rfl, bind_of (lookup_of inside.closingParen? pos),
      close]
    exact skipTo_group place taken close inside

theorem groupText? : Follows Walk.groupText? Reader.groupText? := by
  intro text pos t place
  rw [Reader.groupText?]
  have origin := grouped t
  generalize Reader.group t = group at origin
  cases origin with
  | absent other =>
    obtain ⟨spot, here, unopened⟩ := place.other other
    rw [Walk.groupText?, bind_of here, if_neg unopened]
    exact .pure (.refl none place)
  | unclosed taken never =>
    obtain ⟨start, here, -, -, first, -⟩ := place.opening taken
    have looked := first.balancedGroup?
    rw [headGroup?, never] at looked
    rw [Walk.groupText?, bind_of here, if_pos rfl, bind_of (lookup_of looked pos)]
    exact .bind (skipToEnd_gives place taken) fun _ steps => .pure ⟨rfl, steps.2⟩
  | @closed _ _ inside _ taken close =>
    obtain ⟨start, here, -, -, first, behind⟩ := place.opening taken
    have looked := first.balancedGroup?
    rw [headGroup?, close] at looked
    have stop : start + Text.byteLength ('(' :: inside ++ [')']) =
        start + 1 + inside.byteLength + 1 := by
      rw [byteLength_group]
      omega
    have skipped := skipTo_group place taken close behind
    rw [← stop] at skipped
    rw [Walk.groupText?, bind_of here, if_pos rfl, bind_of (lookup_of looked pos)]
    exact .bind skipped fun _ steps => .pure ⟨rfl, steps.2⟩

end Follows

theorem Tells.groupText? : Tells peekGroup? fun t => (Reader.groupText? t).1 := by
  intro text pos t place
  simp only [Reader.groupText?]
  have origin := grouped t
  generalize Reader.group t = group at origin
  cases origin with
  | absent other =>
    obtain ⟨spot, here, unopened⟩ := place.other other
    rw [peekGroup?, bind_of here, if_neg unopened]
    exact .pure rfl
  | unclosed taken never =>
    obtain ⟨start, here, -, -, first, -⟩ := place.opening taken
    have looked := first.balancedGroup?
    rw [headGroup?, never] at looked
    rw [peekGroup?, bind_of here, if_pos rfl, bind_of (lookup_of looked pos)]
    exact .pure rfl
  | closed taken close =>
    obtain ⟨start, here, -, -, first, -⟩ := place.opening taken
    have looked := first.balancedGroup?
    rw [headGroup?, close] at looked
    rw [peekGroup?, bind_of here, if_pos rfl, bind_of (lookup_of looked pos)]
    exact .pure rfl

end Walk

end SchemaDiagram.Sql.Checked
