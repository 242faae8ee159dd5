import SchemaDiagram.Proofs.Sql.Checked.Scripts

/-!
# Loops move on

A loop over tokens ends only if its rounds move on. Rounds are counted here without any check on
them: each one begins at a token, and either it ends at a later token or the loop is done with it.
So no loop has more rounds than there are tokens, whatever stands in the text and wherever the scan
for the end of a group may have led.
-/

namespace SchemaDiagram.Sql

theorem length_tokenize_le (t : Text) : (tokenize t).length ≤ t.length := by
  match taken : next? t with
  | none => simp [tokenize_eq, taken]
  | some (l, rest) =>
    have shorter := next?_shorter taken
    have others := length_tokenize_le rest
    rw [tokenize_eq, taken, List.length_cons]
    omega
termination_by t.length

theorem length_spans (offset : Nat) (ls : List Lexeme) : (spans offset ls).length = ls.length := by
  induction ls generalizing offset with
  | nil => rfl
  | cons l ls ih => rw [spans, List.length_cons, ih, List.length_cons]

namespace Checked

theorem length_spots (text : Text) : (spots text).length = (tokenize text).length + 1 := by
  simp [spots, spotsFrom, length_spans]

namespace Walk

variable {β γ : Type}

/-- The rounds of a loop from a state and a position on: how many there are, and what the last one
finds and where it stops. -/
inductive Rounds (body : β → Walk (β ⊕ γ)) (text : Text) : β → Nat → Nat → γ × Nat → Prop
  | last {b : β} {c : γ} {pos stop : Nat} (round : body b text pos = .ok (.inr c, stop)) :
      Rounds body text b pos 1 (c, stop)
  | next {b b' : β} {pos mid n : Nat} {found : γ × Nat}
      (round : body b text pos = .ok (.inl b', mid)) (others : Rounds body text b' mid n found) :
      Rounds body text b pos (n + 1) found

/-- From whatever token it begins at, a round does not fault and ends at a token, which is a later
one unless the loop is done. -/
def MovesOn (body : β → Walk (β ⊕ γ)) : Prop :=
  ∀ b text pos, pos < (spots text).length →
    ∃ next stop, body b text pos = .ok (next, stop) ∧ stop < (spots text).length ∧ pos ≤ stop ∧
      (next.isLeft → pos < stop)

/-- Every round moves on, and from any token on the loop ends after no more rounds than there are
tokens left, the end of the text counted as one. -/
structure Progresses (body : β → Walk (β ⊕ γ)) : Prop where
  movesOn : MovesOn body
  ends : ∀ b text pos, pos < (spots text).length →
    ∃ n found, Rounds body text b pos n found ∧ n ≤ (spots text).length - pos ∧
      loop body b text pos = .ok found

theorem MovesOn.ends {body : β → Walk (β ⊕ γ)} (h : MovesOn body) (b : β) (text : Text) (pos : Nat)
    (within : pos < (spots text).length) :
    ∃ n found, Rounds body text b pos n found ∧ n ≤ (spots text).length - pos ∧
      loop body b text pos = .ok found := by
  obtain ⟨next, stop, round, inside, -, further⟩ := h b text pos within
  rw [loop_eq, round, ok_bind]
  cases next with
  | inr c => exact ⟨1, (c, stop), .last round, by omega, rfl⟩
  | inl b' =>
    have moved : pos < stop := further rfl
    obtain ⟨n, found, others, few, looped⟩ := h.ends b' text stop inside
    refine ⟨n + 1, found, .next round others, by omega, ?_⟩
    simp only [if_pos (And.intro moved inside), looped]
termination_by (spots text).length - pos

theorem MovesOn.progresses {body : β → Walk (β ⊕ γ)} (h : MovesOn body) : Progresses body :=
  ⟨h, h.ends⟩

/-- Every position of a token is that of the first token of some end of the text. -/
theorem exists_at {text : Text} {pos : Nat} (within : pos < (spots text).length) :
    ∃ t, At text pos t := by
  induction pos with
  | zero => exact ⟨text, .start text⟩
  | succ pos ih =>
    obtain ⟨t, place⟩ := ih (Nat.lt_of_succ_lt within)
    match taken : next? t with
    | none =>
      obtain ⟨offset, -, left⟩ := place
      have last := congrArg List.length left
      rw [spotsFrom_of_none taken, List.length_drop, List.length_singleton] at last
      omega
    | some (l, rest) =>
      obtain ⟨-, -, -, -, next, -⟩ := place.token taken
      exact ⟨rest, next⟩

theorem Steps.le {α : Type} {text t : Text} {pos : Nat} {found : α × Nat} {read : α × Text}
    (h : Steps text pos t found read) : pos ≤ found.2 := by
  obtain ⟨-, -, ⟨stays, -⟩ | further⟩ := h
  · exact Nat.le_of_eq stays.symm
  · exact Nat.le_of_lt further

theorem MovesOn.of_follows {body : β → Walk (β ⊕ γ)} {round : β → Reader (β ⊕ γ)}
    (h : ∀ b, Follows (body b) (round b))
    (shorter : ∀ b b' t rest, round b t = (.inl b', rest) → rest.length < t.length) :
    MovesOn body := by
  intro b text pos within
  obtain ⟨t, place⟩ := exists_at within
  obtain ⟨⟨next, stop⟩, found, steps⟩ := h b text pos t place
  refine ⟨next, stop, found, steps.2.1.lt_length, steps.le, fun goesOn => ?_⟩
  obtain ⟨b', rfl⟩ := Sum.isLeft_iff.1 goesOn
  have read : round b t = (.inl b', (round b t).2) := Prod.ext steps.1.symm rfl
  exact steps.further (shorter b b' t _ read)

theorem movesOn_wordRound (words : List Text) : MovesOn (wordRound words) :=
  .of_follows (Follows.wordRound words) (readWordRound_shorter words)

/-- The walk does not ask what the offset is: each token that it passes is one. -/
theorem movesOn_passRound (offset : Nat) : MovesOn (passRound offset) := by
  intro b text pos within
  obtain ⟨t, place⟩ := exists_at within
  match taken : next? t with
  | none =>
    have stays := passRound_ended (place.ended taken).1 offset b
    exact ⟨.inr (), pos, stays, within, Nat.le_refl pos, nofun⟩
  | some (l, rest) =>
    obtain ⟨start, stop, here, ahead, next, -⟩ := place.token taken
    have round := passRound_of here ahead offset b
    by_cases before : start < offset
    · rw [if_pos before] at round
      exact ⟨.inl (), pos + 1, round, next.lt_length, Nat.le_succ pos,
        fun _ => Nat.lt_succ_self pos⟩
    · rw [if_neg before] at round
      exact ⟨.inr (), pos, round, within, Nat.le_refl pos, nofun⟩

theorem movesOn_listItem : MovesOn listItem :=
  .of_follows Follows.listItem readListItem_shorter

theorem movesOn_actionRound : MovesOn actionRound :=
  .of_follows Follows.actionRound readActionRound_shorter

theorem movesOn_collectRound {α : Type} {begun? : Nat → Token → Walk (Option α)}
    {read : Token → Reader (Option α)} (shrinks : ∀ token, Reader.Shrinks (read token))
    (gives : ∀ text pos offset t, At text pos t → StartsAt text offset t → ∀ token,
      Gives (Steps text pos t) (begun? offset token text pos) (read token t)) :
    MovesOn (collectRound begun?) :=
  .of_follows (.collectRound gives) fun _ _ _ _ => readCollectRound_shorter shrinks

theorem movesOn_clauses : MovesOn (collectRound clause?) :=
  movesOn_collectRound Reader.Shrinks.clause? fun _ _ _ _ => clause?_gives

theorem movesOn_statements : MovesOn (collectRound fun _ => statement?) :=
  movesOn_collectRound Reader.Shrinks.statement? fun text pos _ t place _ token =>
    Follows.statement? token text pos t place

/-- The statements of a script are found in no more rounds than it has tokens. -/
theorem exists_rounds_statements (text : Text) :
    ∃ n stop, Rounds (collectRound fun _ => statement?) text [] 0 n (Reader.statements text, stop) ∧
      n ≤ (spots text).length := by
  obtain ⟨n, ⟨found, stop⟩, rounds, few, looped⟩ :=
    movesOn_statements.ends [] text 0 (At.start text).lt_length
  obtain ⟨⟨statements, stop'⟩, told, rfl⟩ := Tells.statements text 0 text (.start text)
  obtain ⟨rfl, rfl⟩ := Prod.mk.inj (Except.ok.inj (looped.symm.trans told))
  exact ⟨n, stop, rounds, few⟩

/-- Every loop of extraction moves on with each round: the one over statements, that over the names
of a list, that over ON clauses, that over the words between CREATE and TABLE, that over the clauses
of a column, and the one that passes tokens up to an offset. What is read off as a token holds a
character at least, so all of them end, and so does extraction. -/
theorem extract_progresses :
    (∀ t l rest, next? t = some (l, rest) → l.raw ≠ [] ∧ rest.length < t.length) ∧
      (∀ text, (spots text).length ≤ text.length + 1) ∧
      Progresses (collectRound fun _ => statement?) ∧
      Progresses listItem ∧
      Progresses actionRound ∧
      (∀ words, skipWords words = loop (wordRound words) () ∧ Progresses (wordRound words)) ∧
      Progresses (collectRound clause?) ∧
      (∀ offset, skipTo offset = loop (passRound offset) () ∧ Progresses (passRound offset)) ∧
      ∀ script, ∃ n statements stop,
        Rounds (collectRound fun _ => statement?) (stripComments script) [] 0 n (statements, stop) ∧
          n ≤ (spots (stripComments script)).length ∧ schemaOf statements = Sql.extract script := by
  refine ⟨fun t l rest taken => ⟨next?_raw_ne_nil taken, next?_shorter taken⟩, fun text => ?_,
    movesOn_statements.progresses, movesOn_listItem.progresses, movesOn_actionRound.progresses,
    fun words => ⟨rfl, (movesOn_wordRound words).progresses⟩,
    movesOn_clauses.progresses,
    fun offset => ⟨rfl, (movesOn_passRound offset).progresses⟩, fun script => ?_⟩
  · rw [length_spots]
    exact Nat.succ_le_succ (length_tokenize_le text)
  · obtain ⟨n, stop, rounds, few⟩ := exists_rounds_statements (stripComments script)
    exact ⟨n, _, stop, rounds, few, rfl⟩

end Walk

end Checked

end SchemaDiagram.Sql
