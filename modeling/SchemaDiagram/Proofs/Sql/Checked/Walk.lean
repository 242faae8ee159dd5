import SchemaDiagram.Proofs.Sql.Checked.Scans
import SchemaDiagram.Proofs.Sql.Declared

/-!
# Walks over tokens

A walk goes over the tokens of a text by their positions, and knows the text by offsets only. It
follows a reader if it finds the same and then stands in front of the text that the reader leaves.
Positions only grow, and a walk that has not moved has left the text as it was.
-/

namespace SchemaDiagram.Sql

theorem spelled_eq_of_ofWord {word spelled : Text} {k : Keyword}
    (h : Token.ofWord word = .keyword k spelled) : word = spelled := by
  unfold Token.ofWord at h
  split at h
  · exact (Token.keyword.inj h).2
  · contradiction

theorem tokenAt_spelled {c : Char} {rest spelled : Text} {k : Keyword} :
    (tokenAt c rest).value = .keyword k spelled → (tokenAt c rest).raw = spelled := by
  simp only [tokenAt]
  repeat' split
  all_goals first
    | exact spelled_eq_of_ofWord
    | intro named; cases named

theorem next?_spelled {t rest spelled : Text} {l : Lexeme} {k : Keyword}
    (taken : next? t = some (l, rest)) (keyword : l.token = .keyword k spelled) :
    l.raw = spelled := by
  unfold next? at taken
  split at taken
  · contradiction
  · obtain ⟨rfl, -⟩ := Prod.mk.inj (Option.some_inj.1 taken)
    exact tokenAt_spelled keyword

namespace Checked

/-- A token and where it starts and stops. The end of the text is a spot without a token. -/
structure Spot where
  token? : Option Token
  start : Nat
  stop : Nat
  deriving DecidableEq, Repr

def spotsFrom (offset : Nat) (t : Text) : List Spot :=
  (spans offset (tokenize t)).map (fun span => ⟨span.lexeme.token, span.start, span.stop⟩) ++
    [⟨none, offset + t.byteLength, offset + t.byteLength⟩]

def spots (text : Text) : List Spot := spotsFrom 0 text

theorem spotsFrom_of_none {t : Text} (ended : next? t = none) (offset : Nat) :
    spotsFrom offset t = [⟨none, offset + t.byteLength, offset + t.byteLength⟩] := by
  rw [spotsFrom, tokenize_eq, ended]
  rfl

theorem spotsFrom_of_some {t rest : Text} {l : Lexeme} (taken : next? t = some (l, rest))
    (offset : Nat) :
    spotsFrom offset t =
      ⟨l.token, offset + l.before.byteLength,
          offset + l.before.byteLength + l.raw.byteLength⟩ ::
        spotsFrom (offset + l.before.byteLength + l.raw.byteLength) rest := by
  have size : offset + t.byteLength =
      offset + l.before.byteLength + l.raw.byteLength + rest.byteLength := by
    rw [← next?_append taken, Text.byteLength_append, Text.byteLength_append]
    omega
  rw [spotsFrom, tokenize_eq, taken, spotsFrom, size]
  rfl

theorem spotsFrom_ne_nil (offset : Nat) (t : Text) : spotsFrom offset t ≠ [] := by
  simp [spotsFrom]

def checkSpots (text : Text) : List Spot → Checked Unit
  | [] => return ()
  | spot :: others => do
    bounds text spot.start spot.stop
    checkSpots text others

theorem checkSpots_spotsFrom {text t : Text} {offset : Nat} (h : StartsAt text offset t) :
    checkSpots text (spotsFrom offset t) = .ok () := by
  match taken : next? t with
  | none =>
    have stop : StartsAt text text.byteLength ([] ++ []) := .stop text
    rw [spotsFrom_of_none taken, h.add_byteLength, checkSpots]
    exact congrArg (· >>= fun _ => checkSpots text []) stop.bounds
  | some (l, rest) =>
    rw [← next?_append taken] at h
    rw [spotsFrom_of_some taken, checkSpots, h.behind.bounds]
    exact checkSpots_spotsFrom h.behind.behind
termination_by t.length
decreasing_by exact next?_shorter taken

/-- From a position among the tokens of a text to another one, with what is found on the way. -/
def Walk (α : Type) : Type := Text → Nat → Checked (α × Nat)

namespace Walk

instance : Monad Walk where
  pure a := fun _ pos => .ok (a, pos)
  bind w f := fun text pos => w text pos >>= fun (a, pos) => f a text pos

variable {α β γ δ : Type}

def lookup (f : Text → Checked α) : Walk α := fun text pos => do return (← f text, pos)

def current : Walk Spot := fun text pos =>
  match (spots text)[pos]? with
  | some spot => .ok (spot, pos)
  | none => .error .index

def advance : Walk Unit := fun text pos =>
  .ok ((), if pos + 1 < (spots text).length then pos + 1 else pos)

/-- Goes on with the body until it gives a result. Each time the body has to move on. -/
def loop (body : β → Walk (β ⊕ γ)) (b : β) : Walk γ := fun text pos => do
  match ← body b text pos with
  | (.inr c, stop) => return (c, stop)
  | (.inl b, stop) =>
    if _ : pos < stop ∧ stop < (spots text).length then loop body b text stop else throw .stuck
termination_by text pos => (spots text).length - pos

def result (w : Walk α) (text : Text) : Checked α := do
  checkSpots text (spots text)
  let (a, _) ← w text 0
  return a

/-- The position is that of the first token of `t`. -/
def At (text : Text) (pos : Nat) (t : Text) : Prop :=
  ∃ offset, StartsAt text offset t ∧ (spots text).drop pos = spotsFrom offset t

/-- The same is found, the walk stands where the reader stands, and it has moved unless the reader
has not read. -/
def Steps (text : Text) (pos : Nat) (t : Text) (found : α × Nat) (read : α × Text) : Prop :=
  found.1 = read.1 ∧ At text found.2 read.2 ∧ (found.2 = pos ∧ read.2 = t ∨ pos < found.2)

/-- Never faults, and steps as the reader does. -/
def Follows (w : Walk α) (r : Reader α) : Prop :=
  ∀ text pos t, At text pos t → Gives (Steps text pos t) (w text pos) (r t)

/-- Never faults, and finds what `f` finds, wherever it stands then. -/
def Tells (w : Walk α) (f : Text → α) : Prop :=
  ∀ text pos t, At text pos t → Gives (fun found a => found.1 = a) (w text pos) (f t)

theorem bind_of {w : Walk α} {f : α → Walk β} {text : Text} {pos stop : Nat} {a : α}
    (h : w text pos = .ok (a, stop)) : (w >>= f) text pos = f a text stop := by
  show (w text pos >>= fun (a, pos) => f a text pos) = _
  rw [h]
  rfl

theorem pure_apply (a : α) (text : Text) (pos : Nat) :
    (pure a : Walk α) text pos = .ok (a, pos) := rfl

theorem lookup_of {f : Text → Checked α} {text : Text} {a : α} (h : f text = .ok a) (pos : Nat) :
    lookup f text pos = .ok (a, pos) := by
  rw [lookup, h]
  rfl

theorem result_of {w : Walk α} {text : Text} {a : α} {stop : Nat} (h : w text 0 = .ok (a, stop)) :
    result w text = .ok a := by
  rw [result, spots, checkSpots_spotsFrom (.start text), ok_bind, h]
  rfl

theorem At.start (text : Text) : At text 0 text := ⟨0, .start text, rfl⟩

theorem At.lt_length {text t : Text} {pos : Nat} (h : At text pos t) :
    pos < (spots text).length := by
  obtain ⟨offset, -, left⟩ := h
  have some := List.length_pos_iff.2 (spotsFrom_ne_nil offset t)
  rw [← left, List.length_drop] at some
  omega

theorem At.ended {text t : Text} {pos : Nat} (h : At text pos t) (ended : next? t = none) :
    current text pos = .ok (⟨none, text.byteLength, text.byteLength⟩, pos) ∧ At text pos [] := by
  obtain ⟨offset, place, left⟩ := h
  rw [spotsFrom_of_none ended, place.add_byteLength] at left
  have found : (spots text)[pos]? = some ⟨none, text.byteLength, text.byteLength⟩ := by
    rw [← List.head?_drop, left]
    rfl
  constructor
  · rw [current, found]
  · refine ⟨text.byteLength, .stop text, ?_⟩
    rw [left, spotsFrom_of_none rfl]
    rfl

theorem At.token {text t rest : Text} {pos : Nat} {l : Lexeme} (h : At text pos t)
    (taken : next? t = some (l, rest)) :
    ∃ start stop, current text pos = .ok (⟨l.token, start, stop⟩, pos) ∧
      advance text pos = .ok ((), pos + 1) ∧ At text (pos + 1) rest ∧
      StartsAt text start (l.raw ++ rest) ∧ StartsAt text stop rest := by
  obtain ⟨offset, place, left⟩ := h
  rw [spotsFrom_of_some taken] at left
  rw [← next?_append taken] at place
  have found := List.head?_drop (l := spots text) (i := pos)
  rw [left, List.head?_cons] at found
  have behind : (spots text).drop (pos + 1) =
      spotsFrom (offset + l.before.byteLength + l.raw.byteLength) rest := by
    rw [← List.drop_drop, left]
    rfl
  have next : At text (pos + 1) rest := ⟨_, place.behind.behind, behind⟩
  refine ⟨_, _, ?_, ?_, next, place.behind, place.behind.behind⟩
  · rw [current, ← found]
  · rw [advance, if_pos next.lt_length]

theorem loop_eq (body : β → Walk (β ⊕ γ)) (b : β) (text : Text) (pos : Nat) :
    loop body b text pos = body b text pos >>= fun next => match next with
      | (.inr c, stop) => .ok (c, stop)
      | (.inl b, stop) =>
        if pos < stop ∧ stop < (spots text).length then loop body b text stop
        else .error .stuck := by
  rw [loop]
  congr

namespace Steps

variable {text t u : Text} {pos mid : Nat}

theorem refl (a : α) (h : At text pos t) : Steps text pos t (a, pos) (a, t) :=
  ⟨rfl, h, .inl ⟨rfl, rfl⟩⟩

theorem moved {a : α} (h : At text mid u) (further : pos < mid) :
    Steps text pos t (a, mid) (a, u) :=
  ⟨rfl, h, .inr further⟩

theorem after {x : β × Nat} {y : β × Text} (further : pos < mid) (k : Steps text mid u x y) :
    Steps text pos t x y := by
  obtain ⟨same, place, ⟨stays, -⟩ | more⟩ := k
  · exact ⟨same, place, .inr (by rwa [stays])⟩
  · exact ⟨same, place, .inr (Nat.lt_trans further more)⟩

theorem trans {found : α × Nat} {read : α × Text} {x : β × Nat} {y : β × Text}
    (h : Steps text pos t found read) (k : Steps text found.2 read.2 x y) :
    Steps text pos t x y := by
  obtain ⟨-, -, ⟨stays, left⟩ | further⟩ := h
  · rwa [stays, left] at k
  · exact k.after further

theorem further {found : α × Nat} {read : α × Text} (h : Steps text pos t found read)
    (shorter : read.2.length < t.length) : pos < found.2 := by
  obtain ⟨-, -, ⟨-, same⟩ | further⟩ := h
  · rw [same] at shorter
    exact absurd shorter (Nat.lt_irrefl _)
  · exact further

end Steps

def goOn (done : γ → Text → δ) (next : β → Text → δ) : (β ⊕ γ) × Text → δ
  | (.inr c, rest) => done c rest
  | (.inl b, rest) => next b rest

/-- What holds of the last round, and of a round followed by others for which it holds, holds of a
loop. No round stands still: the text that the reader has left gets shorter. -/
theorem loop_gives {body : β → Walk (β ⊕ γ)} {round : β → Reader (β ⊕ γ)} {done : γ → Text → δ}
    {g : β → Text → δ} {S : Text → Nat → Text → γ × Nat → δ → Prop}
    (rounds : ∀ b t, g b t = goOn done g (round b t))
    (shorter : ∀ b b' t rest, round b t = (.inl b', rest) → rest.length < t.length)
    (h : ∀ b, Follows (body b) (round b))
    (last : ∀ text pos t stop rest (c : γ),
      Steps text pos t ((.inr c : β ⊕ γ), stop) (.inr c, rest) →
        S text pos t (c, stop) (done c rest))
    (others : ∀ text pos t stop rest (b : β) found d,
      Steps text pos t ((.inl b : β ⊕ γ), stop) (.inl b, rest) →
        S text stop rest found d → S text pos t found d)
    (b : β) {text : Text} {pos : Nat} {t : Text} (place : At text pos t) :
    Gives (S text pos t) (loop body b text pos) (g b t) := by
  obtain ⟨⟨next, stop⟩, found, steps⟩ := h b text pos t place
  rw [loop_eq, found, ok_bind, rounds]
  rcases next' : round b t with ⟨b' | c, rest⟩
  · have shorter' := shorter _ _ _ _ next'
    rw [next'] at steps
    obtain rfl : next = .inl b' := steps.1
    have behind := loop_gives rounds shorter h last others b' steps.2.1
    simp only [if_pos (And.intro (steps.further shorter') steps.2.1.lt_length)]
    exact behind.mono fun found => others _ _ _ _ _ _ _ _ steps
  · rw [next'] at steps
    obtain rfl : next = .inr c := steps.1
    exact .pure (last _ _ _ _ _ _ steps)
termination_by t.length

namespace Follows

variable {w : Walk α} {r : Reader α}

theorem pure (a : α) : Follows (Pure.pure a) (Pure.pure a) :=
  fun _ _ _ h => .pure (.refl a h)

theorem bind_yields {P : α → Prop} {f : α → Walk β} {g : α → Reader β} (h : Follows w r)
    (yields : Reader.Yields P r) (k : ∀ a, P a → Follows (f a) (g a)) :
    Follows (w >>= f) (r >>= g) := by
  intro text pos t place
  apply Gives.bind (h text pos t place)
  rintro ⟨a, stop⟩ steps
  obtain rfl : a = (r t).1 := steps.1
  exact (k _ (yields t) text stop _ steps.2.1).mono fun _ => steps.trans

theorem bind {f : α → Walk β} {g : α → Reader β} (h : Follows w r)
    (k : ∀ a, Follows (f a) (g a)) : Follows (w >>= f) (r >>= g) :=
  h.bind_yields (P := fun _ => True) (fun _ => trivial) fun a _ => k a

theorem congr {r' : Reader α} (h : Follows w r) (same : ∀ t, r t = r' t) : Follows w r' :=
  funext same ▸ h

theorem lookup {f : Text → Checked α} {a : α} (h : ∀ text, f text = .ok a) :
    Follows (Walk.lookup f) (Pure.pure a) :=
  fun text pos _ place => ⟨(a, pos), lookup_of (h text) pos, .refl a place⟩

/-- A loop follows a reader that goes on round by round and takes something in each. -/
theorem loop {body : β → Walk (β ⊕ γ)} {round : β → Reader (β ⊕ γ)} {g : β → Reader γ}
    (rounds : ∀ b t, g b t = goOn Prod.mk g (round b t))
    (shorter : ∀ b b' t rest, round b t = (.inl b', rest) → rest.length < t.length)
    (h : ∀ b, Follows (body b) (round b)) (b : β) : Follows (Walk.loop body b) (g b) := by
  intro text pos t place
  apply loop_gives rounds shorter h _ _ b place
  · intro _ _ _ _ _ _ steps
    exact ⟨rfl, steps.2⟩
  · intro _ _ _ _ _ _ _ _ steps
    exact steps.trans

end Follows

namespace Tells

variable {w : Walk α} {r : Reader α}

theorem of_follows (h : Follows w r) : Tells w fun t => (r t).1 := by
  intro text pos t place
  obtain ⟨found, walked, steps⟩ := h text pos t place
  exact ⟨found, walked, steps.1⟩

theorem bind {f : α → Walk β} {g : α → Reader β} (h : Follows w r)
    (k : ∀ a, Tells (f a) fun t => (g a t).1) : Tells (w >>= f) fun t => ((r >>= g) t).1 := by
  intro text pos t place
  apply Gives.bind (h text pos t place)
  rintro ⟨a, stop⟩ steps
  obtain rfl : a = (r t).1 := steps.1
  exact k _ text stop _ steps.2.1

theorem map {f : Text → α} (h : Tells w f) (k : α → β) :
    Tells (w >>= fun a => Pure.pure (k a)) fun t => k (f t) := by
  intro text pos t place
  obtain ⟨⟨a, stop⟩, found, rfl⟩ := h text pos t place
  exact ⟨_, bind_of found, rfl⟩

theorem loop {body : β → Walk (β ⊕ γ)} {round : β → Reader (β ⊕ γ)} {g : β → Text → γ}
    (rounds : ∀ b t, g b t = goOn (fun c _ => c) g (round b t))
    (shorter : ∀ b b' t rest, round b t = (.inl b', rest) → rest.length < t.length)
    (h : ∀ b, Follows (body b) (round b)) (b : β) : Tells (Walk.loop body b) (g b) := by
  intro text pos t place
  apply loop_gives rounds shorter h _ _ b place
  · intro _ _ _ _ _ _ _
    rfl
  · intro _ _ _ _ _ _ _ _ _ same
    exact same

theorem result {f : Text → α} (h : Tells w f) (text : Text) :
    Walk.result w text = .ok (f text) := by
  obtain ⟨⟨a, stop⟩, found, rfl⟩ := h text 0 text (.start text)
  exact result_of found

end Tells

end Walk

end Checked

end SchemaDiagram.Sql
