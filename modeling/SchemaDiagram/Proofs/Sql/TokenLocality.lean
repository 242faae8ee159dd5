import SchemaDiagram.Proofs.Sql.Checked.Walk

/-!
# Tokens do not depend on their surroundings

Where a token ends is seen from the character behind it, and from nothing further on. So a token
stays what it is when what stands behind it is cut off, or is replaced by a text that begins with
the same character. What is passed over on the way to a token holds no token when it stands alone.
-/

namespace SchemaDiagram.Sql

/-- The first text is empty or begins with the same character as the second. -/
def BeginsAs (u v : Text) : Prop := ∀ c ∈ u.head?, v.head? = some c

namespace BeginsAs

variable {u v : Text}

theorem nil (v : Text) : BeginsAs [] v := fun _ h => by contradiction

theorem cons (c : Char) (u v : Text) : BeginsAs (c :: u) (c :: v) := fun _ h => h

theorem eq_nil (h : BeginsAs u []) : u = [] := by
  cases u with
  | nil => rfl
  | cons c u => exact absurd (h c rfl) (by simp)

theorem append (a : Text) (h : BeginsAs u v) : BeginsAs (a ++ u) (a ++ v) := by
  cases a with
  | nil => exact h
  | cons c a => exact .cons c _ _

/-- What fails for the first character of the second text fails for that of the first. -/
theorem any_eq_false {test : Char → Bool} (h : BeginsAs u v) (fails : v.head?.any test = false) :
    u.head?.any test = false := by
  cases u with
  | nil => rfl
  | cons c u =>
    rw [h c rfl] at fails
    exact fails

end BeginsAs

def Piece.before {α : Type} (p : Piece α) (u : Text) : Piece α := { p with rest := u }

variable {u : Text}

theorem quotedName_close {close : Char} (single : u.head? = some close → close = ']') :
    quotedName close (close :: u) = ⟨[], [close], u⟩ := by
  rw [quotedName.eq_def]
  dsimp only
  rw [if_pos rfl]
  cases u with
  | nil => rfl
  | cons d u =>
    have single' : ¬ (d = close ∧ close ≠ ']') := by
      rintro ⟨same, doubles⟩
      exact doubles (single (congrArg some same))
    exact if_neg single'

theorem quotedName_local (close : Char) (t : Text) :
    BeginsAs u (quotedName close t).rest →
      quotedName close ((quotedName close t).raw ++ u) = (quotedName close t).before u := by
  fun_induction quotedName close t with
  | case1 =>
    intro same
    obtain rfl := same.eq_nil
    rfl
  | case2 d rest doubled ih =>
    intro same
    change quotedName close (close :: d :: ((quotedName close rest).raw ++ u)) = _
    rw [quotedName, if_pos rfl, if_pos doubled, ih same]
    rfl
  | case3 d rest single =>
    intro same
    refine quotedName_close fun head => ?_
    have next : d = close := Option.some_inj.1 (same close head)
    by_contra doubles
    exact single ⟨next, doubles⟩
  | case4 =>
    intro same
    obtain rfl := same.eq_nil
    exact quotedName_close fun head => by contradiction
  | case5 c rest other ih =>
    intro same
    change quotedName close (c :: ((quotedName close rest).raw ++ u)) = _
    rw [quotedName.eq_def]
    dsimp only
    rw [if_neg other, ih same]
    rfl

theorem stringBody_local (t : Text) :
    BeginsAs u (stringBody t).rest →
      stringBody ((stringBody t).raw ++ u) = (stringBody t).before u := by
  fun_induction stringBody t with
  | case1 =>
    intro same
    obtain rfl := same.eq_nil
    rfl
  | case2 rest ih =>
    intro same
    change stringBody ('\'' :: '\'' :: ((stringBody rest).raw ++ u)) = _
    rw [stringBody, ih same]
    rfl
  | case3 rest single =>
    intro same
    refine readsLiteral_stringBody.ends u fun head => ?_
    obtain ⟨behind, next⟩ := List.head?_eq_some_iff.1 (same _ head)
    exact single behind next
  | case4 =>
    intro same
    obtain rfl := same.eq_nil
    rfl
  | case5 c rest ih =>
    intro same
    change stringBody ('\\' :: c :: ((stringBody rest).raw ++ u)) = _
    rw [stringBody, ih same]
    rfl
  | case6 c rest _ noQuote noLast noEscape ih =>
    intro same
    have noBackslash : c ≠ '\\' := by
      rintro rfl
      cases rest with
      | nil => exact noLast rfl rfl
      | cons d rest => exact noEscape d rest rfl rfl
    change stringBody (c :: ((stringBody rest).raw ++ u)) = _
    rw [readsLiteral_stringBody.other c _ noQuote noBackslash, ih same]
    rfl

theorem digits_stop {pointSeen : Bool} (noDigit : u.head?.any Text.isAsciiDigit = false)
    (noPoint : u.head? = some '.' → pointSeen = true) : digits pointSeen u = ([], u) := by
  cases u with
  | nil => rfl
  | cons c u =>
    have noDigit : ¬ Text.isAsciiDigit c := by simpa using noDigit
    have noPoint : ¬ (c = '.' ∧ pointSeen = false) := by
      rintro ⟨point, first⟩
      rw [noPoint (congrArg some point)] at first
      contradiction
    rw [digits, if_neg noDigit, if_neg noPoint]

theorem digits_local (pointSeen : Bool) (t : Text) :
    BeginsAs u (digits pointSeen t).2 →
      digits pointSeen ((digits pointSeen t).1 ++ u) = ((digits pointSeen t).1, u) := by
  induction t generalizing pointSeen with
  | nil =>
    intro same
    obtain rfl := same.eq_nil
    rfl
  | cons c t ih =>
    intro same
    rw [digits] at same ⊢
    by_cases digit : Text.isAsciiDigit c
    · rw [if_pos digit] at same ⊢
      rw [List.cons_append, digits, if_pos digit, ih pointSeen same]
    · rw [if_neg digit] at same ⊢
      by_cases point : c = '.' ∧ pointSeen = false
      · rw [if_pos point] at same ⊢
        rw [List.cons_append, digits, if_neg digit, if_pos point, ih true same]
      · rw [if_neg point] at same ⊢
        refine digits_stop (same.any_eq_false (by simpa using digit)) fun head => ?_
        have isPoint : c = '.' := Option.some_inj.1 (same _ head)
        simpa using fun first => point ⟨isPoint, first⟩

theorem word_local {t : Text} (same : BeginsAs u (t.dropWhile isNameChar)) :
    (t.takeWhile isNameChar ++ u).takeWhile isNameChar = t.takeWhile isNameChar ∧
      (t.takeWhile isNameChar ++ u).dropWhile isNameChar = u := by
  have ended : (t.dropWhile isNameChar).head?.any isNameChar = false := by
    have stopped := List.head?_dropWhile_not isNameChar t
    cases behind : (t.dropWhile isNameChar).head? with
    | none => rfl
    | some c =>
      rw [behind] at stopped
      exact stopped
  have apart : Apart u := same.any_eq_false ended
  have names : ∀ c ∈ t.takeWhile isNameChar, isNameChar c := fun c => List.mem_takeWhile_imp
  rw [List.takeWhile_append_of_pos names, List.dropWhile_append_of_pos names, apart.takeWhile,
    apart.dropWhile, List.append_nil]
  exact ⟨rfl, rfl⟩

theorem tokenAt_cases (c : Char) :
    (∃ token, ∀ t, tokenAt c t = ⟨token, [c], t⟩) ∨
      (∃ close, ∀ t, tokenAt c t = ⟨.name (quotedName close t).value,
        c :: (quotedName close t).raw, (quotedName close t).rest⟩) ∨
      (∀ t, tokenAt c t =
        ⟨.string (stringBody t).value, c :: (stringBody t).raw, (stringBody t).rest⟩) ∨
      (∀ t, tokenAt c t =
        ⟨.number (c :: (digits false t).1), c :: (digits false t).1, (digits false t).2⟩) ∨
      ∀ t, tokenAt c t = ⟨.ofWord (c :: t.takeWhile isNameChar), c :: t.takeWhile isNameChar,
        t.dropWhile isNameChar⟩ := by
  by_cases mark : c ∈ ['(', ')', ',', ';', '.']
  · left
    simp only [List.mem_cons, List.not_mem_nil, or_false] at mark
    rcases mark with rfl | rfl | rfl | rfl | rfl
    all_goals exact ⟨_, fun t => rfl⟩
  by_cases quote : c ∈ ['"', '\x60', '[']
  · right; left
    simp only [List.mem_cons, List.not_mem_nil, or_false] at quote
    rcases quote with rfl | rfl | rfl
    all_goals exact ⟨_, fun t => rfl⟩
  simp only [List.mem_cons, List.not_mem_nil, or_false, not_or] at mark quote
  by_cases literal : c = '\''
  · right; right; left
    subst literal
    exact fun t => rfl
  by_cases number : c = '-' ∨ Text.isAsciiDigit c
  · right; right; right; left
    intro t
    simp [tokenAt, mark, quote, literal, number]
  · right; right; right; right
    intro t
    simp [tokenAt, mark, quote, literal, number]

/-- A token stays what it is if the text behind it begins as before, or ends. -/
theorem tokenAt_local {c : Char} {t : Text} (same : BeginsAs u (tokenAt c t).rest) :
    tokenAt c ((tokenAt c t).raw.tail ++ u) = (tokenAt c t).before u := by
  rcases tokenAt_cases c with ⟨token, mark⟩ | ⟨close, name⟩ | string | number | word
  · rw [mark] at same ⊢
    rw [mark]
    rfl
  · rw [name] at same ⊢
    rw [name, List.tail_cons, quotedName_local close t same]
    rfl
  · rw [string] at same ⊢
    rw [string, List.tail_cons, stringBody_local t same]
    rfl
  · rw [number] at same ⊢
    rw [number, List.tail_cons, digits_local false t same]
    rfl
  · rw [word] at same ⊢
    rw [word, List.tail_cons, (word_local same).1, (word_local same).2]
    rfl

/-- Whether a token starts is seen from its first character and the one behind. -/
theorem startsToken_local {c : Char} {t : Text} (same : BeginsAs u t)
    (passes : startsToken c t = false) : startsToken c u = false := by
  simp only [startsToken, Bool.or_eq_false_iff, Bool.and_eq_false_iff] at passes ⊢
  obtain ⟨⟨mark, minus⟩, word⟩ := passes
  refine ⟨⟨mark, ?_⟩, word⟩
  rcases minus with other | noDigit
  · exact .inl other
  · exact .inr (same.any_eq_false noDigit)

/-- A token starts as well where its own characters are kept. -/
theorem startsToken_raw {c : Char} {t : Text} (starts : startsToken c t) (u : Text) :
    startsToken c ((tokenAt c t).raw.tail ++ u) := by
  by_cases minus : c = '-'
  · subst minus
    have digit : t.head?.any Text.isAsciiDigit := by
      have noWord : Text.isAlphanumeric '-' = false := by decide +kernel
      simpa [startsToken, noWord] using starts
    cases t with
    | nil => contradiction
    | cons d t =>
      have digit : Text.isAsciiDigit d := digit
      have number : (tokenAt '-' (d :: t)).raw.tail = (digits false (d :: t)).1 := rfl
      rw [number, digits, if_pos digit]
      simpa [startsToken] using .inl digit
  · simpa [startsToken, minus] using starts

/-- A gap ends where it did, if the token behind it still starts there or nothing is left. -/
theorem gap_local {t : Text} (stops : gap u = ([], u)) :
    BeginsAs u (gap t).2 → gap ((gap t).1 ++ u) = ((gap t).1, u) := by
  induction t with
  | nil => exact fun _ => stops
  | cons c t ih =>
    intro same
    by_cases starts : startsToken c t
    · rw [gap_of_startsToken starts]
      exact stops
    · rw [Bool.not_eq_true] at starts
      rw [gap_of_not_startsToken starts] at same ⊢
      have begins : BeginsAs ((gap t).1 ++ u) t := by
        have whole := same.append (gap t).1
        rwa [gap_append] at whole
      rw [List.cons_append, gap_of_not_startsToken (startsToken_local begins starts), ih same]

theorem startsToken_of_gap {t rest : Text} {c : Char} (behind : (gap t).2 = c :: rest) :
    startsToken c rest := by
  induction t with
  | nil => contradiction
  | cons d t ih =>
    by_cases starts : startsToken d t
    · rw [gap_of_startsToken starts] at behind
      obtain ⟨rfl, rfl⟩ := List.cons.inj behind
      exact starts
    · rw [gap_of_not_startsToken (by simpa using starts)] at behind
      exact ih behind

theorem next?_eq_none_iff {t : Text} : next? t = none ↔ (gap t).2 = [] := by
  rw [next?]
  rcases gap t with ⟨before, _ | ⟨c, rest⟩⟩ <;> simp

theorem next?_eq_some_iff {t rest : Text} {l : Lexeme} :
    next? t = some (l, rest) ↔
      ∃ c tail, gap t = (l.before, c :: tail) ∧ tokenAt c tail = ⟨l.token, l.raw, rest⟩ := by
  rw [next?]
  rcases gap t with ⟨skipped, _ | ⟨c, tail⟩⟩
  · simp
  · dsimp only
    constructor
    · intro taken
      obtain ⟨rfl, rfl⟩ := Prod.mk.inj (Option.some_inj.1 taken)
      exact ⟨c, tail, rfl, rfl⟩
    · rintro ⟨d, behind, same, token⟩
      obtain ⟨rfl, first⟩ := Prod.mk.inj same
      obtain ⟨rfl, rfl⟩ := List.cons.inj first
      rw [token]

theorem tokenAt_raw (c : Char) (t : Text) :
    (tokenAt c t).raw = c :: (tokenAt c t).raw.tail := by
  rcases tokenAt_cases c with ⟨token, mark⟩ | ⟨close, name⟩ | string | number | word
  · rw [mark, List.tail_cons]
  · rw [name, List.tail_cons]
  · rw [string, List.tail_cons]
  · rw [number, List.tail_cons]
  · rw [word, List.tail_cons]

variable {t rest : Text} {l : Lexeme}

/-- The first token starts and is read as before if what stands behind begins as before. -/
theorem first_token_local (taken : next? t = some (l, rest)) (same : BeginsAs u rest) :
    ∃ c body, l.raw = c :: body ∧ (gap t).2.head? = some c ∧ startsToken c (body ++ u) ∧
      tokenAt c (body ++ u) = ⟨l.token, l.raw, u⟩ := by
  obtain ⟨c, tail, skipped, token⟩ := next?_eq_some_iff.1 taken
  have starts : startsToken c tail := startsToken_of_gap (congrArg Prod.snd skipped)
  have first := tokenAt_raw c tail
  have kept := startsToken_raw starts u
  have reads := tokenAt_local (c := c) (t := tail) (u := u) (by rw [token]; exact same)
  rw [token] at first kept reads
  exact ⟨c, l.raw.tail, first, by rw [skipped]; rfl, kept, reads⟩

/-- The first token and its gap are found again if what stands behind begins as before, or ends. -/
theorem next?_local (taken : next? t = some (l, rest)) (same : BeginsAs u rest) :
    next? (l.before ++ (l.raw ++ u)) = some (l, u) := by
  obtain ⟨c, body, raw, head, starts, reads⟩ := first_token_local taken same
  have skipped : (gap t).1 = l.before := by
    obtain ⟨_, _, skipped, -⟩ := next?_eq_some_iff.1 taken
    rw [skipped]
  have begins : BeginsAs (c :: (body ++ u)) (gap t).2 := fun d first => by
    obtain rfl : c = d := Option.some_inj.1 first
    exact head
  rw [raw, List.cons_append, next?_eq_some_iff]
  refine ⟨c, body ++ u, ?_, reads⟩
  rw [← skipped]
  exact gap_local (gap_of_startsToken starts) begins

theorem next?_raw (taken : next? t = some (l, rest)) (same : BeginsAs u rest) :
    next? (l.raw ++ u) = some (⟨[], l.token, l.raw⟩, u) := by
  obtain ⟨c, body, raw, -, starts, reads⟩ := first_token_local taken same
  rw [raw, List.cons_append, next?_eq_some_iff]
  exact ⟨c, body ++ u, gap_of_startsToken starts, raw ▸ reads⟩

/-- What stands in front of the first token holds no token when it stands alone. -/
theorem next?_gap (t : Text) : next? (gap t).1 = none := by
  have alone := gap_local (t := t) (u := []) rfl (.nil _)
  rw [List.append_nil] at alone
  rw [next?_eq_none_iff, alone]

/-- A reader of one token finds the same if what stands behind that token begins as before. -/
theorem Reader.take?_local {α : Type} {f : Token → Option α} {front v : Text} {a : α}
    (taken : take? f (front ++ v) = (some a, v)) (same : BeginsAs u v) :
    take? f (front ++ u) = (some a, u) := by
  unfold take? at taken
  split at taken
  · have none := congrArg Prod.fst taken
    contradiction
  · next l rest first =>
    split at taken
    · have none := congrArg Prod.fst taken
      contradiction
    · next b accepted =>
      obtain ⟨found, rfl⟩ := Prod.mk.inj taken
      have parts := next?_append first
      rw [← List.append_assoc, List.append_cancel_right_eq] at parts
      have again := next?_local first same
      rw [← List.append_assoc, parts] at again
      rw [take?, again]
      dsimp only
      rw [accepted]
      exact congrArg (·, u) found

namespace Checked

def Spot.atEnd (text : Text) : Spot := ⟨none, text.byteLength, text.byteLength⟩

theorem spots_of_none (ended : next? t = none) : spots t = [.atEnd t] := by
  rw [spots, spotsFrom_of_none ended, Nat.zero_add]
  rfl

/-- Alone, a token is the only one, from the first character to the last. -/
theorem spots_raw (taken : next? t = some (l, rest)) :
    spots l.raw = [⟨l.token, 0, l.raw.byteLength⟩, .atEnd l.raw] := by
  have alone := next?_raw taken (.nil rest)
  rw [List.append_nil] at alone
  rw [spots, spotsFrom_of_some alone, spotsFrom_of_none rfl, Text.byteLength_nil, Nat.zero_add,
    Nat.zero_add, Nat.add_zero]
  rfl

/-- From the offset on, gaps and tokens follow one another up to the end of the text. Alone, a gap
holds no token, and a token is what it is. -/
inductive Tiles (text : Text) : Nat → List Spot → Prop where
  | stop {offset : Nat} {skipped : Text}
      (gap : slice text offset text.byteLength = .ok skipped)
      (holdsNone : spots skipped = [.atEnd skipped]) : Tiles text offset [.atEnd text]
  | token {offset start stop : Nat} {token : Token} {skipped raw : Text} {others : List Spot}
      (gap : slice text offset start = .ok skipped)
      (holdsNone : spots skipped = [.atEnd skipped])
      (sliced : slice text start stop = .ok raw) (nonempty : start < stop)
      (alone : spots raw = [⟨token, 0, raw.byteLength⟩, .atEnd raw])
      (behind : Tiles text stop others) : Tiles text offset (⟨token, start, stop⟩ :: others)

theorem tiles_spotsFrom {text t : Text} {offset : Nat} (place : StartsAt text offset t) :
    Tiles text offset (spotsFrom offset t) := by
  match taken : next? t with
  | none =>
    have whole := place
    rw [← List.append_nil t] at whole
    have gap := whole.slice
    rw [place.add_byteLength] at gap
    rw [spotsFrom_of_none taken, place.add_byteLength]
    exact .stop gap (spots_of_none taken)
  | some (l, rest) =>
    have holdsNone : spots l.before = [.atEnd l.before] := by
      obtain ⟨_, _, skipped, -⟩ := next?_eq_some_iff.1 taken
      have none := next?_gap t
      rw [skipped] at none
      exact spots_of_none none
    have nonempty := Text.byteLength_pos (next?_raw_ne_nil taken)
    rw [← next?_append taken] at place
    rw [spotsFrom_of_some taken]
    exact .token place.slice holdsNone place.behind.slice (by omega) (spots_raw taken)
      (tiles_spotsFrom place.behind.behind)
termination_by t.length
decreasing_by exact next?_shorter taken

theorem slice_le {text raw : Text} {start stop : Nat} (sliced : slice text start stop = .ok raw) :
    start ≤ stop := by
  obtain ⟨_, _, -, -, rfl⟩ := slice_eq_ok.1 sliced
  exact Nat.le_add_right _ _

namespace Tiles

variable {text : Text} {offset : Nat} {tiles : List Spot}

theorem le_start (h : Tiles text offset tiles) : ∀ spot ∈ tiles, offset ≤ spot.start := by
  induction h with
  | stop gap _ =>
    intro spot mem
    obtain rfl := List.mem_singleton.1 mem
    exact slice_le gap
  | token gap _ _ nonempty _ _ ih =>
    have passed := slice_le gap
    intro spot mem
    rcases List.mem_cons.1 mem with rfl | other
    · exact passed
    · have later := ih spot other
      omega

/-- Each token starts behind the ones before it, and none reaches into the next. -/
theorem pairwise (h : Tiles text offset tiles) :
    tiles.Pairwise fun p q => p.start < q.start ∧ p.stop ≤ q.start := by
  induction h with
  | stop _ _ => exact List.pairwise_singleton _ _
  | token _ _ _ nonempty _ behind ih =>
    refine List.pairwise_cons.2 ⟨fun spot other => ?_, ih⟩
    have later := behind.le_start spot other
    exact ⟨by dsimp only; omega, later⟩

/-- All but the last are tokens that are read alone as they are read in the text, and the last is
the end of the text. -/
theorem exists_tokens (h : Tiles text offset tiles) :
    ∃ tokens, tiles = tokens ++ [.atEnd text] ∧ ∀ spot ∈ tokens, spot.start < spot.stop ∧
      ∃ token raw, spot.token? = some token ∧ slice text spot.start spot.stop = .ok raw ∧
        spots raw = [⟨token, 0, raw.byteLength⟩, .atEnd raw] := by
  induction h with
  | stop _ _ => exact ⟨[], rfl, fun _ mem => by contradiction⟩
  | token _ _ sliced nonempty alone _ ih =>
    obtain ⟨tokens, rfl, each⟩ := ih
    refine ⟨_ :: tokens, rfl, List.forall_mem_cons.2 ⟨?_, each⟩⟩
    exact ⟨nonempty, _, _, rfl, sliced, alone⟩

theorem isChain (h : Tiles text offset tiles) {before : Spot} (start : before.stop = offset) :
    (before :: tiles).IsChain fun p q => ∃ skipped, slice text p.stop q.start = .ok skipped ∧
      spots skipped = [.atEnd skipped] := by
  induction h generalizing before with
  | stop gap holdsNone =>
    subst start
    exact List.isChain_pair.2 ⟨_, gap, holdsNone⟩
  | token gap holdsNone _ _ _ _ ih =>
    subst start
    exact List.isChain_cons_cons.2 ⟨⟨_, gap, holdsNone⟩, ih rfl⟩

end Tiles

/-- Tokens lose nothing and do not depend on their surroundings. The last spot of a text is its
end, and the others are tokens, in order and apart from one another. Each token begins and ends
between characters and is read from its own characters as it is read from the text. What stands
between neighbours, or in front of the first one, holds no token. -/
theorem spots_lossless (text : Text) :
    (∃ tokens, spots text = tokens ++ [.atEnd text] ∧ ∀ spot ∈ tokens, spot.start < spot.stop ∧
      ∃ token raw, spot.token? = some token ∧ slice text spot.start spot.stop = .ok raw ∧
        spots raw = [⟨token, 0, raw.byteLength⟩, .atEnd raw]) ∧
    ((spots text).Pairwise fun p q => p.start < q.start ∧ p.stop ≤ q.start) ∧
    ((⟨none, 0, 0⟩ :: spots text : List Spot).IsChain fun p q =>
      ∃ skipped, slice text p.stop q.start = .ok skipped ∧ spots skipped = [.atEnd skipped]) := by
  have tiled := tiles_spotsFrom (.start text)
  exact ⟨tiled.exists_tokens, tiled.pairwise, tiled.isChain rfl⟩

end Checked

end SchemaDiagram.Sql
