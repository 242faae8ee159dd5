import SchemaDiagram.Proofs.Sql.Alterations
import SchemaDiagram.Proofs.Sql.Checked.Readers
import SchemaDiagram.Proofs.Sql.Nesting

/-!
# Parentheses in pairs

A group is closed by a scan over its characters, but what stands around it is read token by token.
If the parentheses among the tokens come in pairs, the text of these tokens is balanced. So the scan
closes a group at the token that closes it, and no token of the group is left over.
-/

namespace SchemaDiagram.Sql

/-- Names are quoted in double quotes only, and nothing is escaped. -/
structure SimplyQuoted (t : Text) : Prop where
  noBacktick : '\x60' ∉ t
  noBracket : '[' ∉ t
  noBackslash : '\\' ∉ t

theorem Scan.avoids_escapesName {t : Text} (h : '\\' ∉ t) (s : Scan) : s.avoids escapesName t := by
  induction t generalizing s with
  | nil => rfl
  | cons c t ih =>
    rw [List.mem_cons, not_or] at h
    have bare : s.escapesName c = false := by
      unfold escapesName
      split
      · simp [Ne.symm h.1]
      · rfl
    rw [avoids, bare, ih h.2]
    rfl

theorem SimplyQuoted.plainly {t : Text} (h : SimplyQuoted t) : Plainly .start t :=
  ⟨⟨h.noBacktick, h.noBracket⟩, Scan.avoids_escapesName h.noBackslash _⟩

theorem SimplyQuoted.of_suffix {t rest : Text} (h : SimplyQuoted t) (suffix : rest <:+ t) :
    SimplyQuoted rest where
  noBacktick := fun mem => h.noBacktick (suffix.subset mem)
  noBracket := fun mem => h.noBracket (suffix.subset mem)
  noBackslash := fun mem => h.noBackslash (suffix.subset mem)

theorem next?_suffix {t rest : Text} {l : Lexeme} (taken : next? t = some (l, rest)) :
    rest <:+ t := by
  rw [← next?_append taken, ← List.append_assoc]
  exact List.suffix_append _ _

/-- Taking the tokens off the text, one after the other, leaves the rest. -/
inductive Takes : Text → List Token → Text → Prop where
  | nil (t) : Takes t [] t
  | cons {t u rest l token ts} : next? t = some (l, u) → l.token = token → Takes u ts rest →
      Takes t (token :: ts) rest

namespace Takes

variable {t rest : Text} {ts : List Token}

theorem suffix (h : Takes t ts rest) : rest <:+ t := by
  induction h with
  | nil => exact List.suffix_refl _
  | cons taken _ _ ih => exact ih.trans (next?_suffix taken)

theorem split {a b : List Token} (h : Takes t (a ++ b) rest) :
    ∃ u, Takes t a u ∧ Takes u b rest := by
  induction a generalizing t with
  | nil => exact ⟨t, .nil t, h⟩
  | cons token a ih =>
    cases h with
    | cons taken same behind =>
      obtain ⟨u, front, back⟩ := ih behind
      exact ⟨u, .cons taken same front, back⟩

theorem firstToken? {token : Token} (h : Takes t (token :: ts) rest) :
    ∃ u, Sql.firstToken? t = some (token, u) ∧ u <:+ t ∧ Takes u ts rest := by
  cases h with
  | @cons _ u _ l _ _ taken same behind =>
    refine ⟨u, ?_, next?_suffix taken, behind⟩
    rw [Sql.firstToken?, taken, ← same]
    rfl

theorem skipPast (h : Takes t ts rest) {front : Text} (text : t = front ++ rest) :
    Sql.skipPast front.length t = rest := by
  induction h generalizing front with
  | nil t =>
    obtain rfl : front = [] := by simpa using text
    rw [List.length_nil, skipPast_eq]
    split <;> simp
  | @cons t u rest l _ _ taken _ behind ih =>
    obtain ⟨between, rfl⟩ := behind.suffix
    have whole := next?_append taken
    have raw := List.length_pos_iff.2 (next?_raw_ne_nil taken)
    have same : front ++ rest = (l.before ++ (l.raw ++ between)) ++ rest := by
      rw [← text, ← whole, List.append_assoc, List.append_assoc]
    obtain rfl := List.append_cancel_right same
    have count : (l.before ++ (l.raw ++ between)).length - l.before.length - l.raw.length =
        between.length := by
      simp
    rw [Checked.Walk.skipPast_of_some taken, count]
    · exact ih rfl
    · rw [List.length_append, List.length_append]
      omega

end Takes

theorem exists_takes {t : Text} {ts after : List Token} (h : tokens t = ts ++ after) :
    ∃ rest, Takes t ts rest ∧ tokens rest = after := by
  induction ts generalizing t with
  | nil => exact ⟨t, .nil t, h⟩
  | cons token ts ih =>
    match taken : next? t with
    | none =>
      rw [tokens_eq, firstToken?, taken] at h
      contradiction
    | some (l, u) =>
      rw [tokens_of_next? taken, List.cons_append] at h
      obtain ⟨same, behind⟩ := List.cons.inj h
      obtain ⟨rest, takes, left⟩ := ih behind
      exact ⟨rest, .cons taken same takes, left⟩

theorem LiteralContent.append {quote : Char} {a b : Text} (ha : LiteralContent quote a)
    (hb : LiteralContent quote b) : LiteralContent quote (a ++ b) := by
  induction ha with
  | nil => exact hb
  | other differs noEscape _ ih => exact .other differs noEscape ih
  | escaped _ ih => exact .escaped ih

/-- A literal that does not reach the end of the text is balanced. To a scan, a doubled quote ends
one literal and begins another. -/
theorem LiteralBody.balanced {quote : Char} {raw rest content : Text}
    (h : LiteralBody quote raw rest) (hq : quote = '\'' ∨ quote = '"') (more : rest ≠ [])
    (before : LiteralContent quote content) : Balanced (quote :: content ++ raw) := by
  induction h generalizing content with
  | unclosed | cutOff => contradiction
  | closed _ => exact .literal hq before
  | @doubled raw rest _ ih =>
    have first : Balanced (quote :: content ++ [quote]) := .literal hq before
    have second : Balanced (quote :: raw) := ih more .nil
    have both := first.append second
    rwa [List.append_assoc, List.singleton_append] at both
  | @escaped c raw rest _ ih =>
    have longer := ih more (before.append (.escaped (c := c) .nil))
    rwa [← List.cons_append, List.append_assoc] at longer
  | @other c raw rest differs noEscape _ ih =>
    have longer := ih more (before.append (.other differs noEscape .nil))
    rwa [← List.cons_append, List.append_assoc] at longer

theorem balanced_of_inert {t : Text} (h : ∀ c ∈ t, inert c) : Balanced t :=
  balanced_of_ordinary fun c hc => ordinary_of_inert (h c hc)

section

variable {t rest : Text} {l : Lexeme}

theorem balanced_raw (quoting : SimplyQuoted t) (taken : next? t = some (l, rest))
    (more : rest ≠ []) (noOpening : l.token ≠ .opening) (noClosing : l.token ≠ .closing) :
    Balanced l.raw := by
  cases met_next? rfl quoting.plainly taken with
  | @delimiter c mark raw unquoted said marked _ =>
    have noParenthesis : c ≠ '(' ∧ c ≠ ')' := by
      constructor
      · rintro rfl
        obtain rfl : Mark.opening = mark := marked
        cases token : l.token <;> simp_all [Token.delimiter?]
      · rintro rfl
        obtain rfl : Mark.closing = mark := marked
        cases token : l.token <;> simp_all [Token.delimiter?]
    rw [raw]
    apply balanced_of_ordinary
    simpa [ordinary, noParenthesis] using unquoted
  | literal hq raw _ body =>
    rw [raw]
    exact body.balanced hq more .nil
  | word _ still => exact balanced_of_inert still

theorem next?_closing (quoting : SimplyQuoted t) (taken : next? t = some (l, rest))
    (closing : l.token = .closing) : l.raw = [')'] := by
  cases met_next? rfl quoting.plainly taken with
  | delimiter raw _ said marked _ =>
    rw [closing] at said
    obtain rfl := Option.some_inj.1 said
    rw [raw, Scan.eq_of_mark_closing marked]
  | literal _ _ said _ | word said _ =>
    rw [closing] at said
    contradiction

end

def enclosed (ts : List Token) : List Token := .opening :: (ts ++ [.closing])

/-- Any tokens, with the parentheses among them in pairs. -/
inductive Paired : List Token → Prop where
  | nil : Paired []
  | token {token ts} : token ∉ [.opening, .closing] → Paired ts → Paired (token :: ts)
  | group {inside ts} : Paired inside → Paired ts → Paired (enclosed inside ++ ts)

/-- Wherever these tokens stand with text behind them, their text is balanced. With none behind
them the last one may be a literal that never ends. -/
def BalancedText (ts : List Token) : Prop :=
  ∀ t rest, SimplyQuoted t → Takes t ts rest → rest ≠ [] →
    ∃ front, t = front ++ rest ∧ Balanced front

/-- A group is balanced text in parentheses if its tokens inside have such text. -/
theorem BalancedText.exists_inside {inside : List Token} (h : BalancedText inside) {t rest : Text}
    (quoting : SimplyQuoted t) (takes : Takes t (enclosed inside) rest) :
    ∃ l text, next? t = some (l, text ++ ')' :: rest) ∧ l.token = .opening ∧ Balanced text ∧
      Takes (text ++ ')' :: rest) (inside ++ [.closing]) rest := by
  cases takes with
  | @cons _ u _ l _ _ opens opening behind =>
    obtain ⟨v, within, back⟩ := behind.split
    cases back with
    | @cons _ _ _ k _ _ closes closing ended =>
      cases ended
      have quotingU := quoting.of_suffix (next?_suffix opens)
      have more : v ≠ [] := by
        rintro rfl
        contradiction
      obtain ⟨front, rfl, balanced⟩ := h u v quotingU within more
      have raw := next?_closing (quotingU.of_suffix within.suffix) closes closing
      have text : front ++ v = (front ++ k.before) ++ ')' :: rest := by
        rw [← next?_append closes, raw, List.append_assoc]
        rfl
      have gap : Balanced k.before := balanced_of_inert (inert_before closes)
      -- the gap in front of the closing parenthesis still belongs to the group
      rw [text] at opens behind
      exact ⟨l, front ++ k.before, opens, opening, balanced.append gap, behind⟩

theorem Paired.balancedText {ts : List Token} (h : Paired ts) : BalancedText ts := by
  induction h with
  | nil =>
    intro t rest _ takes _
    cases takes
    exact ⟨[], rfl, .nil⟩
  | token noParenthesis _ ih =>
    intro t rest quoting takes more
    cases takes with
    | @cons _ u _ l _ _ taken same behind =>
      obtain rfl := same
      obtain ⟨front, rfl, balanced⟩ :=
        ih u rest (quoting.of_suffix (next?_suffix taken)) behind more
      rw [List.mem_pair, not_or] at noParenthesis
      have gap : Balanced l.before := balanced_of_inert (inert_before taken)
      have raw : Balanced l.raw :=
        balanced_raw quoting taken (by simp [more]) noParenthesis.1 noParenthesis.2
      refine ⟨l.before ++ (l.raw ++ front), ?_, gap.append (raw.append balanced)⟩
      simp [← next?_append taken]
  | group _ _ ihInside ih =>
    intro t rest quoting takes more
    obtain ⟨u, group, behind⟩ := takes.split
    obtain ⟨l, text, opens, opening, balanced, -⟩ := ihInside.exists_inside quoting group
    obtain ⟨back, rfl, balancedBack⟩ := ih u rest (quoting.of_suffix group.suffix) behind more
    have gap : Balanced l.before := balanced_of_inert (inert_before opens)
    refine ⟨l.before ++ (('(' :: text ++ [')']) ++ back), ?_,
      gap.append (balanced.group.append balancedBack)⟩
    rw [← next?_append opens, Checked.Walk.next?_opening opens opening]
    simp

theorem Paired.group_closed {inside : List Token} (h : Paired inside) {t rest : Text}
    (quoting : SimplyQuoted t) (takes : Takes t (enclosed inside) rest) :
    ∃ text, Reader.group t = .closed text rest := by
  obtain ⟨l, text, opens, opening, balanced, within⟩ :=
    h.balancedText.exists_inside quoting takes
  have first : firstToken? t = some (.opening, text ++ ')' :: rest) := by
    rw [firstToken?, opens, ← opening]
    rfl
  have whole : text ++ ')' :: rest = (text ++ [')']) ++ rest := by simp
  have passed := within.skipPast whole
  rw [List.length_append, List.length_singleton] at passed
  refine ⟨text, ?_⟩
  rw [Reader.group_closed first (balanced.closeGroup? rest), passed]

end SchemaDiagram.Sql
