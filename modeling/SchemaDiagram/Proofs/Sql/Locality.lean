import SchemaDiagram.Proofs.Sql.Complete
import SchemaDiagram.Proofs.Sql.Reading
import SchemaDiagram.Sql.Script

/-!
# Readers stay inside complete text

Behind complete text stands the end of its statement, or only white space is left. Then each reader
finds the same and stops at the same place, whatever follows. So the statements of a text can be
read up to a semicolon and behind it apart.
-/

namespace SchemaDiagram.Sql

theorem isNameChar_of_isBlankChar {c : Char} (h : Text.isBlankChar c) : isNameChar c = false := by
  have codes : c.toNat ∈ [0x09, 0x0A, 0x0B, 0x0C, 0x0D, 0x20, 0x85, 0xA0, 0x1680, 0x2000, 0x2001,
      0x2002, 0x2003, 0x2004, 0x2005, 0x2006, 0x2007, 0x2008, 0x2009, 0x200A, 0x2028, 0x2029,
      0x202F, 0x205F, 0x3000] := by
    simp [Text.isBlankChar, Text.blankRanges, CodePoints.has] at h
    simp only [List.mem_cons, List.not_mem_nil, or_false]
    omega
  have none : ∀ n ∈ [0x09, 0x0A, 0x0B, 0x0C, 0x0D, 0x20, 0x85, 0xA0, 0x1680, 0x2000, 0x2001,
      0x2002, 0x2003, 0x2004, 0x2005, 0x2006, 0x2007, 0x2008, 0x2009, 0x200A, 0x2028, 0x2029,
      0x202F, 0x205F, 0x3000], isNameChar (Char.ofNat n) = false := by
    decide +kernel
  rw [← Char.ofNat_toNat c]
  exact none _ codes

theorem not_mem_of_isBlankChar {c : Char} (h : Text.isBlankChar c) {marks : List Char}
    (printed : ∀ d ∈ marks, Text.isBlankChar d = false) : c ∉ marks := by
  intro mark
  rw [printed c mark] at h
  contradiction

theorem ordinary_of_isBlankChar {c : Char} (h : Text.isBlankChar c) : ordinary c :=
  decide_eq_true (not_mem_of_isBlankChar h (by decide))

theorem separates_of_isBlankChar {c : Char} (h : Text.isBlankChar c) : separates c := by
  have noMark : c ∉ ['.', '"', '\'', '-', '*'] := not_mem_of_isBlankChar h (by decide)
  simp [separates, isNameChar_of_isBlankChar h, noMark]

theorem startsToken_of_isBlankChar {c : Char} (h : Text.isBlankChar c) (t : Text) :
    startsToken c t = false := by
  have noName := isNameChar_of_isBlankChar h
  have noMark : c ∉ ['(', ')', ',', ';', '.', '"', '\x60', '[', '\'', '_', '-'] :=
    not_mem_of_isBlankChar h (by decide)
  simp only [isNameChar, Bool.or_eq_false_iff] at noName
  simp only [List.mem_cons, List.not_mem_nil, or_false, not_or] at noMark
  simp [startsToken, noName, noMark]

theorem firstToken?_blank_append {front : Text} (blank : ∀ c ∈ front, Text.isBlankChar c)
    (t : Text) : firstToken? (front ++ t) = firstToken? t := by
  induction front with
  | nil => rfl
  | cons c front ih =>
    rw [List.forall_mem_cons] at blank
    rw [List.cons_append, firstToken?_of_not_startsToken (startsToken_of_isBlankChar blank.1 _),
      ih blank.2]

/-- How complete text can go on: with the end of its statement, or with nothing but white space. -/
inductive Ending where
  | statement
  | blank

def Ending.token? : Ending → Option Token
  | statement => some .semicolon
  | blank => none

theorem Ending.eq_semicolon {e : Ending} {token : Token} (h : token ∈ e.token?) :
    token = .semicolon := by
  cases e with
  | statement => exact (Option.some_inj.1 h).symm
  | blank => simp [Ending.token?] at h

inductive Ends : Ending → Text → Prop where
  | statement (rest) : Ends .statement (';' :: rest)
  | blank {b} : (∀ c ∈ b, Text.isBlankChar c) → Ends .blank b

theorem Ends.delimited {e : Ending} {b : Text} (h : Ends e b) : Delimited b := by
  cases h with
  | statement => rfl
  | blank blank =>
    cases b with
    | nil => rfl
    | cons c b => exact separates_of_isBlankChar (blank c List.mem_cons_self)

theorem Ends.token? {e : Ending} {b : Text} (h : Ends e b) :
    (firstToken? b).map (·.1) = e.token? := by
  cases h with
  | statement rest => rfl
  | blank blank =>
    induction b with
    | nil => rfl
    | cons c b ih =>
      rw [List.forall_mem_cons] at blank
      rw [firstToken?_of_not_startsToken (startsToken_of_isBlankChar blank.1 b), ih blank.2]

namespace Reader

variable {e : Ending} {α β : Type}

/-- Inside complete text the reader finds and leaves the same, whatever stands behind. -/
def Local (e : Ending) (r : Reader α) : Prop :=
  ∀ t, Complete t → ∃ a w, Complete w ∧ ∀ b, Ends e b → r (t ++ b) = (a, w ++ b)

theorem Local.pure (a : α) : Local e (Pure.pure a) := fun t h => ⟨a, t, h, fun _ _ => rfl⟩

theorem Local.bind {r : Reader α} {f : α → Reader β} (h : Local e r) (k : ∀ a, Local e (f a)) :
    Local e (r >>= f) := by
  intro t complete
  obtain ⟨a, v, complete, reads⟩ := h t complete
  obtain ⟨c, w, complete, goesOn⟩ := k a v complete
  exact ⟨c, w, complete, fun b hb => (bind_of (reads b hb)).trans (goesOn b hb)⟩

theorem Local.take? {f : Token → Option α} (h : ∀ token ∈ e.token?, f token = none) :
    Local e (take? f) := by
  intro t complete
  rcases complete.firstToken? with ends | ⟨token, v, complete', -, -, first⟩
  · refine ⟨none, t, complete, fun b hb => ?_⟩
    have offered := hb.token?
    rw [take?_eq, ends b hb.delimited]
    cases next : firstToken? b with
    | none => rfl
    | some p =>
      rw [next] at offered
      have refused : f p.1 = none := h _ offered.symm
      simp [refused]
  · cases taken : f token with
    | none =>
      refine ⟨none, t, complete, fun b hb => ?_⟩
      simp [take?_eq, first b hb.delimited, taken]
    | some a =>
      refine ⟨some a, v, complete', fun b hb => ?_⟩
      simp [take?_eq, first b hb.delimited, taken]

theorem Local.eatIf {test : Token → Bool} (h : ∀ token ∈ e.token?, test token = false) :
    Local e (eatIf test) :=
  .bind (.take? fun token offered => by simp [h token offered]) fun _ => .pure _

theorem Local.eat (k : Keyword) : Local e (eat k) :=
  .eatIf fun token offered => by rw [Ending.eq_semicolon offered]

theorem Local.eatWord (word : Text) : Local e (eatWord word) :=
  .eatIf fun token offered => by rw [Ending.eq_semicolon offered]; rfl

theorem Local.name? : Local e name? :=
  .take? fun token offered => by rw [Ending.eq_semicolon offered]; rfl

theorem Local.qualifiedName? : Local e qualifiedName? := by
  refine .bind .name? fun first => ?_
  split
  · have noDot : ∀ token ∈ e.token?, decide (token = .dot) = false :=
      fun token offered => by rw [Ending.eq_semicolon offered]; rfl
    refine .bind (.eatIf noDot) fun dotted => ?_
    split
    · refine .bind .name? fun second => ?_
      split <;> exact .pure _
    · exact .pure _
  · exact .pure _

theorem Local.skipWords (words : List Text) : Local e (skipWords words) := by
  intro t complete
  induction hn : t.length using Nat.strongRecOn generalizing t with
  | ind n ih =>
    subst hn
    rcases complete.firstToken? with ends | ⟨token, v, complete', -, shorter, first⟩
    · refine ⟨(), t, complete, fun b hb => ?_⟩
      have offered := hb.token?
      rw [skipWords_eq, ends b hb.delimited]
      cases next : firstToken? b with
      | none => rfl
      | some p =>
        rw [next] at offered
        have semicolon : p.1 = .semicolon := Ending.eq_semicolon offered.symm
        have noWord : words.any (Token.isWord · .semicolon) = false := by simp [Token.isWord]
        simp only [semicolon, noWord]
        rfl
    · by_cases word : words.any (Token.isWord · token)
      · obtain ⟨_, w, complete, skips⟩ := ih _ shorter v complete' rfl
        refine ⟨(), w, complete, fun b hb => ?_⟩
        rw [skipWords_eq, first b hb.delimited]
        dsimp only
        rw [if_pos word, skips b hb]
      · refine ⟨(), t, complete, fun b hb => ?_⟩
        rw [skipWords_eq, first b hb.delimited]
        dsimp only
        rw [if_neg word]

theorem group_of_complete {t : Text} (h : Complete t) :
    (∀ b, Ends e b → group (t ++ b) = .absent) ∨
      ∃ inside w, Complete w ∧ w.length < t.length ∧
        ∀ b, Ends e b → group (t ++ b) = .closed inside (w ++ b) := by
  rcases h.firstToken? with ends | ⟨token, v, complete, opens, shorter, first⟩
  · left
    intro b hb
    have offered := hb.token?
    refine group_absent fun rest opening => ?_
    rw [← ends b hb.delimited, opening] at offered
    have semicolon : Token.opening = .semicolon := Ending.eq_semicolon offered.symm
    contradiction
  · by_cases opening : token = .opening
    · right
      obtain ⟨s, completes, opened⟩ := opens opening
      obtain ⟨inside, behind, within, closes⟩ := completes.closeGroup? opened
      obtain ⟨w, complete, skips⟩ := complete.skipPast within
      refine ⟨inside, w, complete, ?_, fun b hb => ?_⟩
      · have left := skipPast_length_le (inside.length + 1) (v ++ [])
        rw [skips [] rfl, List.append_nil, List.append_nil] at left
        omega
      · rw [group_closed (opening ▸ first b hb.delimited) (closes b), skips b hb.delimited]
    · left
      intro b hb
      refine group_absent fun rest eq => opening ?_
      rw [first b hb.delimited] at eq
      exact (Prod.mk.inj (Option.some_inj.1 eq)).1

theorem Local.groupInside? : Local e groupInside? := by
  intro t complete
  rcases group_of_complete (e := e) complete with absent | ⟨inside, w, complete', -, closes⟩
  · exact ⟨none, t, complete, fun b hb => by rw [Reader.groupInside?, absent b hb]⟩
  · exact ⟨some inside, w, complete', fun b hb => by rw [Reader.groupInside?, closes b hb]⟩

theorem Local.statementRest : Local .statement statementRest := by
  intro t complete
  obtain ⟨u, short, cuts⟩ := complete.statement
  obtain ⟨w, complete', skips⟩ := complete.skipPast short
  refine ⟨u, w, complete', ?_⟩
  rintro _ ⟨rest⟩
  simp only [Reader.statementRest, cuts, skips (';' :: rest) rfl]

theorem Local.newTable? : Local .statement newTable? := by
  refine .bind .qualifiedName? fun name => ?_
  split
  · refine .bind .groupInside? fun body => ?_
    split <;> exact .pure _
  · exact .pure _

theorem Local.createTable? : Local .statement createTable? := by
  refine .bind (.skipWords _) fun _ => .bind (.eat _) fun b => ?_
  cases b
  · exact .pure _
  · refine .bind (.eat _) fun b => ?_
    cases b
    · exact .newTable?
    · exact .bind (.eat _) fun _ => .bind (.eat _) fun _ => .newTable?

theorem Local.addition? : Local .statement addition? := by
  refine .bind (.eat _) fun _ => .bind .qualifiedName? fun name => ?_
  split
  · refine .bind (.eat _) fun b => ?_
    cases b
    · exact .pure _
    · exact .bind .statementRest fun _ => .pure _
  · exact .pure _

theorem Local.alterTable? : Local .statement alterTable? := by
  refine .bind (.eat _) fun b => ?_
  cases b
  · exact .pure _
  · refine .bind (.eat _) fun _ => .bind (.eat _) fun b => ?_
    cases b
    · exact .addition?
    · exact .bind (.eat _) fun _ => .addition?

theorem Local.statement? (token : Token) : Local .statement (statement? token) := by
  unfold Reader.statement?
  split
  · exact .createTable?
  · exact .alterTable?
  · exact .pure _

/-- Statements up to a semicolon that ends complete text are those of the text before it, whatever
stands behind. -/
theorem statements_append {t : Text} (h : Complete t) (rest : Text) :
    statements (t ++ ';' :: rest) = statements (t ++ [';']) ++ statements rest := by
  induction hn : t.length using Nat.strongRecOn generalizing t with
  | ind n ih =>
    subst hn
    rcases h.firstToken? with ends | ⟨token, v, complete, -, shorter, first⟩
    · rw [statements_eq, ends (';' :: rest) rfl, statements_eq (t ++ [';']), ends [';'] rfl,
        ← statements_eq, ← statements_eq, statements_semicolon, statements_semicolon,
        statements_nil, List.nil_append]
    · have first {b : Text} : firstToken? (t ++ ';' :: b) = some (token, v ++ ';' :: b) :=
        first _ rfl
      obtain ⟨a, w, complete', reads⟩ := Local.statement? token v complete
      have left := Shrinks.statement? token (v ++ [';'])
      rw [reads _ (.statement [])] at left
      simp only [List.length_append, List.length_singleton, Nat.add_le_add_iff_right] at left
      have behind := ih w.length (by omega) complete' rfl
      rw [statements_eq, first, statements_eq (t ++ [';']), first]
      dsimp only
      rw [reads _ (.statement rest), reads _ (.statement [])]
      dsimp only
      rw [behind, List.append_assoc]

end Reader

end SchemaDiagram.Sql
