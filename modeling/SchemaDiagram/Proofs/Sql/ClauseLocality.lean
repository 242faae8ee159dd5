import SchemaDiagram.Proofs.Sql.Alterations
import SchemaDiagram.Proofs.Sql.ClauseText
import SchemaDiagram.Proofs.Sql.Locality

/-!
# Constraints and the white space behind them

The readers of a constraint stay inside complete text when only white space is left behind it. So
a constraint is the same with white space at its ends and without.
-/

namespace SchemaDiagram.Sql

namespace Reader

variable {e : Ending}

theorem Local.advanceToGroup : Local .blank advanceToGroup :=
  .bind (.eatIf nofun) fun _ => .pure _

theorem group_ne_absent {t rest : Text} (h : firstToken? t = some (.opening, rest)) :
    group t ≠ .absent := by
  obtain ⟨⟨l, rest'⟩, next, eq⟩ := Option.map_eq_some_iff.1 h
  obtain ⟨before, token, raw⟩ := l
  obtain ⟨rfl, rfl⟩ := Prod.mk.inj eq
  unfold group
  rw [next]
  dsimp only
  split <;> simp

theorem listItems_of_closed {t inside behind : Text} (h : group t = .closed inside behind)
    (expectName : Bool) : listItems expectName t = listItems expectName behind := by
  rw [listItems]
  split
  · next closed =>
    rw [h] at closed
    obtain ⟨-, rfl⟩ := Group.closed.inj closed
    rfl
  · next unclosed => simp [h] at unclosed
  · next absent => simp [h] at absent

theorem listItems_of_end {t : Text} (h : firstToken? t = none) (expectName : Bool) :
    listItems expectName t = ([], t) := by
  have absent : group t = .absent := group_absent (by simp [h])
  have none : next? t = none := Option.map_eq_none_iff.1 h
  rw [listItems]
  split
  · next closed => simp [absent] at closed
  · next unclosed => simp [absent] at unclosed
  · split
    · rfl
    · next some => simp [none] at some

theorem firstToken?_of_blank {b : Text} (h : Ends .blank b) : firstToken? b = none :=
  Option.map_eq_none_iff.1 h.token?

theorem Local.listItems (expectName : Bool) : Local .blank (listItems expectName) := by
  intro t complete
  induction hn : t.length using Nat.strongRecOn generalizing t expectName with
  | ind n ih =>
    subst hn
    rcases complete.firstToken? with none | ⟨token, v, complete', -, shorter, first⟩
    · refine ⟨[], t, complete, fun b hb => listItems_of_end ?_ expectName⟩
      rw [none b hb.delimited, firstToken?_of_blank hb]
    have first {b : Text} (hb : Ends .blank b) : firstToken? (t ++ b) = some (token, v ++ b) :=
      first b hb.delimited
    by_cases opening : token = .opening
    · subst opening
      rcases group_of_complete (e := .blank) complete with absent |
        ⟨inside, w, complete, shorter, closes⟩
      · have nothing : Ends .blank [] := .blank (by simp)
        exact absurd (absent [] nothing) (group_ne_absent (first nothing))
      · obtain ⟨a, w', complete', reads⟩ := ih w.length shorter expectName w complete rfl
        refine ⟨a, w', complete', fun b hb => ?_⟩
        rw [listItems_of_closed (closes b hb), reads b hb]
    by_cases closing : token = .closing
    · refine ⟨[], v, complete', fun b hb => ?_⟩
      rw [listItems_eq expectName (first hb) opening, if_pos closing]
    by_cases comma : token = .comma
    · obtain ⟨a, w, complete, reads⟩ := ih v.length shorter true v complete' rfl
      refine ⟨a, w, complete, fun b hb => ?_⟩
      rw [listItems_eq expectName (first hb) opening, if_neg closing, if_pos comma, reads b hb]
    have reads (b : Text) (hb : Ends .blank b) := listItems_eq expectName (first hb) opening
    simp only [if_neg closing, if_neg comma] at reads
    rcases expectName with _ | _
    · obtain ⟨a, w, complete, behind⟩ := ih v.length shorter false v complete' rfl
      exact ⟨a, w, complete, fun b hb => (reads b hb).trans (behind b hb)⟩
    · cases named : token.asName? with
      | none =>
        rw [named] at reads
        obtain ⟨a, w, complete, behind⟩ := ih v.length shorter true v complete' rfl
        exact ⟨a, w, complete, fun b hb => (reads b hb).trans (behind b hb)⟩
      | some name =>
        rw [named] at reads
        obtain ⟨a, w, complete, behind⟩ := ih v.length shorter false v complete' rfl
        refine ⟨name :: a, w, complete, fun b hb => ?_⟩
        rw [reads b hb, behind b hb]

theorem Local.columnList : Local .blank columnList := by
  refine .bind (.eatIf nofun) fun opened => ?_
  cases opened
  · exact .pure _
  · exact .listItems true

theorem Local.groupText? : Local e groupText? := by
  intro t complete
  rcases group_of_complete (e := e) complete with absent | ⟨inside, w, complete', -, closes⟩
  · exact ⟨none, t, complete, fun b hb => by rw [Reader.groupText?, absent b hb]⟩
  · exact ⟨some ('(' :: inside ++ [')']), w, complete',
      fun b hb => by rw [Reader.groupText?, closes b hb]⟩

theorem Local.referentialAction? : Local e referentialAction? := by
  refine .bind (.eatWord _) fun b => ?_
  cases b
  · refine .bind (.eatWord _) fun b => ?_
    cases b
    · refine .bind (.eatWord _) fun b => ?_
      cases b
      · refine .bind (.eatWord _) fun b => ?_
        cases b
        · exact .pure _
        · exact .bind (.eatWord _) fun _ => .pure _
      · refine .bind (.eat _) fun b => ?_
        cases b
        · refine .bind (.eat _) fun b => ?_
          cases b <;> exact .pure _
        · exact .pure _
    · exact .pure _
  · exact .pure _

theorem Local.triggeredAction? : Local e triggeredAction? := by
  refine .bind (.eat _) fun b => ?_
  cases b
  · refine .bind (.eat _) fun b => ?_
    cases b
    · exact .pure _
    · exact .bind .referentialAction? fun _ => .pure _
  · exact .bind .referentialAction? fun _ => .pure _

theorem Local.referentialClause? : Local e referentialClause? := by
  refine .bind (.eat _) fun b => ?_
  cases b
  · exact .pure _
  · exact .triggeredAction?

theorem Local.referentialClauses : Local .blank referentialClauses := by
  intro t complete
  induction hn : t.length using Nat.strongRecOn generalizing t with
  | ind n ih =>
    subst hn
    obtain ⟨a, v, complete', reads⟩ := Local.referentialClause? (e := .blank) t complete
    cases a with
    | none =>
      refine ⟨[], v, complete', fun b hb => ?_⟩
      rw [referentialClauses_eq, reads b hb]
    | some clause =>
      have shorter := referentialClause?_shorter (reads [] (.blank (by simp)))
      rw [List.append_nil, List.append_nil] at shorter
      obtain ⟨others, w, complete, behind⟩ := ih v.length shorter v complete' rfl
      refine ⟨clause :: others, w, complete, fun b hb => ?_⟩
      rw [referentialClauses_eq, reads b hb]
      dsimp only
      rw [behind b hb]

theorem Local.reference? : Local .blank reference? := by
  refine .bind .qualifiedName? fun name => ?_
  split
  · exact .bind .columnList fun _ => .bind .referentialClauses fun _ => .pure _
  · exact .pure _

theorem Local.constraintBody? (name : Option Text) :
    Local .blank (tableConstraint?.constraintBody? name) := by
  refine .bind (.eat _) fun primary => ?_
  cases primary
  · refine .bind (.eat _) fun unique => ?_
    cases unique
    · refine .bind (.eat _) fun foreign => ?_
      cases foreign
      · refine .bind (.eat _) fun check => ?_
        cases check
        · exact .pure _
        · exact .bind .groupText? fun _ => .pure _
      · refine .bind (.eat _) fun _ => .bind .advanceToGroup fun _ => ?_
        refine .bind .columnList fun columns => ?_
        split
        · exact .pure _
        · refine .bind (.eat _) fun references => ?_
          cases references
          · exact .pure _
          · refine .bind .reference? fun target => ?_
            split <;> exact .pure _
    · refine .bind (.eat _) fun key => ?_
      cases key
      · refine .bind (.eat _) fun _ => .bind .advanceToGroup fun _ => ?_
        exact .bind .columnList fun _ => .pure _
      · exact .bind .advanceToGroup fun _ => .bind .columnList fun _ => .pure _
  · exact .bind (.eat _) fun _ => .bind .columnList fun _ => .pure _

theorem Local.tableConstraint? : Local .blank tableConstraint? := by
  refine .bind (.eat _) fun named => ?_
  cases named
  · exact .bind (.pure _) fun name => .constraintBody? name
  · exact .bind (.take? nofun) fun name => .constraintBody? name

end Reader

namespace Scan

theorem plain_of_run_blank {s : Scan} (h : s.InQuotes) {b : Text}
    (blank : ∀ c ∈ b, Text.isBlankChar c) (plain : (s.run b).place = .plain) :
    s.place = .plain := by
  induction b generalizing s with
  | nil => exact plain
  | cons c b ih =>
    rw [List.forall_mem_cons] at blank
    have before := ih (inQuotes_step h c) blank.2 plain
    cases place : s.place with
    | plain => rfl
    | literal quote escaped =>
      have inside : c ≠ quote := by
        rintro rfl
        rcases h c escaped place with rfl | rfl <;> exact absurd blank.1 (by decide)
      simp only [step, place] at before
      repeat' split at before
      all_goals simp_all

end Scan

theorem Completes.of_append_blank {s : Scan} {t b : Text} (h : Completes s (t ++ b))
    (blank : ∀ c ∈ b, Text.isBlankChar c) : Completes s t := by
  have inQuotes : s.InQuotes := fun quote escaped inside => by simp [h.plain] at inside
  have returns := h.returns
  have stays := h.stays
  have known := h.known
  rw [Scan.run_append] at returns
  rw [Scan.avoids_append, Bool.and_eq_true] at stays known
  have plain : (s.run t).place = .plain :=
    Scan.plain_of_run_blank (Scan.inQuotes_run inQuotes t) blank (by rw [returns]; rfl)
  rw [Scan.run_ordinary plain fun c hc => ordinary_of_isBlankChar (blank c hc)] at returns
  exact {
    plain := h.plain
    nonneg := h.nonneg
    stays := stays.1
    returns
    known := known.1
    noBackslash := fun mem => h.noBackslash (List.mem_append_left b mem) }

theorem Closed.completes {t : Text} (h : Closed t) : Completes .start t where
  plain := rfl
  nonneg := Int.le_refl _
  stays := h.balanced.stays
  returns := h.balanced.returns
  known := h.known
  noBackslash := h.noBackslash

theorem tokens_congr {x y : Text} (h : firstToken? x = firstToken? y) : tokens x = tokens y := by
  rw [tokens_eq, tokens_eq y, h]

theorem tokens_append_blank {t : Text} (h : Complete t) {b : Text} (hb : Ends .blank b) :
    tokens (t ++ b) = tokens t := by
  induction hn : t.length using Nat.strongRecOn generalizing t with
  | ind n ih =>
    subst hn
    have alone := Reader.firstToken?_of_blank hb
    rcases h.firstToken? with none | ⟨token, v, complete, -, shorter, first⟩
    · refine tokens_congr ?_
      have end' : firstToken? t = firstToken? [] := by simpa using none [] rfl
      rw [none b hb.delimited, alone, end']
      rfl
    · have end' : firstToken? t = some (token, v) := by simpa using first [] rfl
      rw [tokens_eq, first b hb.delimited, tokens_eq t, end']
      dsimp only
      rw [ih v.length shorter complete rfl]

/-- Closed text without the white space at its ends has the same tokens, and behind the white space
in front it begins with the same one. -/
theorem exists_trimmed {t : Text} (h : Closed t) :
    ∃ back, Complete (Text.trim t) ∧ Ends .blank back ∧ tokens (Text.trim t) = tokens t ∧
      firstToken? (Text.trim t ++ back) = firstToken? t := by
  obtain ⟨front, back, whole, blankFront, blankBack⟩ := Text.exists_trim t
  have first : firstToken? (Text.trim t ++ back) = firstToken? t := by
    conv_rhs => rw [whole, firstToken?_blank_append blankFront]
  have plain : (Scan.start.run front).place = .plain := by
    rw [Scan.run_ordinary rfl fun c hc => ordinary_of_isBlankChar (blankFront c hc)]
    rfl
  have complete : Complete (Text.trim t) := by
    have completes := h.completes
    rw [whole] at completes
    exact ⟨_, (completes.behind plain).of_append_blank blankBack⟩
  refine ⟨back, complete, .blank blankBack, ?_, first⟩
  rw [← tokens_append_blank complete (.blank blankBack)]
  exact tokens_congr first

/-- Tokens that begin with one of these words, or with CONSTRAINT, a name and one of them. -/
inductive ConstraintOpening : List Token → Prop where
  | plain {k spelled rest} : k ∈ constraintWords → ConstraintOpening (.keyword k spelled :: rest)
  | named {token k spelled spelled' rest} : token.asName?.isSome → k ∈ constraintWords →
      ConstraintOpening (.keyword .constraint spelled :: token :: .keyword k spelled' :: rest)

theorem ConstraintOpening.of_firstToken? {t rest spelled : Text} {k : Keyword}
    (h : firstToken? t = some (.keyword k spelled, rest)) (word : k ∈ constraintWords) :
    ConstraintOpening (tokens t) := by
  rw [tokens_eq, h]
  exact .plain word

theorem ofText_of_constraintOpening {s : Text} (h : ConstraintOpening (tokens s)) :
    SegmentKind.ofText s = .constraint := by
  have same : (tokenize s).map Lexeme.token = tokens s := rfl
  unfold SegmentKind.ofText
  rw [same]
  generalize tokens s = l at h
  cases h with
  | @plain k spelled rest word =>
    have other : k ≠ .constraint := by
      rintro rfl
      simp [constraintWords] at word
    split
    · next eq =>
      obtain ⟨eq, -⟩ := List.cons.inj eq
      exact absurd (Token.keyword.inj eq).1 other
    · exact if_pos word
  | named _ word => exact if_pos word

theorem exists_keyword_of_opening {t : Text} (h : ConstraintOpening (tokens t)) :
    ∃ k spelled rest, firstToken? t = some (.keyword k spelled, rest) ∧
      (k = .constraint ∨ k ∈ constraintWords) := by
  rw [tokens_eq] at h
  cases first : firstToken? t with
  | none =>
    rw [first] at h
    cases h
  | some p =>
    obtain ⟨token, rest⟩ := p
    rw [first] at h
    dsimp only at h
    generalize tokens rest = l at h
    cases h with
    | plain word => exact ⟨_, _, _, rfl, .inr word⟩
    | named => exact ⟨_, _, _, rfl, .inl rfl⟩

namespace Reader

variable {x y rest spelled : Text} {k : Keyword}

theorem eat_other (h : firstToken? x = some (.keyword k spelled, rest)) {k' : Keyword}
    (other : k ≠ k') : eat k' x = (false, x) := by
  refine eatIf_false fun token rest' first => ?_
  rw [h] at first
  obtain ⟨rfl, -⟩ := Prod.mk.inj (Option.some_inj.1 first)
  simpa using other

theorem eat_of_opening {t rest : Text} (h : firstToken? t = some (.opening, rest)) {k : Keyword} :
    eat k t = (false, t) := by
  apply eatIf_false
  intro token rest' first
  rw [h] at first
  obtain ⟨rfl, -⟩ := Prod.mk.inj (Option.some_inj.1 first)
  rfl

theorem constraintBody?_congr (hx : firstToken? x = some (.keyword k spelled, rest))
    (hy : firstToken? y = some (.keyword k spelled, rest)) (word : k ∈ constraintWords)
    (name : Option Text) :
    tableConstraint?.constraintBody? name x = tableConstraint?.constraintBody? name y := by
  simp only [constraintWords, List.mem_cons, List.not_mem_nil, or_false] at word
  unfold tableConstraint?.constraintBody?
  rcases word with rfl | rfl | rfl | rfl
  all_goals simp [bind_apply, eat_true hx, eat_true hy, eat_other hx, eat_other hy]

theorem tableConstraint?_congr (hx : firstToken? x = some (.keyword k spelled, rest))
    (hy : firstToken? y = some (.keyword k spelled, rest))
    (word : k = .constraint ∨ k ∈ constraintWords) : tableConstraint? x = tableConstraint? y := by
  unfold tableConstraint?
  rcases word with rfl | word
  · rw [bind_of (eat_true hx), bind_of (eat_true hy)]
  · have other : k ≠ .constraint := by
      rintro rfl
      simp [constraintWords] at word
    rw [bind_of (eat_other hx other), bind_of (eat_other hy other)]
    exact constraintBody?_congr hx hy word none

theorem tableConstraint?_trim {t : Text} (h : Closed t) (begins : ConstraintOpening (tokens t)) :
    (tableConstraint? (Text.trim t)).1 = (tableConstraint? (' ' :: t)).1 := by
  obtain ⟨back, complete, blank, same, first⟩ := exists_trimmed h
  obtain ⟨a, w, -, reads⟩ := Local.tableConstraint? (Text.trim t) complete
  obtain ⟨k, spelled, rest, hk, word⟩ := exists_keyword_of_opening begins
  have alone := reads [] (.blank (by simp))
  rw [List.append_nil] at alone
  have spaced := tableConstraint?_congr (first.trans hk) ((firstToken?_space t).trans hk) word
  rw [alone, ← spaced, reads back blank]

end Reader

end SchemaDiagram.Sql
