import SchemaDiagram.Proofs.Sql.RoundTrip

/-!
# Quoted names

A name can be quoted in three ways, and reading takes the quotes off again. A scan knows double
quotes only: what stands in backticks or in brackets it takes for ordinary text. So a name gets
through in these two quotings if the scan sees nothing in it.
-/

namespace SchemaDiagram.Sql

/-- A scan passes over the text and sees neither a comment nor a comma of a list in it. -/
structure Unseen (t : Text) : Prop where
  balanced : Balanced t
  commentFree : Scan.start.commentFree t
  uncut : Scan.start.avoids Scan.cuts t

instance (t : Text) : Decidable (Unseen t) :=
  decidable_of_iff (Balanced t ∧ Scan.start.commentFree t ∧ Scan.start.avoids Scan.cuts t)
    ⟨fun ⟨balanced, commentFree, uncut⟩ => ⟨balanced, commentFree, uncut⟩,
      fun ⟨balanced, commentFree, uncut⟩ => ⟨balanced, commentFree, uncut⟩⟩

/-- The name can be written in that quoting, and a scan is not misled by it. -/
def Quoting.Suits : Quoting → Text → Prop
  | doubleQuotes, _ => True
  | backticks, name => Unseen name
  | brackets, name => ']' ∉ name ∧ Unseen name

namespace Scan

variable {s : Scan} {t : Text}

theorem step_backtick_twice (known : s.InQuotes) : (s.step '\x60').step '\x60' = s.step '\x60' := by
  obtain ⟨place, depth⟩ := s
  cases place with
  | plain => rfl
  | literal quote escaped =>
    rcases known quote escaped rfl with rfl | rfl
    · cases escaped <;> rfl
    · cases escaped <;> rfl

theorem run_doubledBy (known : s.InQuotes) : s.run (doubledBy '\x60' t) = s.run t := by
  induction t generalizing s with
  | nil => rfl
  | cons c t ih =>
    have behind := ih (inQuotes_step known c)
    rw [doubledBy_cons, run_append]
    by_cases hc : c = '\x60'
    · subst hc
      rw [if_pos rfl]
      change ((s.step '\x60').step '\x60').run _ = (s.step '\x60').run t
      rw [step_backtick_twice known, behind]
    · rw [if_neg hc]
      exact behind

theorem avoids_doubledBy {stop : Scan → Char → Bool}
    (quiet : ∀ s, s.InQuotes → stop s '\x60' = false → stop (s.step '\x60') '\x60' = false)
    (known : s.InQuotes) (h : s.avoids stop t) : s.avoids stop (doubledBy '\x60' t) := by
  induction t generalizing s with
  | nil => rfl
  | cons c t ih =>
    rw [avoids, Bool.and_eq_true, Bool.not_eq_true'] at h
    have behind := ih (inQuotes_step known c) h.2
    rw [doubledBy_cons]
    by_cases hc : c = '\x60'
    · subst hc
      have again : (s.step '\x60').avoids stop ('\x60' :: doubledBy '\x60' t) := by
        rw [avoids, quiet s known h.1, step_backtick_twice known, behind]
        rfl
      change (!stop s '\x60' && _) = true
      rw [h.1]
      exact again
    · rw [if_neg hc]
      change (!stop s c && _) = true
      rw [h.1]
      exact behind

theorem commentFree_doubledBy (known : s.InQuotes) (h : s.commentFree t) :
    s.commentFree (doubledBy '\x60' t) := by
  induction t generalizing s with
  | nil => rfl
  | cons c t ih =>
    rw [commentFree, Bool.and_eq_true, Bool.not_eq_true'] at h
    have behind := ih (inQuotes_step known c) h.2
    rw [doubledBy_cons]
    by_cases hc : c = '\x60'
    · subst hc
      have again : (s.step '\x60').commentFree ('\x60' :: doubledBy '\x60' t) := by
        rw [commentFree, step_backtick_twice known, behind]
        simp [opensComment]
      have noComment (rest : Text) : s.opensComment '\x60' rest = false := by simp [opensComment]
      change (!s.opensComment '\x60' _ && _) = true
      rw [noComment]
      exact again
    · rw [if_neg hc]
      have same : s.opensComment c (doubledBy '\x60' t) = s.opensComment c t := by
        rw [opensComment, opensComment, head?_doubledBy]
      change (!s.opensComment c (doubledBy '\x60' t) && _) = true
      rw [same, h.1]
      exact behind

end Scan

theorem Unseen.doubledBy {t : Text} (h : Unseen t) : Unseen (doubledBy '\x60' t) where
  balanced := by
    refine ⟨?_, Scan.avoids_doubledBy (fun s known low => ?_) Scan.inQuotes_start h.balanced.stays⟩
    · rw [Scan.run_doubledBy Scan.inQuotes_start, h.balanced.returns]
    · rw [Scan.falls, Scan.step_backtick_twice known]
      exact low
  commentFree := Scan.commentFree_doubledBy Scan.inQuotes_start h.commentFree
  uncut := by
    refine Scan.avoids_doubledBy (fun s _ _ => ?_) Scan.inQuotes_start h.uncut
    exact decide_eq_false fun cut => absurd (Scan.eq_of_mark_comma cut.1) (by decide)

theorem doubledBy_of_not_mem {close : Char} {t : Text} (h : close ∉ t) : doubledBy close t = t := by
  induction t with
  | nil => rfl
  | cons c t ih =>
    rw [List.mem_cons, not_or] at h
    rw [doubledBy_cons, if_neg (Ne.symm h.1), ih h.2]
    rfl

/-- A character without a meaning of its own for scans, lists and comments. -/
def idle (c : Char) : Bool := ordinary c && c ∉ ['-', '/', '*', ',']

namespace Unseen

variable {t : Text}

theorem nil : Unseen [] := ⟨.nil, rfl, rfl⟩

theorem cons {c : Char} (hc : idle c) (h : Unseen t) : Unseen (c :: t) := by
  simp only [idle, Bool.and_eq_true, decide_eq_true_eq, List.mem_cons, List.not_mem_nil, or_false,
    not_or] at hc
  have still : Scan.start.step c = .start := Scan.step_ordinary rfl hc.1
  have noComment : Scan.start.opensComment c t = false := by simp [Scan.opensComment, hc]
  have noFall : Scan.start.falls c = false := by rw [Scan.falls, still]; rfl
  have noCut : Scan.start.cuts c = false :=
    decide_eq_false fun cut => hc.2.2.2.2 (Scan.eq_of_mark_comma cut.1)
  refine ⟨⟨?_, ?_⟩, ?_, ?_⟩
  · change (Scan.start.step c).run t = .start
    rw [still, h.balanced.returns]
  · rw [Scan.avoids, noFall, still, h.balanced.stays]
    rfl
  · rw [Scan.commentFree, noComment, still, h.commentFree]
    rfl
  · rw [Scan.avoids, noCut, still, h.uncut]
    rfl

theorem append {a b : Text} (ha : Unseen a) (hb : Unseen b) (dash : b.head? ≠ some '-')
    (star : b.head? ≠ some '*') : Unseen (a ++ b) where
  balanced := ha.balanced.append hb.balanced
  commentFree := Scan.commentFree_append ha.commentFree
    (by rw [ha.balanced.returns]; exact hb.commentFree) dash star
  uncut := by rw [Scan.avoids_append, ha.balanced.returns, ha.uncut, hb.uncut]; rfl

theorem clean (h : Unseen t) : Clean t :=
  ⟨h.commentFree, by rw [h.balanced.returns]; rfl⟩

end Unseen

namespace Quoting

variable {q : Quoting} {name : Text}

theorem unseen_marked {body : Text} (h : Unseen body) {first last : Char} (hf : idle first)
    (hl : idle last) : Unseen (first :: body ++ [last]) := by
  have noMark : last ≠ '-' ∧ last ≠ '*' := by
    constructor <;> rintro rfl <;> exact absurd hl (by decide)
  have closing : Unseen [last] := .cons hl .nil
  refine .cons hf (h.append closing ?_ ?_)
  · simpa using noMark.1
  · simpa using noMark.2

theorem unseen_write (h : Quotable name) (suits : q.Suits name) : Unseen (q.write name) := by
  cases q with
  | doubleQuotes =>
    have quoted := h.closed
    exact ⟨quoted.balanced, quoted.commentFree, (h.inline (b := []) rfl).uncut⟩
  | backticks => exact unseen_marked suits.doubledBy (by decide) (by decide)
  | brackets =>
    obtain ⟨noBracket, unseen⟩ := suits
    change Unseen ('[' :: doubledBy ']' name ++ [']'])
    rw [doubledBy_of_not_mem noBracket]
    exact unseen_marked unseen (by decide) (by decide)

theorem Suits.fits (suits : q.Suits name) : q = .brackets → ']' ∉ name := by
  rintro rfl
  exact suits.1

theorem closing_ne_space : ' ' ≠ q.closing := by
  cases q <;> decide

theorem standsFor_write (suits : q.Suits name) : StandsFor (q.write name) name := by
  intro t
  have blank : (' ' :: t).head? ≠ some q.closing := by simpa using closing_ne_space
  exact firstToken?_write suits.fits blank

theorem inline_write (h : Quotable name) (suits : q.Suits name) (t : Text) :
    Inline (q.write name) (' ' :: t) := by
  have unseen := unseen_write h suits
  have blank : (' ' :: t).head? ≠ some q.closing := by simpa using closing_ne_space
  have token := tokenAt_write suits.fits blank
  refine ⟨⟨unseen.balanced, fun free => ?_, ?_, ?_⟩, unseen.uncut⟩
  · have behind : (Scan.start.run (q.write name)).commentFree (' ' :: t) := by
      rw [unseen.balanced.returns]
      exact free
    exact Scan.commentFree_append unseen.commentFree behind (by simp) (by simp)
  · have rest : (tokenAt q.opening (doubledBy q.closing name ++ [q.closing] ++
        ([] ++ ' ' :: t))).rest = [] ++ ' ' :: t := by
      simp [token]
    have splits := Splits.token (startsToken_opening _) rest (.nil (' ' :: t))
    rwa [List.append_nil] at splits
  · exact not_mem_write h.noReturn (by cases q <;> decide)

end Quoting

variable {q : Quoting} {name : Text}

def namesake (name : Text) : Table :=
  { name, columns := [{ name, type := Text.ofString "INT" }] }

def namesakeBody (q : Quoting) (name : Text) : Text := q.write name ++ Text.ofString " INT"

def namesakeText (q : Quoting) (name : Text) : Text :=
  createText (q.write name) (namesakeBody q name)

theorem inline_namesakeBody (h : Quotable name) (suits : q.Suits name) {b : Text}
    (hb : Delimited b) : Inline (namesakeBody q name) b := by
  have type : Inline (Text.ofString " INT") b := inline_of_harmless (by decide +kernel) hb
  exact (Quoting.inline_write h suits (Text.ofString "INT" ++ b)).append type

theorem segments_namesakeBody (h : Quotable name) (suits : q.Suits name) :
    segments (namesakeBody q name) = [namesakeBody q name] := by
  have whole := inline_namesakeBody h suits (b := []) rfl
  have segment : Segment (namesakeBody q name) := {
    balanced := whole.balanced
    uncut := whole.uncut
    nonempty := by simp [namesakeBody, Quoting.write]
    first := by
      intro c hc
      obtain rfl : q.opening = c := Option.some_inj.1 hc
      cases q <;> decide
    last := .append_right (by decide) (by decide) }
  have alone := segments_join (List.forall_mem_singleton.2 segment)
  simpa [Text.join] using alone

theorem firstToken?_namesakeBody (suits : q.Suits name) :
    firstToken? (namesakeBody q name) = some (.name name, Text.ofString " INT") :=
  Quoting.standsFor_write suits (Text.ofString "INT")

theorem column?_namesakeBody (suits : q.Suits name) :
    column? (namesakeBody q name) = some { name, type := Text.ofString "INT" } := by
  have named := Reader.name?_some (firstToken?_namesakeBody suits) rfl
  have typed : columnType? (Text.ofString " INT") = some ⟨Text.ofString "INT", []⟩ := by
    let int : WrittenType := ⟨[Text.ofString "INT"], none, [], by decide +kernel, by simp, by simp⟩
    exact int.columnType?_text (.inl rfl)
  have none : Reader.clauses [] = [] := by rw [Reader.clauses_eq]; rfl
  unfold column?
  rw [named]
  simp only [typed, Option.map_some, Option.getD_some, none]
  rfl

theorem ofBody_namesakeBody (h : Quotable name) (suits : q.Suits name)
    (noIndex : Text.isAmong name [Text.ofString "FULLTEXT", Text.ofString "SPATIAL"] = false) :
    CreatedTable.ofBody name none (namesakeBody q name) = ⟨namesake name, []⟩ := by
  have kind := SegmentKind.ofText_of_name (firstToken?_namesakeBody suits) noIndex
  unfold CreatedTable.ofBody
  simp [segments_namesakeBody h suits, kind, column?_namesakeBody suits, Text.firstOfEach,
    columnRelationship?, namesake]

theorem stripComments_namesakeText (h : Quotable name) (suits : q.Suits name) :
    stripComments (namesakeText q name) = namesakeText q name := by
  have clean := (Quoting.unseen_write h suits).clean
  have body : Clean (namesakeBody q name) :=
    clean.append (by decide +kernel) (by simp [Text.ofString]) (by simp [Text.ofString])
  have ended : Clean [] := by decide
  have whole := clean.createText body ended
  rw [List.append_nil] at whole
  have noReturn : '\r' ∉ q.write name :=
    Quoting.not_mem_write h.noReturn (by cases q <;> decide)
  refine stripComments_of_commentFree ?_ whole.commentFree
  simp [createText, namesakeText, namesakeBody, noReturn, Text.ofString]

theorem statements_namesakeText (h : Quotable name) (suits : q.Suits name)
    (noIndex : Text.isAmong name [Text.ofString "FULLTEXT", Text.ofString "SPATIAL"] = false) :
    Reader.statements (namesakeText q name) = [.create ⟨namesake name, []⟩] := by
  have ended : Delimited (')' :: ';' :: []) := rfl
  have alone := (inline_namesakeBody h suits ended).toStandalone
  have read := Reader.statements_createText (Quoting.standsFor_write suits) alone
  rw [List.append_nil, ofBody_namesakeBody h suits noIndex, Reader.statements_semicolon,
    Reader.statements_nil] at read
  exact read

/-- A name is taken literally in every quoting that suits it: double quotes suit all names, the two
others those that a scan sees nothing in. -/
theorem extract_namesakeText (q : Quoting) {name : Text} (h : Quotable name)
    (noIndex : Text.isAmong name [Text.ofString "FULLTEXT", Text.ofString "SPATIAL"] = false)
    (suits : q.Suits name) :
    extract (namesakeText q name) = { tables := [namesake name], relationships := [] } := by
  have created := schemaOf_create (l := [⟨namesake name, []⟩]) (by simp)
  rw [extract, stripComments_namesakeText h suits, statements_namesakeText h suits noIndex]
  exact created

def busyName : Text := Text.ofString "a\x60b (x, y) '--),('; [\"\""

theorem extract_busyName_backticked :
    (Quotable busyName ∧
      Text.isAmong busyName [Text.ofString "FULLTEXT", Text.ofString "SPATIAL"] = false ∧
      Quoting.backticks.Suits busyName) ∧
      extract (Text.ofString "CREATE TABLE \x60a\x60\x60b (x, y) '--),('; [\"\"\x60 " ++
          Text.ofString "(\x60a\x60\x60b (x, y) '--),('; [\"\"\x60 INT);") =
        { tables := [namesake busyName], relationships := [] } := by
  have quotable : Quotable busyName := ⟨by decide, by decide⟩
  have noIndex :
      Text.isAmong busyName [Text.ofString "FULLTEXT", Text.ofString "SPATIAL"] = false := by
    decide
  have unseen : Unseen busyName := by decide +kernel
  have text : Text.ofString "CREATE TABLE \x60a\x60\x60b (x, y) '--),('; [\"\"\x60 " ++
      Text.ofString "(\x60a\x60\x60b (x, y) '--),('; [\"\"\x60 INT);" =
        namesakeText .backticks busyName := by
    decide +kernel
  rw [text]
  exact ⟨⟨quotable, noIndex, unseen⟩, extract_namesakeText .backticks quotable noIndex unseen⟩

/-- In backticks a comma cuts a column in two. And a name that announces an index is none of a
column, quoted or not. -/
theorem extract_misread_names :
    (Quotable (Text.ofString "a,b") ∧ extract (namesakeText .backticks (Text.ofString "a,b")) ≠
        { tables := [namesake (Text.ofString "a,b")], relationships := [] }) ∧
      Quotable (Text.ofString "fulltext") ∧
        extract (namesakeText .doubleQuotes (Text.ofString "fulltext")) ≠
          { tables := [namesake (Text.ofString "fulltext")], relationships := [] } := by
  refine ⟨⟨⟨by decide, by decide⟩, ?_⟩, ⟨by decide, by decide⟩, ?_⟩
  · decide +kernel
  · decide +kernel

end SchemaDiagram.Sql
