import SchemaDiagram.Proofs.Sql.Alterations
import SchemaDiagram.Proofs.Sql.Comments
import SchemaDiagram.Proofs.Sql.Phrases
import SchemaDiagram.Proofs.Sql.Segments

/-!
# Scans and tokens in lower case

Nothing that a scan looks for and nothing that begins or ends a token is a letter. So text in lower
case is cut, uncommented and read as tokens at the same places.
-/

namespace SchemaDiagram.Sql

open Text (lower toLower_eq_iff beq_toLower lower_cons lower_append length_lower)

namespace Scan

variable {s : Scan}

theorem mark_toLower (s : Scan) (c : Char) : s.mark c.toLower = s.mark c := by
  simp [mark, toLower_eq_iff]

theorem step_toLower (h : s.InQuotes) (c : Char) : s.step c.toLower = s.step c := by
  obtain ⟨place, depth⟩ := s
  cases place with
  | plain =>
    by_cases opens : c = '\'' ∨ c = '"'
    · rcases opens with rfl | rfl <;> rfl
    · rw [not_or] at opens
      simp [step, toLower_eq_iff, opens]
  | literal quote escaped =>
    rcases h quote escaped rfl with rfl | rfl <;> simp [step, toLower_eq_iff]

theorem stops_toLower (h : s.InQuotes) (c : Char) : s.stops c.toLower = s.stops c := by
  simp [stops, step_toLower h, mark_toLower]

theorem close?_lower (h : s.InQuotes) (t : Text) :
    s.close? (lower t) = (s.close? t).map (Prod.map lower lower) := by
  induction t generalizing s with
  | nil => rfl
  | cons c t ih =>
    rw [lower_cons, close?, close?, mark_toLower, step_toLower h, ih (inQuotes_step h c)]
    split
    · rfl
    · rw [Option.map_map, Option.map_map]
      rfl

theorem cut_lower (h : s.InQuotes) (t : Text) :
    s.cut (lower t) = Prod.map lower (List.map lower) (s.cut t) := by
  induction t generalizing s with
  | nil => rfl
  | cons c t ih =>
    rw [lower_cons, cut, cut, mark_toLower, step_toLower h, ih (inQuotes_step h c)]
    dsimp only [Prod.map]
    split <;> rfl

theorem statement_lower (h : s.InQuotes) (t : Text) :
    s.statement (lower t) = Prod.map lower lower (s.statement t) := by
  induction t generalizing s with
  | nil => rfl
  | cons c t ih =>
    rw [lower_cons, statement, statement, mark_toLower, step_toLower h, ih (inQuotes_step h c)]
    split <;> rfl

theorem expression_lower (h : s.InQuotes) (t : Text) :
    s.expression (lower t) = Prod.map lower lower (s.expression t) := by
  induction t generalizing s with
  | nil => rfl
  | cons c t ih =>
    rw [lower_cons, expression, expression, stops_toLower h, step_toLower h,
      ih (inQuotes_step h c)]
    split <;> rfl

theorem inQuotes_nested : nested.InQuotes := nofun

end Scan

theorem closeGroup?_lower (t : Text) :
    closeGroup? (lower t) = (closeGroup? t).map (Prod.map lower lower) :=
  Scan.close?_lower Scan.inQuotes_nested t

theorem pieces_lower (t : Text) : pieces (lower t) = (pieces t).map lower := by
  rw [pieces, Scan.cut_lower Scan.inQuotes_start]
  rfl

theorem segments_lower (body : Text) : segments (lower body) = (segments body).map lower := by
  have trimmed (parts : List Text) :
      (parts.map lower).map Text.trim = (parts.map Text.trim).map lower := by
    simp [Text.trim_lower]
  rw [segments_eq, pieces_lower, trimmed, List.filter_map, segments_eq]
  simp only [Function.comp_def, Text.isEmpty_lower]

theorem unifyLineEnds_lower (t : Text) : unifyLineEnds (lower t) = lower (unifyLineEnds t) := by
  fun_induction unifyLineEnds t with
  | case1 rest ih => exact congrArg ('\n' :: ·) ih
  | case2 c rest other ih =>
    rw [lower_cons, unifyLineEnds, ih, lower_cons]
    -- A pair that is none in `t` is none in lower case either.
    intro rest' return' newline
    obtain ⟨behind, eq⟩ := Text.exists_of_lower_eq_cons rfl newline
    exact other behind ((toLower_eq_iff rfl).1 return') eq
  | case3 => rfl

theorem fromLineEnd_lower (t : Text) : fromLineEnd (lower t) = lower (fromLineEnd t) :=
  Text.dropWhile_lower (fun c => by simp [toLower_eq_iff]) t

theorem behindBlock_lower (t : Text) : behindBlock (lower t) = lower (behindBlock t) := by
  fun_induction behindBlock t with
  | case1 rest => rfl
  | case2 c rest other ih =>
    rw [lower_cons, behindBlock, ih]
    intro rest' star slash
    obtain ⟨behind, eq⟩ := Text.exists_of_lower_eq_cons rfl slash
    exact other behind ((toLower_eq_iff rfl).1 star) eq
  | case3 => rfl

theorem Scan.opensComment_lower (s : Scan) (c : Char) (t : Text) :
    s.opensComment c.toLower (lower t) = s.opensComment c t := by
  cases t <;> simp [opensComment, beq_toLower]

theorem Scan.uncomment_lower {s : Scan} (h : s.InQuotes) (t : Text) :
    s.uncomment (lower t) = lower (s.uncomment t) := by
  induction s, t using comment_induction with
  | nil s => simp [uncomment]
  | char s c t kept ih =>
    have kept' : s.opensComment c.toLower (lower t) = false :=
      (opensComment_lower s c t).trans kept
    rw [lower_cons, uncomment_cons kept', uncomment_cons kept, step_toLower h,
      ih (inQuotes_step h c), lower_cons]
  | line s t outside ih =>
    have text : lower ('-' :: '-' :: t) = '-' :: '-' :: lower t := rfl
    rw [text, uncomment_line outside, uncomment_line outside, fromLineEnd_lower, ih h]
  | block s t outside ih =>
    have text : lower ('/' :: '*' :: t) = '/' :: '*' :: lower t := rfl
    rw [text, uncomment_block outside, uncomment_block outside, behindBlock_lower, ih h]
    rfl

theorem stripComments_lower (t : Text) : stripComments (lower t) = lower (stripComments t) := by
  rw [stripComments, unifyLineEnds_lower, Scan.uncomment_lower Scan.inQuotes_start, stripComments]

def Piece.lowered {α β : Type} (f : α → β) (p : Piece α) : Piece β :=
  ⟨f p.value, lower p.raw, lower p.rest⟩

theorem Piece.lowered_behind (p : Piece Text) (cs : Text) (c : Char) :
    (p.behind cs (c :: ·)).lowered lower =
      (p.lowered lower).behind (lower cs) (c.toLower :: ·) := by
  simp [Piece.lowered, Piece.behind]

theorem quotedName_lower {close : Char} (mark : close.isAlpha = false) (t : Text) :
    quotedName close (lower t) = (quotedName close t).lowered lower := by
  have same : close.toLower = close := (toLower_eq_iff mark).2 rfl
  fun_induction quotedName close t with
  | case1 => rfl
  | case2 d rest both ih =>
    obtain ⟨rfl, single⟩ := both
    simp [quotedName, same, single, ih, Piece.lowered_behind]
  | case3 d rest not =>
    have not' : ¬(d.toLower = close ∧ close ≠ ']') := by rwa [toLower_eq_iff mark]
    simp [quotedName, same, not', Piece.lowered]
  | case4 => simp [quotedName, same, Piece.lowered]
  | case5 c rest other ih =>
    rw [lower_cons, quotedName.eq_def]
    simp [toLower_eq_iff mark, other, ih, Piece.lowered_behind]

theorem stringBody_lower (t : Text) : stringBody (lower t) = (stringBody t).lowered lower := by
  fun_induction stringBody t with
  | case1 => rfl
  | case2 rest ih =>
    have text : lower ('\'' :: '\'' :: rest) = '\'' :: '\'' :: lower rest := rfl
    rw [text, stringBody, ih, Piece.lowered_behind]
    rfl
  | case3 rest other =>
    have text : lower ('\'' :: rest) = '\'' :: lower rest := rfl
    rw [text, stringBody]
    · rfl
    · intro rest' quote
      obtain ⟨behind, eq⟩ := Text.exists_of_lower_eq_cons rfl quote
      exact other behind eq
  | case4 => rfl
  | case5 c rest ih =>
    have text : lower ('\\' :: c :: rest) = '\\' :: c.toLower :: lower rest := rfl
    rw [text, stringBody, ih, Piece.lowered_behind]
    rfl
  | case6 c rest _ noQuote loneSlash slash ih =>
    have noSlash : c ≠ '\\' := by
      rintro rfl
      cases rest with
      | nil => exact loneSlash rfl rfl
      | cons d rest => exact slash d rest rfl rfl
    have quote' : c.toLower ≠ '\'' := fun quote => noQuote ((toLower_eq_iff rfl).1 quote)
    have slash' : c.toLower ≠ '\\' := fun slash => noSlash ((toLower_eq_iff rfl).1 slash)
    rw [lower_cons, stringBody, ih, Piece.lowered_behind]
    · rfl
    · exact fun _ quote _ => quote' quote
    · exact quote'
    · exact fun slash _ => slash' slash
    · exact fun _ _ slash _ => slash' slash

theorem digits_lower (pointSeen : Bool) (t : Text) :
    digits pointSeen (lower t) = Prod.map lower lower (digits pointSeen t) := by
  induction t generalizing pointSeen with
  | nil => rfl
  | cons c rest ih =>
    have point : c.toLower = '.' ↔ c = '.' := toLower_eq_iff rfl
    simp only [lower_cons, digits, Text.isAsciiDigit_toLower, ih, point]
    repeat' split
    all_goals rfl

theorem startsToken_lower (c : Char) (rest : Text) :
    startsToken c.toLower (lower rest) = startsToken c rest := by
  simp [startsToken, toLower_eq_iff, beq_toLower, Text.head?_any_lower]

theorem gap_lower (t : Text) : gap (lower t) = Prod.map lower lower (gap t) := by
  induction t with
  | nil => rfl
  | cons c rest ih =>
    rw [lower_cons, gap, gap, startsToken_lower, ih]
    split <;> rfl

namespace Token

def lowered : Token → Token
  | keyword k spelled => keyword k (lower spelled)
  | name n => name (lower n)
  | string value => string (lower value)
  | number digits => number (lower digits)
  | token => token

theorem asName?_lowered (token : Token) : token.lowered.asName? = token.asName?.map lower := by
  cases token <;> rfl

theorem lowered_eq_iff {token mark : Token} (h : mark ∈ [opening, closing, comma]) :
    token.lowered = mark ↔ token = mark := by
  simp only [List.mem_cons, List.not_mem_nil, or_false] at h
  rcases h with rfl | rfl | rfl <;> cases token <;> simp [lowered]

theorem isWord_lowered (word : Text) (token : Token) :
    token.lowered.isWord word = token.isWord word := by
  cases token <;> simp [lowered, isWord, Text.sameName_lower_left]

theorem ofWord_lower (word : Text) : ofWord (lower word) = (ofWord word).lowered := by
  rw [ofWord, Text.upper_lower, ofWord]
  split <;> rfl

end Token

theorem tokenAt_lower (c : Char) (rest : Text) :
    tokenAt c.toLower (lower rest) = (tokenAt c rest).lowered Token.lowered := by
  have word : c.toLower :: (lower rest).takeWhile isNameChar =
      lower (c :: rest.takeWhile isNameChar) := by
    rw [Text.takeWhile_lower isNameChar_toLower, lower_cons]
  have bracketed : quotedName ']' (lower rest) = (quotedName ']' rest).lowered lower :=
    quotedName_lower rfl rest
  have quoted (quote : c = '"' ∨ c = '\x60') :
      quotedName c.toLower (lower rest) = (quotedName c rest).lowered lower := by
    rcases quote with rfl | rfl <;> exact quotedName_lower rfl rest
  -- No test on the first character tells small letters from capital ones.
  simp only [tokenAt, toLower_eq_iff, Char.reduceIsAlpha, Text.isAsciiDigit_toLower,
    stringBody_lower, bracketed, digits_lower, word, Text.dropWhile_lower isNameChar_toLower,
    Token.ofWord_lower]
  repeat' split
  all_goals first
    | rfl
    | next quote => rw [quoted quote]; rfl

def Lexeme.lowered (l : Lexeme) : Lexeme := ⟨lower l.before, l.token.lowered, lower l.raw⟩

theorem next?_lower (t : Text) :
    next? (lower t) = (next? t).map (Prod.map Lexeme.lowered lower) := by
  rw [next?, gap_lower, next?]
  rcases gap t with ⟨before, tail⟩
  cases tail with
  | nil => rfl
  | cons c rest =>
    simp only [Prod.map, lower_cons, tokenAt_lower]
    rfl

theorem firstToken?_lower (t : Text) :
    firstToken? (lower t) = (firstToken? t).map (Prod.map Token.lowered lower) := by
  rw [firstToken?, next?_lower, firstToken?, Option.map_map, Option.map_map]
  rfl

theorem firstToken?_lower_of_end {t : Text} (h : next? t = none) :
    firstToken? (lower t) = none := by
  rw [firstToken?_lower, firstToken?, h]
  rfl

theorem firstToken?_lower_of_next? {t rest : Text} {l : Lexeme} (h : next? t = some (l, rest)) :
    firstToken? (lower t) = some (l.token.lowered, lower rest) := by
  rw [firstToken?_lower, firstToken?, h]
  rfl

theorem tokens_lower (t : Text) : tokens (lower t) = (tokens t).map Token.lowered := by
  fun_induction tokenize t with
  | case1 t ended =>
    rw [tokens_eq, firstToken?_lower_of_end ended, tokens_eq, firstToken?, ended]
    rfl
  | case2 t l rest next ih =>
    rw [tokens_eq, firstToken?_lower_of_next? next, tokens_of_next? next]
    exact congrArg (l.token.lowered :: ·) ih

theorem skipPast_next? (n : Nat) (t : Text) :
    skipPast n t = match next? t with
      | none => t
      | some (l, rest) =>
        if l.before.length < n then skipPast (n - l.before.length - l.raw.length) rest else t := by
  rw [skipPast]
  split
  · next none => rw [none]
  · next l rest next => rw [next]

theorem skipPast_lower (n : Nat) (t : Text) : skipPast n (lower t) = lower (skipPast n t) := by
  have before (l : Lexeme) : l.lowered.before.length = l.before.length := length_lower l.before
  have raw (l : Lexeme) : l.lowered.raw.length = l.raw.length := length_lower l.raw
  fun_induction skipPast n t with
  | case1 n t none =>
    rw [skipPast_next?, next?_lower, none]
    rfl
  | case2 n t l rest next near ih =>
    rw [skipPast_next?, next?_lower, next]
    simp only [Option.map_some, Prod.map, before, raw, if_pos near, ih]
  | case3 n t l rest next far =>
    rw [skipPast_next?, next?_lower, next]
    simp only [Option.map_some, Prod.map, before, if_neg far]

end SchemaDiagram.Sql
