import SchemaDiagram.Proofs.Sql.Phrases
import SchemaDiagram.Sql.ColumnType

/-!
# The words of type names

A name of the vocabulary is found in any spelling where no further word of a type name stands behind
it. Names that begin a longer one stand behind it in the vocabulary, so the longest one is found.
-/

namespace SchemaDiagram.Sql

open Text (SameName isBlank)

def differs : Text → Text → Bool
  | a :: v, b :: w => a.toLower ≠ b.toLower || differs v w
  | _, _ => false

theorem behindWord?_of_differs {w k v : Text} (h : differs w k) (same : SameName v k) (t : Text) :
    behindWord? w (v ++ t) = none := by
  fun_induction differs w k generalizing v with
  | case1 a w b k ih =>
    obtain ⟨c, v, rfl, first, behind⟩ := List.map_eq_cons_iff.1 same
    rw [List.cons_append, behindWord?]
    by_cases equal : c.toLower = a.toLower
    · rw [if_pos equal]
      exact ih (by simpa [← first, equal] using h) behind
    · rw [if_neg equal]
  | case2 => contradiction

theorem behindWord?_spelled {v w t : Text} (same : SameName v w)
    (ends : t.head?.any Text.isWordChar = false) : behindWord? w (v ++ t) = some t := by
  induction w generalizing v with
  | nil =>
    obtain rfl : v = [] := List.map_eq_nil_iff.1 same
    rw [List.nil_append, behindWord?, ends, if_neg Bool.false_ne_true]
  | cons c w ih =>
    obtain ⟨d, v, rfl, first, behind⟩ := List.map_eq_cons_iff.1 same
    rw [List.cons_append, behindWord?, if_pos first, ih behind]

theorem eq_of_behindWord? {w v t x : Text} (hw : ∀ c ∈ w, Text.isWordChar c)
    (hv : ∀ c ∈ v, Text.isWordChar c) (ends : t.head?.any Text.isWordChar = false)
    (h : behindWord? w (v ++ t) = some x) : SameName w v ∧ x = t := by
  induction w generalizing v with
  | nil =>
    cases v with
    | nil =>
      rw [List.nil_append, behindWord?, ends] at h
      exact ⟨rfl, (Option.some_inj.1 h).symm⟩
    | cons c v => simp [behindWord?, hv c List.mem_cons_self] at h
  | cons d w ih =>
    rw [List.forall_mem_cons] at hw
    cases v with
    | nil =>
      cases t with
      | nil => simp [behindWord?] at h
      | cons c t =>
        rw [List.nil_append, behindWord?] at h
        split at h
        · next same =>
          -- letter case does not make a word character
          have word : Text.isWordChar c := by
            rw [← Text.isWordChar_toLower, same, Text.isWordChar_toLower]
            exact hw.1
          simp [word] at ends
        · contradiction
    | cons c v =>
      rw [List.forall_mem_cons] at hv
      rw [List.cons_append, behindWord?] at h
      split at h
      · next same =>
        obtain ⟨eq, rfl⟩ := ih hw.2 hv.2 h
        refine ⟨?_, rfl⟩
        change d.toLower :: Text.lower w = c.toLower :: Text.lower v
        rw [same, eq]
      · contradiction

def IsWord (w : Text) : Prop := w ≠ [] ∧ ∀ c ∈ w, Text.isWordChar c ∧ Text.isBlankChar c = false

instance (w : Text) : Decidable (IsWord w) := inferInstanceAs (Decidable (_ ∧ _))

theorem IsWord.trimStart {w : Text} (h : IsWord w) (t : Text) :
    Text.trimStart (w ++ t) = w ++ t := by
  obtain ⟨c, w, rfl⟩ := List.exists_cons_of_ne_nil h.1
  exact Text.trimStart_eq_self (by simp [(h.2 c List.mem_cons_self).2])

theorem IsWord.spelled {v w : Text} (h : IsWord w) (same : SameName v w) : IsWord v := by
  have some : v ≠ [] := by
    rintro rfl
    exact h.1 (List.map_eq_nil_iff.1 same.symm)
  refine ⟨some, fun c hc => ?_⟩
  have small : c.toLower ∈ Text.lower w := same ▸ List.mem_map_of_mem hc
  obtain ⟨d, hd, eq⟩ := List.mem_map.1 small
  have facts := h.2 d hd
  rwa [← Text.isWordChar_toLower, ← Text.isBlankChar_toLower d, eq, Text.isWordChar_toLower,
    Text.isBlankChar_toLower] at facts

theorem isNameChar_of_isWordChar {c : Char} (h : Text.isWordChar c) : isNameChar c := by
  rw [isNameChar]
  rw [Text.isWordChar] at h
  rw [h]
  rfl

theorem Apart.noWord {t : Text} (h : Apart t) : t.head?.any Text.isWordChar = false := by
  cases t with
  | nil => rfl
  | cons c t =>
    have noName : isNameChar c = false := h
    cases word : Text.isWordChar c with
    | false => exact word
    | true => simp [isNameChar_of_isWordChar word] at noName

theorem behindWords?_cons_cons (v w : Text) (words : List Text) (t : Text) :
    behindWords? (v :: w :: words) t =
      match behindWord? v t with
      | some (c :: rest) =>
        if Text.isBlankChar c then behindWords? (w :: words) (Text.trimStart rest) else none
      | _ => none :=
  (behindWords?.eq_def _ _).trans rfl

theorem behindWords?_eq_none {w : Text} {t : Text} (h : behindWord? w t = none)
    (words : List Text) : behindWords? (w :: words) t = none := by
  cases words with
  | nil => exact h
  | cons v words => rw [behindWords?_cons_cons, h]

theorem Phrase.exists_blank {rest w t : Text} {words : List Text} (h : Phrase rest (w :: words) t)
    (word : IsWord w) (apart : Apart t) : ∃ c u, t = c :: u ∧ Text.isBlankChar c := by
  cases h with
  | @cons b v _ _ u blank same _ _ =>
    cases b with
    | nil =>
      obtain ⟨some, chars⟩ := word.spelled same
      obtain ⟨c, v, rfl⟩ := List.exists_cons_of_ne_nil some
      have name := isNameChar_of_isWordChar (chars c List.mem_cons_self).1
      simp [Apart, name] at apart
    | cons c b =>
      rw [isBlank, List.all_cons, Bool.and_eq_true] at blank
      exact ⟨c, _, rfl, blank.1⟩

theorem Phrase.trimStart_cons {b v w t : Text} (blank : isBlank b) (word : IsWord w)
    (same : SameName v w) : Text.trimStart (b ++ (v ++ t)) = v ++ t := by
  rw [trimStart_behind_blank blank, (word.spelled same).trimStart]

theorem Phrase.trimStart_ne_nil {rest t : Text} {words : List Text} (h : Phrase rest words t)
    (some : words ≠ []) (isWords : ∀ w ∈ words, IsWord w) : Text.trimStart t ≠ [] := by
  cases h with
  | nil => contradiction
  | @cons b v w words u blank same _ _ =>
    have word := isWords w List.mem_cons_self
    rw [Phrase.trimStart_cons blank word same]
    exact List.append_ne_nil_of_left_ne_nil (word.spelled same).1 u

theorem behindWords?_phrase {rest p : Text} {words : List Text} (h : Phrase rest words p)
    (some : words ≠ []) (isWords : ∀ w ∈ words, IsWord w)
    (ends : rest.head?.any Text.isWordChar = false) :
    behindWords? words (Text.trimStart p) = .some rest := by
  induction h with
  | nil => contradiction
  | @cons b v w words t blank same apart behind ih =>
    rw [List.forall_mem_cons] at isWords
    rw [Phrase.trimStart_cons blank isWords.1 same]
    cases words with
    | nil =>
      cases behind
      exact behindWord?_spelled same ends
    | cons w' words =>
      obtain ⟨c, u, rfl, space⟩ := behind.exists_blank (isWords.2 w' List.mem_cons_self) apart
      have goesOn := ih (List.cons_ne_nil _ _) isWords.2
      have trimmed : Text.trimStart (c :: u) = Text.trimStart u := List.dropWhile_cons_of_pos space
      rw [behindWords?_cons_cons, behindWord?_spelled same apart.noWord]
      dsimp only
      rw [if_pos space, ← trimmed, goesOn]

def laterWords : List Text := typeVocabulary.flatMap List.tail

/-- A type name ends in front of the text: its last word does not go on, and no further word of a
name stands there. -/
structure EndsName (t : Text) : Prop where
  noWord : t.head?.any Text.isWordChar = false
  noMore : ∀ w ∈ laterWords, behindWord? w (Text.trimStart t) = none

/-- Where several words are found, the first one stands there and the others behind it. -/
theorem sameName_of_behindWords? {v w w' u x : Text} {words : List Text} (hw : IsWord w)
    (hv : IsWord v) (ends : u.head?.any Text.isWordChar = false)
    (found : behindWords? (w :: w' :: words) (v ++ u) = some x) :
    SameName w v ∧ behindWords? (w' :: words) (Text.trimStart u) = some x := by
  rw [behindWords?_cons_cons] at found
  split at found
  · next c rest first =>
    obtain ⟨same, rfl⟩ := eq_of_behindWord? (fun d hd => (hw.2 d hd).1)
      (fun d hd => (hv.2 d hd).1) ends first
    split at found
    · next blank =>
      have trimmed : Text.trimStart (c :: rest) = Text.trimStart rest :=
        List.dropWhile_cons_of_pos blank
      exact ⟨same, by rw [trimmed, found]⟩
    · contradiction
  · contradiction

theorem prefix_of_behindWords? {rest : Text} (ends : EndsName rest) {words : List Text} :
    ∀ {b w : Text} {base : List Text} {p x : Text}, Phrase rest (b :: base) p →
      (∀ v ∈ b :: base, IsWord v) → (∀ v ∈ w :: words, IsWord v) →
      (∀ v ∈ words, v ∈ laterWords) → behindWords? (w :: words) (Text.trimStart p) = some x →
      (w :: words).map Text.lower <+: (b :: base).map Text.lower := by
  induction words with
  | nil =>
    intro b w base p x phrase isBase isWords _ found
    rcases phrase with _ | @⟨_, v, _, _, u, blank, same, apart, behind⟩
    have isWord : IsWord v := (isBase b List.mem_cons_self).spelled same
    rw [Phrase.trimStart_cons blank (isBase b List.mem_cons_self) same] at found
    obtain ⟨eq, -⟩ := eq_of_behindWord? (fun c hc => ((isWords w List.mem_cons_self).2 c hc).1)
      (fun c hc => (isWord.2 c hc).1) apart.noWord found
    rw [List.map_singleton, List.map_cons, eq.trans same]
    exact (List.prefix_cons_inj _).2 List.nil_prefix
  | cons w' words ih =>
    intro b w base p x phrase isBase isWords later found
    rcases phrase with _ | @⟨_, v, _, _, u, blank, same, apart, behind⟩
    have isWord : IsWord v := (isBase b List.mem_cons_self).spelled same
    rw [Phrase.trimStart_cons blank (isBase b List.mem_cons_self) same] at found
    obtain ⟨eq, goesOn⟩ :=
      sameName_of_behindWords? (isWords w List.mem_cons_self) isWord apart.noWord found
    rw [List.forall_mem_cons] at isBase isWords later
    cases base with
    | nil =>
      -- a further word would have to stand in the rest
      cases behind
      rw [behindWords?_eq_none (ends.noMore w' later.1)] at goesOn
      contradiction
    | cons b' base =>
      rw [List.map_cons, List.map_cons, eq.trans same]
      exact (List.prefix_cons_inj _).2 (ih behind isBase.2 isWords.2 later.2 goesOn)

theorem isWord_of_vocabulary : ∀ words ∈ typeVocabulary, words ≠ [] ∧ ∀ w ∈ words, IsWord w := by
  decide +kernel

/-- The first name that begins a given one is that name itself: longer names stand in front. -/
theorem find?_vocabulary : ∀ base ∈ typeVocabulary, typeVocabulary.find? (fun words =>
    (words.map Text.lower).isPrefixOf (base.map Text.lower)) = some base := by
  decide +kernel

theorem isWord_of_clauseWords : ∀ k ∈ clauseWords, IsWord k := by decide +kernel

theorem laterWords_differ : ∀ w ∈ laterWords, w ≠ [] ∧ ∀ k ∈ ['('] :: ['['] :: clauseWords,
    differs w k := by
  decide +kernel

theorem typeName?_phrase {rest p : Text} {base : List Text} (h : Phrase rest base p)
    (known : base ∈ typeVocabulary) (ends : EndsName rest) :
    typeName? (Text.trimStart p) = some (Text.join [' '] base, rest) := by
  obtain ⟨isPrefix, before, after, eq, earlier⟩ :=
    List.find?_eq_some_iff_append.1 (find?_vocabulary base known)
  obtain ⟨some, words⟩ := isWord_of_vocabulary base known
  -- A name that stands in front of `base` and fits would begin `base`, and `find?` would give it.
  have skipped : before.findSome? (fun words => (behindWords? words (Text.trimStart p)).map
      fun rest => (Text.join [' '] words, rest)) = none := by
    rw [List.findSome?_eq_none_iff]
    intro v hv
    have known' : v ∈ typeVocabulary := by
      rw [eq]
      exact List.mem_append_left _ hv
    obtain ⟨some', words'⟩ := isWord_of_vocabulary v known'
    obtain ⟨b, base, rfl⟩ := List.exists_cons_of_ne_nil some
    obtain ⟨w, others, rfl⟩ := List.exists_cons_of_ne_nil some'
    cases found : behindWords? (w :: others) (Text.trimStart p) with
    | none => rfl
    | some x =>
      have begins := prefix_of_behindWords? ends h words words'
        (fun w hw => List.mem_flatMap.2 ⟨_, known', hw⟩) found
      have no := earlier _ hv
      rw [List.isPrefixOf_iff_prefix.2 begins] at no
      contradiction
  unfold typeName?
  rw [eq, List.findSome?_append, skipped, List.findSome?_cons,
    behindWords?_phrase h some words ends.noWord]
  rfl

theorem endsName_nil : EndsName [] where
  noWord := rfl
  noMore w hw := by
    obtain ⟨c, w, rfl⟩ := List.exists_cons_of_ne_nil (laterWords_differ w hw).1
    rfl

end SchemaDiagram.Sql
