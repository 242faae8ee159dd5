import SchemaDiagram.Proofs.Sql.Closed
import SchemaDiagram.Sql.Body

/-!
# Segments that are read back

A list of segments, a comma and a space between them, is cut into just these segments.
-/

namespace SchemaDiagram.Sql

/-- The text does not end in white space. -/
def Solid (t : Text) : Prop := t.getLast?.all (!Text.isBlankChar ·)

instance (t : Text) : Decidable (Solid t) := inferInstanceAs (Decidable (_ = true))

namespace Solid

theorem nil : Solid [] := rfl

theorem last {t : Text} (h : Solid t) : ∀ c ∈ t.getLast?, Text.isBlankChar c = false := by
  intro c hc
  rw [Option.mem_def] at hc
  simpa [Solid, hc] using h

theorem append_right {a b : Text} (some : b ≠ []) (hb : Solid b) : Solid (a ++ b) := by
  have last : (a ++ b).getLast? = b.getLast? := by
    rw [List.getLast?_append, List.getLast?_eq_some_getLast some, Option.some_or]
  rwa [Solid, last]

theorem append {a b : Text} (ha : Solid a) (hb : Solid b) : Solid (a ++ b) := by
  by_cases none : b = []
  · rwa [none, List.append_nil]
  · exact append_right none hb

theorem cons_space {t : Text} (some : t ≠ []) (h : Solid t) : Solid (' ' :: t) :=
  append_right (a := [' ']) some h

theorem group (t : Text) : Solid ('(' :: t ++ [')']) :=
  append_right (by simp) (by decide)

end Solid

/-- Text between two commas that reading changes nothing of. -/
structure Segment (s : Text) : Prop where
  balanced : Balanced s
  uncut : Scan.start.avoids Scan.cuts s
  nonempty : s ≠ []
  first : ∀ c ∈ s.head?, Text.isBlankChar c = false
  last : Solid s

namespace Segment

theorem isBlank {s : Text} (h : Segment s) : Text.isBlank s = false := by
  obtain ⟨c, rest, rfl⟩ := List.exists_cons_of_ne_nil h.nonempty
  simp [Text.isBlank, h.first c rfl]

theorem trim {s : Text} (h : Segment s) : Text.trim s = s := Text.trim_eq_self h.first h.last.last

theorem trim_space {s : Text} (h : Segment s) : Text.trim (' ' :: s) = s := h.trim

theorem cut {s : Text} (h : Segment s) (b : Text) :
    Scan.start.cut (s ++ b) = (s ++ (Scan.start.cut b).1, (Scan.start.cut b).2) := by
  rw [Scan.cut_append_of_avoids h.uncut, h.balanced.returns]

end Segment

theorem cut_space (t : Text) :
    Scan.start.cut (' ' :: t) = (' ' :: (Scan.start.cut t).1, (Scan.start.cut t).2) := rfl

theorem cut_comma (t : Text) :
    Scan.start.cut (',' :: t) = ([], (Scan.start.cut t).1 :: (Scan.start.cut t).2) := rfl

theorem cut_join {s : Text} {others : List Text} (h : ∀ t ∈ s :: others, Segment t) :
    Scan.start.cut (Text.join [',', ' '] (s :: others)) = (s, others.map (' ' :: ·)) := by
  induction others generalizing s with
  | nil =>
    rw [List.forall_mem_cons] at h
    have whole := h.1.cut []
    simpa [Text.join, Scan.cut] using whole
  | cons t others ih =>
    rw [List.forall_mem_cons] at h
    have text : Text.join [',', ' '] (s :: t :: others) =
        s ++ ',' :: ' ' :: Text.join [',', ' '] (t :: others) := by
      simp [Text.join, List.intercalate_cons_cons]
    rw [text, h.1.cut, cut_comma, cut_space, ih h.2, List.append_nil]
    rfl

theorem dropBlankLast_of_not_blank {l : List Text} (h : ∀ t ∈ l, Text.isBlank t = false) :
    dropBlankLast l = l := by
  fun_induction dropBlankLast l with
  | case1 => rfl
  | case2 last blank => simp [h last] at blank
  | case3 => rfl
  | case4 piece others _ ih => rw [ih fun t ht => h t (List.mem_cons_of_mem _ ht)]

theorem segments_join {segs : List Text} (h : ∀ s ∈ segs, Segment s) :
    segments (Text.join [',', ' '] segs) = segs := by
  cases segs with
  | nil => rfl
  | cons s others =>
    rw [List.forall_mem_cons] at h
    have full : ∀ t ∈ s :: others.map (' ' :: ·), Text.isBlank t = false := by
      refine List.forall_mem_cons.2 ⟨h.1.isBlank, fun t ht => ?_⟩
      obtain ⟨u, hu, rfl⟩ := List.mem_map.1 ht
      exact (h.2 u hu).isBlank
    have kept : splitTopLevel (Text.join [',', ' '] (s :: others)) =
        s :: others.map (' ' :: ·) := by
      rw [splitTopLevel, pieces, cut_join (List.forall_mem_cons.2 h)]
      exact dropBlankLast_of_not_blank full
    have trimmed : (s :: others.map (' ' :: ·)).map Text.trim = s :: others := by
      rw [List.map_cons, List.map_map, h.1.trim]
      congr 1
      exact (List.map_congr_left (g := id) fun t ht => (h.2 t ht).trim_space).trans
        (List.map_id _)
    have nonempty : ∀ t ∈ s :: others, (!t.isEmpty) = true :=
      List.forall_mem_cons.2 ⟨by simp [h.1.nonempty], fun t ht => by simp [(h.2 t ht).nonempty]⟩
    rw [segments, kept, trimmed, List.filter_eq_self.2 nonempty]

/-- A comma behind balanced text cuts the text before it from the text behind it. -/
theorem cut_append_comma {s : Scan} {a : Text} (back : s.run a = .start) (t : Text) :
    s.cut (a ++ ',' :: t) = ((s.cut a).1, (s.cut a).2 ++ pieces t) := by
  induction a generalizing s with
  | nil =>
    obtain rfl : s = .start := back
    rfl
  | cons c a ih =>
    rw [List.cons_append, Scan.cut, Scan.cut, ih (s := s.step c) back]
    dsimp only
    split <;> rfl

theorem pieces_append_comma {a : Text} (back : Scan.start.run a = .start) (t : Text) :
    pieces (a ++ ',' :: t) = pieces a ++ pieces t := by
  rw [pieces, cut_append_comma back]
  rfl

theorem filter_trim_dropBlankLast (l : List Text) :
    ((dropBlankLast l).map Text.trim).filter (!·.isEmpty) =
      (l.map Text.trim).filter (!·.isEmpty) := by
  fun_induction dropBlankLast l with
  | case1 => rfl
  | case2 last blank => simp [Text.trim_of_isBlank blank]
  | case3 => rfl
  | case4 piece others _ ih =>
    rw [List.map_cons, List.map_cons, List.filter_cons, List.filter_cons, ih]

theorem segments_eq (t : Text) :
    segments t = ((pieces t).map Text.trim).filter (!·.isEmpty) :=
  filter_trim_dropBlankLast _

theorem segments_append_comma {a : Text} (h : Balanced a) (t : Text) :
    segments (a ++ ',' :: t) = segments a ++ segments t := by
  rw [segments_eq, segments_eq, segments_eq, pieces_append_comma h.returns, List.map_append,
    List.filter_append]

theorem pieces_of_uncut {t : Text} (uncut : Scan.start.avoids Scan.cuts t) : pieces t = [t] := by
  have cut := Scan.cut_append_of_avoids uncut []
  rw [List.append_nil] at cut
  rw [pieces, cut]
  simp [Scan.cut]

theorem segments_of_uncut {t : Text} (uncut : Scan.start.avoids Scan.cuts t)
    (some : Text.trim t ≠ []) : segments t = [Text.trim t] := by
  rw [segments_eq, pieces_of_uncut uncut]
  simp [some]

end SchemaDiagram.Sql
