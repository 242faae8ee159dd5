import SchemaDiagram.Proofs.Sql.Checked.Scripts
import SchemaDiagram.Proofs.Sql.Checked.WrappingScans
import SchemaDiagram.Proofs.Sql.Nesting

/-!
# Bodies of tables

The body of a table is well nested, and so are its parts. With a counter of 32 bits this holds as
long as the counter does not wrap around: behind `2 ^ 32` opening parentheses, the first closing one
is taken for the end of the group.
-/

namespace SchemaDiagram.Sql

namespace Reader

variable {α β : Type}

/-- What is left is an end of the text. -/
def Leaves (r : Reader α) : Prop := ∀ t, (r t).2 <:+ t

theorem Leaves.of_follows {w : Checked.Walk α} {r : Reader α} (h : Checked.Walk.Follows w r) :
    Leaves r := by
  intro t
  obtain ⟨found, -, -, ⟨offset, ⟨front, text, -⟩, -⟩, -⟩ := h t 0 t (.start t)
  exact ⟨front, text.symm⟩

/-- A table that is read is one that `newTable?` reads at some place of the text. -/
def FindsTables (r : Reader (Option Statement)) : Prop :=
  ∀ t created, (r t).1 = some (.create created) →
    ∃ u, u <:+ t ∧ (newTable? u).1 = some (.create created)

namespace FindsTables

theorem newTable? : FindsTables newTable? := fun t _ found => ⟨t, List.suffix_refl t, found⟩

theorem after {r : Reader β} {f : β → Reader (Option Statement)} (leaves : Leaves r)
    (h : ∀ b, FindsTables (f b)) : FindsTables (r >>= f) := by
  intro t created found
  obtain ⟨u, suffix, read⟩ := h _ _ created found
  exact ⟨u, suffix.trans (leaves t), read⟩

theorem of_yields {r : Reader (Option Statement)}
    (h : Yields (fun o => ∀ s ∈ o, ∀ created, s ≠ .create created) r) : FindsTables r :=
  fun t created found => absurd rfl (h t _ found created)

theorem none : FindsTables (pure none) := .of_yields (.pure (by simp))

theorem createTable? : FindsTables createTable? := by
  refine .after (.of_follows (.skipWords _)) fun _ => .after (.of_follows (.eat _)) fun table => ?_
  cases table with
  | false => exact none
  | true =>
    refine .after (.of_follows (.eat _)) fun unlessExists => ?_
    cases unlessExists with
    | false => exact newTable?
    | true =>
      exact .after (.of_follows (.eat _)) fun _ => .after (.of_follows (.eat _)) fun _ => newTable?

theorem statement? (token : Token) : FindsTables (statement? token) := by
  unfold Reader.statement?
  split
  · exact createTable?
  · exact .of_yields (.alterTable? nofun)
  · exact none

end FindsTables

theorem exists_newTable? {t : Text} {created : CreatedTable}
    (mem : .create created ∈ statements t) :
    ∃ u, u <:+ t ∧ (newTable? u).1 = some (.create created) := by
  fun_induction statements t with
  | case1 => contradiction
  | case2 t l rest taken found ih =>
    have behind : rest <:+ t := ⟨l.before ++ l.raw, by simp [← next?_append taken]⟩
    rcases List.mem_append.1 mem with here | later
    · obtain ⟨u, suffix, read⟩ :=
        FindsTables.statement? l.token rest created (Option.mem_toList.1 here)
      exact ⟨u, suffix.trans behind, read⟩
    · obtain ⟨u, suffix, read⟩ := ih later
      have left := Leaves.of_follows (.statement? l.token) rest
      exact ⟨u, suffix.trans (left.trans behind), read⟩

theorem exists_closeGroup? {t body : Text} (h : (groupInside? t).1 = some body) :
    ∃ u behind, u <:+ t ∧ closeGroup? u = some (body, behind) := by
  unfold groupInside? group at h
  split at h
  · contradiction
  · contradiction
  · next inside behind closed =>
    obtain rfl := Option.some_inj.1 h
    split at closed
    · next before raw rest taken =>
      split at closed
      · next found =>
        obtain ⟨rfl, -⟩ := by simpa using closed
        exact ⟨rest, _, ⟨before ++ raw, by simp [← next?_append taken]⟩, found⟩
      · contradiction
    · contradiction

theorem exists_body {t : Text} {created : CreatedTable} (mem : .create created ∈ statements t) :
    ∃ u name schema body behind, u <:+ t ∧ closeGroup? u = some (body, behind) ∧
      created = .ofBody name schema body := by
  obtain ⟨u, suffix, read⟩ := exists_newTable? mem
  simp only [newTable?, bind_apply] at read
  rcases named : qualifiedName? u with ⟨_ | ⟨schema, name⟩, rest⟩
  · rw [named] at read
    contradiction
  · rw [named] at read
    rcases inside : groupInside? rest with ⟨_ | body, left⟩
    · simp only [bind_apply, inside] at read
      contradiction
    · simp only [bind_apply, inside] at read
      obtain ⟨v, behind, opens, closed⟩ := exists_closeGroup? (t := rest) (by rw [inside])
      have back := Leaves.of_follows .qualifiedName? u
      rw [named] at back
      have eq : CreatedTable.ofBody name schema body = created :=
        Statement.create.inj (Option.some_inj.1 read)
      exact ⟨v, name, schema, body, behind, opens.trans (back.trans suffix), closed, eq.symm⟩

end Reader

/-- The text between the offsets is what is cut off in front of the closing parenthesis. -/
theorem ClosesAt.closeGroup? {text t body : Text} {start stop : Nat}
    (closes : ClosesAt text start stop) (h : Checked.StartsAt text start t)
    (sliced : Checked.slice text start stop = .ok body) :
    ∃ behind, Sql.closeGroup? t = some (body, behind) := by
  obtain ⟨⟨inside, behind⟩, closed, rfl⟩ := (closesAt_iff h).1 closes
  refine ⟨behind, ?_⟩
  rw [← Scan.close?_append closed] at h
  rw [closed, Except.ok.inj (h.slice.symm.trans sliced)]

theorem splitTopLevel_of_shallow {t body behind : Text} (closed : closeGroup? t = some (body, behind))
    (shallow : Scan.nested.Shallow t) :
    Checked.Wrapping.splitTopLevel body = .ok (splitTopLevel body) := by
  obtain ⟨rfl, nested⟩ := closeGroup?_eq_some_iff.1 closed
  exact Checked.Wrapping.splitTopLevel_eq (nested.balanced.inRange shallow)

/-- As long as fewer than `2 ^ 31` parentheses are open, a counter of 32 bits is exact, and the
parenthesis that closes a group is the one behind well-nested text. There is one at most, and none
is found only if there is none. So the bodies of tables are well nested, and so are the parts that
they are cut into. -/
theorem closingParen?_of_shallow {text t : Text} {start : Nat}
    (boundary : Checked.sliceFrom text start = .ok t) (shallow : Scan.nested.Shallow t) :
    (∀ k, Checked.Wrapping.closingParen? text start = .ok (some k) ↔ ClosesAt text start k) ∧
    (∀ k k', ClosesAt text start k → ClosesAt text start k' → k = k') ∧
    (Checked.Wrapping.closingParen? text start = .ok none ↔
      ∀ inside behind, t = inside ++ ')' :: behind → ¬ WellNested inside) ∧
    (∀ k body, Checked.Wrapping.closingParen? text start = .ok (some k) →
      Checked.slice text start k = .ok body → WellNested body ∧
        Checked.Wrapping.splitTopLevel body = .ok (splitTopLevel body) ∧
        ∀ p ∈ splitTopLevel body, WellNested p) ∧
    (∀ a, a <+: t → closeGroup? a = none →
      (WrappingScan.nested.run a).depth.toInt = (Scan.nested.run a).depth) ∧
    ∀ script created, .create created ∈ Reader.statements (stripComments script) →
      ∃ first stop rest name schema body,
        Checked.sliceFrom (stripComments script) first = .ok rest ∧
        Checked.slice (stripComments script) first stop = .ok body ∧
        created = .ofBody name schema body ∧ WellNested body ∧
        (∀ p ∈ splitTopLevel body, WellNested p) ∧
        (Scan.nested.Shallow rest →
          Checked.Wrapping.closingParen? (stripComments script) first = .ok (some stop) ∧
          Checked.Wrapping.splitTopLevel body = .ok (splitTopLevel body)) := by
  have starts := Checked.StartsAt.of_sliceFrom boundary
  have same := Checked.Wrapping.closingParen?_eq starts shallow
  refine ⟨?_, ?_, ?_, ?_, ?_, ?_⟩
  · intro k
    rw [same, closingParen?_eq_some_iff starts]
  · intro k k' closes closes'
    exact closes.unique starts closes'
  · rw [same, starts.closingParen?, Except.ok.injEq, Option.map_eq_none_iff, closeGroup?_eq_none_iff]
  · intro k body found sliced
    rw [same, closingParen?_eq_some_iff starts] at found
    obtain ⟨behind, closed⟩ := found.closeGroup? starts sliced
    have nested := (balanced_of_closeGroup? closed).wellNested
    exact ⟨nested, splitTopLevel_of_shallow closed shallow, nested.splitTopLevel⟩
  · intro a front never
    exact shallow.toInt_depth_run front never
  · intro script created mem
    obtain ⟨u, name, schema, body, behind, ⟨front, text⟩, closed, rfl⟩ := Reader.exists_body mem
    have place : Checked.StartsAt (stripComments script) (Text.byteLength front) u :=
      ⟨front, text.symm, rfl⟩
    have nested := (balanced_of_closeGroup? closed).wellNested
    have sliced := (Scan.close?_append closed ▸ place).slice
    refine ⟨_, _, u, name, schema, body, place.sliceFrom, sliced, rfl, nested,
      nested.splitTopLevel, fun shallow => ⟨?_, splitTopLevel_of_shallow closed shallow⟩⟩
    rw [Checked.Wrapping.closingParen?_eq place shallow, place.closingParen?, closed]
    rfl

def quotedGroup : Text := Text.ofString "é('\\')(', \"it's )\", (b)) c)"

theorem closingParen?_quotedGroup :
    Checked.sliceFrom quotedGroup 3 = .ok (quotedGroup.drop 2) ∧
      Scan.nested.Shallow (quotedGroup.drop 2) ∧ ClosesAt quotedGroup 3 24 ∧
      Checked.Wrapping.closingParen? quotedGroup 3 = .ok (some 24) := by
  have boundary : Checked.sliceFrom quotedGroup 3 = .ok (quotedGroup.drop 2) := by rfl
  have shallow : Scan.nested.Shallow (quotedGroup.drop 2) := Scan.shallow_of_length (by decide)
  have closes : Checked.Wrapping.closingParen? quotedGroup 3 = .ok (some 24) := by rfl
  exact ⟨boundary, shallow, ((closingParen?_of_shallow boundary shallow).1 24).1 closes, closes⟩

/-- The grammar of well-nested text without the empty text. -/
inductive Generated : Text → Prop where
  | ordinary {c} : c ∉ ['\'', '"', '(', ')'] → Generated [c]
  | literal {quote t} : quote = '\'' ∨ quote = '"' → LiteralContent quote t →
      Generated (quote :: t ++ [quote])
  | group {t} : Generated t → Generated ('(' :: t ++ [')'])
  | append {a b} : Generated a → Generated b → Generated (a ++ b)

theorem Generated.ne_nil {t : Text} (h : Generated t) : t ≠ [] := by
  induction h with
  | append _ _ some => exact List.append_ne_nil_of_left_ne_nil some _
  | _ => simp

def deepText (n : Nat) : Text := List.replicate n '(' ++ [')']

namespace WrappingScan

theorem close?_parens (depth : Int32) (offset n : Nat) (t : Text) :
    (mk .plain depth).close? offset (List.replicate n '(' ++ t) =
      (mk .plain (depth + .ofNat n)).close? (offset + n) t := by
  induction n generalizing depth offset with
  | zero => rw [show Int32.ofNat 0 = 0 from rfl, Int32.add_zero]; rfl
  | succ n ih =>
    have more : depth + Int32.ofNat (n + 1) = depth + 1 + Int32.ofNat n := by
      rw [Int32.ofNat_add, Int32.add_comm (.ofNat n), ← Int32.add_assoc]
      rfl
    have further : offset + (n + 1) = offset + 1 + n := by omega
    rw [more, further, ← ih (depth + 1) (offset + 1)]
    rfl

end WrappingScan

theorem byteLength_parens (n : Nat) : Text.byteLength (List.replicate n '(') = n := by
  induction n with
  | zero => rfl
  | succ n ih =>
    rw [List.replicate_succ, Text.byteLength_cons, ih]
    exact Nat.add_comm 1 n

/-- Where the counter is back at zero, one parenthesis closes them all. -/
theorem closingParen?_deepText_of_wraps {n : Nat} (wraps : Int32.ofNat n = 0) :
    Checked.Wrapping.closingParen? (deepText n) 0 = .ok (some n) := by
  have whole : Checked.StartsAt (deepText n) 0 (deepText n) := .start (deepText n)
  have found : WrappingScan.nested.close? 0 (deepText n) = some n := by
    refine (WrappingScan.close?_parens 1 0 n [')']).trans ?_
    rw [wraps, Nat.zero_add]
    rfl
  have bounds := whole.bounds (a := List.replicate n '(')
  rw [byteLength_parens, Nat.zero_add] at bounds
  rw [Checked.Wrapping.closingParen?, whole.sliceFrom, Checked.ok_bind, found]
  simp only [bounds, Checked.ok_bind]
  rfl

theorem Scan.run_parens (depth : Int) (n : Nat) :
    (mk .plain depth).run (List.replicate n '(') = ⟨.plain, depth + n⟩ := by
  induction n generalizing depth with
  | zero => simp [run]
  | succ n ih =>
    have behind := ih (depth + 1)
    have more : depth + 1 + (n : Int) = depth + (n + 1 : Nat) := by omega
    rwa [more] at behind

theorem closeGroup?_deepText {n : Nat} (some : 0 < n) : closeGroup? (deepText n) = none := by
  have avoids : Scan.nested.avoids Scan.closes (List.replicate n '(') := by
    refine Scan.avoids_iff.2 fun a c b text => decide_eq_false fun closes => ?_
    have mem : c ∈ List.replicate n '(' := by simp [text]
    rw [Scan.eq_of_mark_closing closes.1] at mem
    exact absurd (List.eq_of_mem_replicate mem) (by decide)
  have last : (Scan.mk .plain (1 + n)).close? [')'] = none := by
    have deeper : n ≠ 0 := Nat.ne_of_gt some
    simp [Scan.close?, Scan.mark, Scan.step, deeper]
  rw [closeGroup?, deepText, Scan.close?_append_of_avoids avoids]
  rw [show Scan.nested = ⟨.plain, 1⟩ from rfl, Scan.run_parens, last]
  rfl

theorem not_closesAt_deepText {n : Nat} (some : 0 < n) (k : Nat) : ¬ ClosesAt (deepText n) 0 k := by
  intro closes
  obtain ⟨cut, closed, -⟩ := (closesAt_iff (.start (deepText n))).1 closes
  rw [closeGroup?_deepText some] at closed
  contradiction

/-- Behind `2 ^ 32` parentheses one alone is found to close their group. And a group may be empty. -/
theorem closingParen?_misread :
    (Checked.Wrapping.closingParen? (deepText (2 ^ 32)) 0 = .ok (some (2 ^ 32)) ∧
      ¬ ClosesAt (deepText (2 ^ 32)) 0 (2 ^ 32)) ∧
    Checked.Wrapping.closingParen? (Text.ofString "()") 1 = .ok (some 1) ∧
      Checked.slice (Text.ofString "()") 1 1 = .ok [] ∧ ¬ Generated [] :=
  ⟨⟨closingParen?_deepText_of_wraps (by decide), not_closesAt_deepText (by decide) _⟩, rfl, rfl,
    fun generated => generated.ne_nil rfl⟩

end SchemaDiagram.Sql
