import Mathlib
import SchemaDiagram.Proofs.Sql.Boundaries

/-!
# Spans of tokens

Offsets count the bytes of a text in UTF-8. Each token covers a span of the text, which begins and
ends between characters.
-/

namespace SchemaDiagram

namespace Text

def byteLength (t : Text) : Nat := (t.map Char.utf8Size).sum

@[simp] theorem byteLength_nil : byteLength [] = 0 := rfl

@[simp] theorem byteLength_cons (c : Char) (t : Text) :
    byteLength (c :: t) = c.utf8Size + byteLength t := rfl

@[simp] theorem byteLength_append (a b : Text) :
    byteLength (a ++ b) = byteLength a + byteLength b := by
  simp [byteLength]

theorem byteLength_pos {t : Text} (h : t ≠ []) : 0 < byteLength t := by
  cases t with
  | nil => contradiction
  | cons c t =>
    have positive := c.utf8Size_pos
    rw [byteLength_cons]
    omega

theorem append_inj_of_byteLength {a b c d : Text} (same : a ++ b = c ++ d)
    (offset : byteLength a = byteLength c) : a = c ∧ b = d := by
  induction a generalizing c with
  | nil =>
    cases c with
    | nil => exact ⟨rfl, same⟩
    | cons e c => exact absurd offset (Nat.ne_of_lt (byteLength_pos (by simp)))
  | cons e a ih =>
    cases c with
    | nil => exact absurd offset.symm (Nat.ne_of_lt (byteLength_pos (by simp)))
    | cons f c =>
      obtain ⟨rfl, behind⟩ := List.cons.inj same
      rw [byteLength_cons, byteLength_cons, Nat.add_left_cancel_iff] at offset
      obtain ⟨rfl, rfl⟩ := ih behind offset
      exact ⟨rfl, rfl⟩

end Text

namespace Sql

structure Span where
  lexeme : Lexeme
  start : Nat
  stop : Nat
  deriving DecidableEq, Repr

def spans (offset : Nat) : List Lexeme → List Span
  | [] => []
  | l :: others =>
    let start := offset + l.before.byteLength
    let stop := start + l.raw.byteLength
    ⟨l, start, stop⟩ :: spans stop others

theorem tokenize_eq (t : Text) :
    tokenize t = match next? t with
      | none => []
      | some (l, rest) => l :: tokenize rest := by
  rw [tokenize]
  split
  · next none => rw [none]
  · next some => rw [some]

theorem token_induction {P : Text → Text → Prop} (none : ∀ front t, next? t = none → P front t)
    (step : ∀ front t l rest, next? t = some (l, rest) →
      P (front ++ (l.before ++ l.raw)) rest → P front t) (front t : Text) : P front t := by
  match taken : next? t with
  | .none => exact none front t taken
  | some (l, rest) => exact step front t l rest taken (token_induction none step _ rest)
termination_by t.length
decreasing_by exact next?_shorter taken

end Sql

end SchemaDiagram
