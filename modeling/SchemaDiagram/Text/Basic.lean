/-!
# Text

A text is a list of characters. Names and keywords are compared without regard to the case of the
26 ASCII letters; every other character stands for itself.
-/

namespace SchemaDiagram

abbrev Text := List Char

namespace Text

def ofString (s : String) : Text := s.toList

/-- Lower case for the ASCII letters only. -/
def lower (t : Text) : Text := t.map Char.toLower

/-- Upper case for the ASCII letters only. -/
def upper (t : Text) : Text := t.map Char.toUpper

/-- Two spellings of one name: equal up to the case of ASCII letters. -/
def SameName (a b : Text) : Prop := lower a = lower b

instance (a b : Text) : Decidable (SameName a b) :=
  inferInstanceAs (Decidable (lower a = lower b))

theorem SameName.refl (a : Text) : SameName a a := rfl

theorem SameName.symm {a b : Text} (h : SameName a b) : SameName b a := Eq.symm h

theorem SameName.trans {a b c : Text} (h : SameName a b) (k : SameName b c) : SameName a c :=
  Eq.trans h k

def join (sep : Text) (parts : List Text) : Text := sep.intercalate parts

def contains (part : Text) : Text → Bool
  | [] => part.isEmpty
  | c :: t => part.isPrefixOf (c :: t) || contains part t

def isAmong (word : Text) (words : List Text) : Bool := words.any (SameName word ·)

def firstOfEach {α : Type} (key : α → Text) : List α → List α
  | [] => []
  | a :: rest => a :: (firstOfEach key rest).filter (key · ≠ key a)

end Text

/-- Closed ranges of code points, ascending and apart. -/
abbrev CodePoints := List (Nat × Nat)

def CodePoints.has (n : Nat) : CodePoints → Bool
  | [] => false
  | (first, last) :: rest => if n < first then false else n ≤ last || CodePoints.has n rest

end SchemaDiagram
