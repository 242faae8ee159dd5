import SchemaDiagram.Text.ZeroWidth

/-!
# Ligatures

Letters that are written as one sign and take the columns of one. The text is read from its end, so
a ligature is known by its last letters first: `Ligature` says what stands there, `before?` what a
character in front of it adds.
-/

namespace SchemaDiagram.Text

def arabicAlefs : CodePoints := [
  (0x622, 0x623), (0x625, 0x625), (0x627, 0x627), (0x671, 0x673), (0x675, 0x675), (0x773, 0x774),
  (0x870, 0x882)]

def arabicLams : CodePoints := [
  (0x644, 0x644), (0x6B5, 0x6B8), (0x76A, 0x76A), (0x8A6, 0x8A6), (0x8C7, 0x8C7)]

def khmerSubscripts : CodePoints := [
  (0x1780, 0x1782), (0x1784, 0x1787), (0x1789, 0x178C), (0x178E, 0x1793), (0x1795, 0x1798),
  (0x179B, 0x179D), (0x17A0, 0x17A0), (0x17A2, 0x17A2), (0x17A7, 0x17A7), (0x17AB, 0x17AC),
  (0x17AF, 0x17AF)]

def tifinaghConsonants : CodePoints := [(0x2D31, 0x2D65), (0x2D6F, 0x2D6F)]

def lisuFirstTones : CodePoints := [(0xA4F8, 0xA4FB)]

def lisuSecondTones : CodePoints := [(0xA4FC, 0xA4FD)]

/-- The end of a ligature; `joined` if a joiner stands in front of it. -/
inductive Ligature where
  | alef
  | lamed (joined : Bool)
  | khmerSubscript
  | ya (joined : Bool)
  /-- The Buginese vowel sign i, a joiner and ya. -/
  | vowelAndYa
  | tifinagh (joined : Bool)
  /-- The Tifinagh sign that joins consonants, and a consonant. -/
  | tifinaghJoined
  | lisuTone
  | orkhonI (joined : Bool)
  deriving DecidableEq, Repr

namespace Ligature

/-- The ligature that can end in `c`. -/
def ofChar? (c : Char) : Option Ligature :=
  let n := c.toNat
  if arabicAlefs.has n then some alef
  else if n = 0x5DC then some (lamed false)
  else if khmerSubscripts.has n then some khmerSubscript
  else if n = 0x1A10 then some (ya false)
  else if tifinaghConsonants.has n then some (tifinagh false)
  else if lisuSecondTones.has n then some lisuTone
  else if n = 0x10C03 then some (orkhonI false)
  else none

def join : Ligature → Ligature
  | lamed _ => lamed true
  | ya _ => ya true
  | tifinagh _ => tifinagh true
  | orkhonI _ => orkhonI true
  | l => l

/-- What a letter adds to the columns, and what of the ligature is left open. The letters behind it
are counted already, so a mark that makes them vanish takes a column back. -/
def letterBefore? (c : Char) : Ligature → Option (Int × Option Ligature)
  | lamed true => if c.toNat = 0x5D0 then some (0, none) else none
  | khmerSubscript => if c.toNat = 0x17D2 then some (-1, none) else none
  | ya true => if c.toNat = 0x1A17 then some (0, some vowelAndYa) else none
  | vowelAndYa => if c.toNat = 0x1A15 then some (0, none) else none
  | tifinagh joined =>
    if c.toNat = 0x2D7F then some (1, some tifinaghJoined)
    else if joined && tifinaghConsonants.has c.toNat then some (0, none)
    else none
  | tifinaghJoined => if tifinaghConsonants.has c.toNat then some (-1, none) else none
  | lisuTone => if lisuFirstTones.has c.toNat then some (0, none) else none
  | orkhonI true => if c.toNat = 0x10C32 then some (0, none) else none
  | _ => none

/-- What a character adds to the columns in front of a ligature's end, and what is left open; none
if it is no part of the ligature. Arabic letters join across other characters than the rest. -/
def before? (c : Char) (l : Ligature) : Option (Int × Option Ligature) :=
  if l = alef then
    if arabicLams.has c.toNat then some (0, none)
    else if isTransparent c then some (0, some alef)
    else none
  else if c = joiner then some (0, some l.join)
  else if isHiddenMark c then some (0, some l)
  else l.letterBefore? c

end Ligature

/-- The end of a run of the Kirat Rai vowel sign e. A pair of them is one sign, with a sign of its
own, and so is the sign aa with one or two of them. -/
inductive KiratVowels where
  | odd
  | even
  deriving DecidableEq, Repr

namespace KiratVowels

def ofChar? (c : Char) : Option KiratVowels :=
  if c.toNat = 0x16D67 then some odd else if c.toNat = 0x16D68 then some even else none

/-- What a vowel sign adds in front of others, and the run that it makes. -/
def before? (c : Char) (v : KiratVowels) : Option (Int × Option KiratVowels) :=
  let n := c.toNat
  if n = 0x16D63 then some (0, none)
  else
    match v with
    | odd =>
      if n = 0x16D67 then some (0, some even)
      else if n = 0x16D68 then some (1, some odd)
      else if n = 0x16D69 then some (0, none)
      else none
    | even => none

end KiratVowels

end SchemaDiagram.Text
