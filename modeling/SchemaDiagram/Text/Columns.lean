import SchemaDiagram.Text.EmojiSequence
import SchemaDiagram.Text.Ligature
import SchemaDiagram.Text.Wide

/-!
# Display columns

How many columns a text takes in a font of even pitch: two for wide East Asian characters and for
emoji, none for marks that combine with their neighbours, one for all else. A line break of two
characters, an emoji sequence and a ligature take the columns of a single sign, and a selector can
change those of the character before it. The text is read from its end, so that each character meets
what stands behind it.
-/

namespace SchemaDiagram.Text

def emojiSelector : Char := '\uFE0F'

def textSelector : Char := '\uFE0E'

def fullwidthSelector : Char := '\uFE01'

def isQuotationMark (c : Char) : Bool := c ∈ ['‘', '’', '“', '”']

/-- What a character meets behind it. -/
inductive Follower where
  | other
  | lineFeed
  | emoji (e : EmojiEnd)
  | ligature (l : Ligature)
  | kirat (v : KiratVowels)
  deriving DecidableEq, Repr

/-- The follower and the selectors in front of it. -/
structure Behind where
  follower : Follower := .other
  emojiStyle : Bool := false
  textStyle : Bool := false
  fullwidth : Bool := false
  deriving DecidableEq, Repr

namespace Behind

/-- The emoji selector is no obstacle to a ligature, nor to a keycap or an emoji in front of a
joiner. -/
def withEmojiStyle (b : Behind) : Behind :=
  match b.follower with
  | .ligature _ | .emoji (.joined .start) | .emoji (.joined .keycap) =>
    { b with emojiStyle := true }
  | _ => { emojiStyle := true }

/-- The text selector is no obstacle to a ligature. -/
def withTextStyle (b : Behind) : Behind :=
  match b.follower with
  | .ligature _ => { b with textStyle := true }
  | _ => { textStyle := true }

/-- Nor is the selector of the fullwidth form. -/
def withFullwidth (b : Behind) : Behind :=
  match b.follower with
  | .ligature _ => { b with fullwidth := true }
  | _ => { fullwidth := true }

/-- What is left where the emoji selector has nothing to work on. -/
def withoutEmojiStyle (b : Behind) : Behind :=
  if !b.emojiStyle then b
  else match b.follower with
    | .ligature _ => { b with emojiStyle := false }
    | _ => {}

def withoutTextStyle (b : Behind) : Behind := { b with textStyle := false }

/-- Whether an emoji in front is joined to a sequence that has its columns. -/
def isJoined (b : Behind) : Bool :=
  match b.follower with
  | .emoji (.joined _) => true
  | _ => false

end Behind

/-- The columns of a character that its neighbours leave alone, and what it is to the character
before it. -/
def ownColumns (c : Char) : Int × Follower :=
  if isZeroWidth c then (0, .other)
  else if let some (columns, e) := EmojiEnd.ofChar? c then (columns, .emoji e)
  else if isWide c then (2, .other)
  else if let some l := Ligature.ofChar? c then (1, .ligature l)
  else if let some v := KiratVowels.ofChar? c then (1, .kirat v)
  else if c.toNat = 0x17D8 then (3, .other)
  else (1, .other)

namespace Follower

def ofLigature : Option Ligature → Follower
  | none => other
  | some l => ligature l

def ofKirat : Option KiratVowels → Follower
  | none => other
  | some v => kirat v

def before? (c : Char) : Follower → Option (Int × Follower)
  | other | lineFeed => none
  | emoji e => (e.before? c).map fun (columns, e) => (columns, emoji e)
  | ligature l => (l.before? c).map fun (columns, l?) => (columns, ofLigature l?)
  | kirat v => (v.before? c).map fun (columns, v?) => (columns, ofKirat v?)

end Follower

/-- The columns that one of the first 160 characters adds, and what it is to the character before
it. -/
def basicColumns (c : Char) (f : Follower) : Int × Follower :=
  if c = '\n' then (1, .lineFeed)
  else if c = '\r' && f = .lineFeed then (0, .other)
  else (1, .other)

/-- The columns that a character adds behind which no emoji selector waits. -/
def plainColumns (c : Char) (b : Behind) : Int × Behind :=
  if c.toNat ≤ 0xA0 then
    let (columns, follower) := basicColumns c b.follower
    (columns, { follower })
  else if c = emojiSelector then (0, b.withEmojiStyle)
  else if c = textSelector then (0, b.withTextStyle)
  else if b.textStyle && takesTextStyle c then (1, {})
  else if c = fullwidthSelector then (0, b.withoutTextStyle.withFullwidth)
  else if b.fullwidth && isQuotationMark c then (2, {})
  else
    let (columns, follower) := (b.follower.before? c).getD (ownColumns c)
    (columns, { follower })

def step (c : Char) (b : Behind) : Int × Behind :=
  if b.emojiStyle && takesEmojiStyle c then
    (if b.isJoined then 0 else 2, { follower := .emoji .emoji })
  else plainColumns c b.withoutEmojiStyle

def measured (t : Text) : Int × Behind :=
  t.foldr (fun c (columns, b) =>
    let (own, b) := step c b
    (own + columns, b)) (0, {})

def columns (t : Text) : Nat := (measured t).1.toNat

end SchemaDiagram.Text
