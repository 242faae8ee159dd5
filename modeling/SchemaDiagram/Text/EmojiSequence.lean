import SchemaDiagram.Text.Emoji
import SchemaDiagram.Text.ZeroWidth

/-!
# Emoji sequences

Emoji with joiners between them are shown as one. The text is read from its end; `EmojiEnd` is what
has been seen of a sequence by then. The last emoji has taken the columns, so what belongs to the
sequence in front of it takes no more.
-/

namespace SchemaDiagram.Text

/-- What is read of a sequence in front of a joiner and an emoji. -/
inductive JoinedEnd where
  | start
  | keycap
  /-- A number of flag letters. They form flags from the first one on, so the sequence has the last
  two of an even number and none of an odd one. -/
  | flagLetter
  | evenFlagLetters
  | oddFlagLetters
  /-- The end of a region and some letters of it, or letters and digits. -/
  | tagLetters (n : Nat)
  | tagDigits (n : Nat)
  deriving DecidableEq, Repr

/-- The end of an emoji sequence, as far as it can go on. -/
inductive EmojiEnd where
  | emoji
  | skinTone
  | flagLetter
  | flagLetters
  | joined (e : JoinedEnd)
  deriving DecidableEq, Repr

namespace JoinedEnd

/-- What `c` adds to the columns in front of a joined sequence, and the sequence then. -/
def before? (c : Char) : JoinedEnd → Option (Int × EmojiEnd)
  | start =>
    if c = Text.keycap then some (0, .joined keycap)
    else if isFlagLetter c then some (1, .joined flagLetter)
    else if isSkinTone c then some (0, .skinTone)
    else if c = tagEnd then some (0, .joined (tagLetters 0))
    else if hasEmojiStyle c then some (0, .emoji)
    else none
  | keycap => none
  | flagLetter => if isFlagLetter c then some (-1, .joined evenFlagLetters) else none
  | evenFlagLetters =>
    if isFlagLetter c then some (3, .joined oddFlagLetters)
    else if c = joiner then some (0, .joined start)
    else none
  | oddFlagLetters =>
    if isFlagLetter c then some (-1, .joined evenFlagLetters)
    else if c = joiner then some (0, .joined start)
    else none
  | tagLetters n =>
    if isTagLetter c && n < 6 then some (0, .joined (tagLetters (n + 1)))
    else if isTagDigit c && n < 5 then some (0, .joined (tagDigits 1))
    else if c = blackFlag && 3 ≤ n then some (0, .emoji)
    else none
  | tagDigits n =>
    if isTagDigit c && n < 3 then some (0, .joined (tagDigits (n + 1)))
    else if c = blackFlag && n = 3 then some (0, .emoji)
    else none

end JoinedEnd

namespace EmojiEnd

def ofChar? (c : Char) : Option (Int × EmojiEnd) :=
  if isSkinTone c then some (2, skinTone)
  else if isFlagLetter c then some (1, flagLetter)
  else if hasEmojiStyle c then some (2, emoji)
  else none

/-- What `c` adds to the columns in front of a sequence, and the sequence then; none if it is no
part of it. -/
def before? (c : Char) : EmojiEnd → Option (Int × EmojiEnd)
  | emoji => if c = joiner then some (0, joined .start) else none
  | skinTone =>
    if takesSkinTone c then some (0, emoji)
    else if c = joiner then some (0, joined .start)
    else none
  | flagLetter => if isFlagLetter c then some (1, flagLetters) else none
  | flagLetters =>
    if isFlagLetter c then some (1, flagLetters)
    else if c = joiner then some (0, joined .start)
    else none
  | joined e => e.before? c

end EmojiEnd

end SchemaDiagram.Text
