import SchemaDiagram.Text.Basic

/-!
# White space

The 25 characters of the Unicode property White_Space.
-/

namespace SchemaDiagram.Text

def blankRanges : CodePoints := [
  (0x09, 0x0D), (0x20, 0x20), (0x85, 0x85), (0xA0, 0xA0), (0x1680, 0x1680), (0x2000, 0x200A),
  (0x2028, 0x2029), (0x202F, 0x202F), (0x205F, 0x205F), (0x3000, 0x3000)]

def isBlankChar (c : Char) : Bool := blankRanges.has c.toNat

def isBlank (t : Text) : Bool := t.all isBlankChar

def trimStart (t : Text) : Text := t.dropWhile isBlankChar

def trimEnd (t : Text) : Text := (t.reverse.dropWhile isBlankChar).reverse

def trim (t : Text) : Text := trimEnd (trimStart t)

def words (t : Text) : List Text := (t.splitOnP isBlankChar).filter (!·.isEmpty)

end SchemaDiagram.Text
