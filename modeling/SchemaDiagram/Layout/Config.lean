import SchemaDiagram.Scalar
import SchemaDiagram.Text.Basic

/-!
# Layout settings

The measures of a layout. Each one has a default, and a settings file overrides those it names.
-/

namespace SchemaDiagram

structure Config (α : Type) where
  /-- Outer padding of the finished diagram. -/
  paddingX : α
  paddingY : α
  /-- Gap between neighbours before tables are pulled together. -/
  gapX : α
  /-- Gap between layers. -/
  gapY : α
  /-- Least gap between neighbours in the finished diagram. -/
  minGap : α
  headerHeight : α
  rowHeight : α
  /-- Space below the last row. -/
  tablePadding : α
  minWidth : α
  maxWidth : α
  headerMargin : α
  rowMargin : α
  /-- Space beside the widest line. -/
  widthPadding : α
  relaxationPasses : Nat
  /-- How far a table goes towards the tables it refers to, as a part of the whole way. -/
  forwardPull : α
  /-- How far a table goes towards the tables that refer to it. -/
  backwardPull : α
  headerFont : Text
  columnFont : Text

def Config.standard {α : Type} [Scalar α] : Config α where
  paddingX := Scalar.ofNat 80
  paddingY := Scalar.ofNat 70
  gapX := Scalar.ofNat 120
  gapY := Scalar.ofNat 90
  minGap := Scalar.ofNat 50
  headerHeight := Scalar.ofNat 36
  rowHeight := Scalar.ofNat 26
  tablePadding := Scalar.ofNat 8
  minWidth := Scalar.ofNat 240
  maxWidth := Scalar.ofNat 380
  headerMargin := Scalar.ofNat 60
  rowMargin := Scalar.ofNat 40
  widthPadding := Scalar.ofNat 30
  relaxationPasses := 4
  forwardPull := Scalar.ratio 1 2
  backwardPull := Scalar.ratio 3 10
  headerFont := Text.ofString "bold 13px \"Segoe UI\", system-ui, sans-serif"
  columnFont := Text.ofString "12px \"Cascadia Code\", \"Fira Code\", Consolas, monospace"

end SchemaDiagram
