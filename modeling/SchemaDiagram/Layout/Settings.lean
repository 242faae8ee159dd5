import SchemaDiagram.Layout.Config
import SchemaDiagram.Toml.Document

/-!
# Settings files

A settings file is a TOML document whose outermost entries override the standard settings. Entries
that are no settings are left alone.
-/

namespace SchemaDiagram

/-- Whole numbers count as floats. -/
def Toml.Value.number? : Value → Option Float
  | .float x => some x
  | .integer i => some (Float64.nearest (i < 0) i.natAbs 1)
  | _ => none

def Toml.Value.count? : Value → Option Nat
  | .integer i => if 0 ≤ i then some i.toNat else none
  | _ => none

def Toml.Value.text? : Value → Option Text
  | .text t => some t
  | _ => none

namespace Config

/-- The settings with the one named `key` changed; none if the value does not fit it. -/
def set? (c : Config Float) (key : Text) (v : Toml.Value) : Option (Config Float) :=
  match String.ofList key with
  | "padding_x" => v.number?.map ({ c with paddingX := · })
  | "padding_y" => v.number?.map ({ c with paddingY := · })
  | "gap_x" => v.number?.map ({ c with gapX := · })
  | "gap_y" => v.number?.map ({ c with gapY := · })
  | "min_gap" => v.number?.map ({ c with minGap := · })
  | "header_height" => v.number?.map ({ c with headerHeight := · })
  | "row_height" => v.number?.map ({ c with rowHeight := · })
  | "table_padding" => v.number?.map ({ c with tablePadding := · })
  | "min_width" => v.number?.map ({ c with minWidth := · })
  | "max_width" => v.number?.map ({ c with maxWidth := · })
  | "header_margin" => v.number?.map ({ c with headerMargin := · })
  | "row_margin" => v.number?.map ({ c with rowMargin := · })
  | "width_padding" => v.number?.map ({ c with widthPadding := · })
  | "relaxation_passes" => v.count?.map ({ c with relaxationPasses := · })
  | "forward_pull" => v.number?.map ({ c with forwardPull := · })
  | "backward_pull" => v.number?.map ({ c with backwardPull := · })
  | "header_font" => v.text?.map ({ c with headerFont := · })
  | "column_font" => v.text?.map ({ c with columnFont := · })
  | _ => some c

/-- The settings of a file; none if it is no TOML document or a value does not fit. -/
def ofToml? (t : Text) : Option (Config Float) := do
  (← Toml.read? t).foldlM (fun c (key, v) => c.set? key v) standard

end Config

end SchemaDiagram
