import Legible.Property.Name

/-!
# Layers

Surfaces are stacked in layers. A layer has a number, or it is a named alternative.
-/

namespace Legible

/-- A numbered layer or a named alternative. -/
inductive LayerId where
  | indexed (number : UInt16)
  | alternative (name : String)
  deriving DecidableEq, Repr

namespace LayerId

/-- The digits of a layer number. -/
def numberText (number : UInt16) : String :=
  String.ofList (Numeric.Decimal.toDigits number.toNat)

/-- The numbered layer with a key `layer-<n>`. -/
def read? (key : String) : Option LayerId :=
  if Property.Name.beginsWith "layer-" key then
    (Text.shortNumber? (key.toList.drop 6)).map indexed
  else none

/-- The path below `layers` in a theme document. -/
def documentPath : LayerId → List String
  | .indexed number => ["layer-" ++ numberText number]
  | .alternative name => ["alternative", name]

/-- The segments that stand for the layer in property names. -/
def nameSegments : LayerId → List String
  | .indexed number => [numberText number]
  | .alternative name => ["alternative", name]

/-- The layer as messages name it. -/
def text : LayerId → String
  | .indexed number => "layer-" ++ numberText number
  | .alternative name => "alternative/" ++ name

/-- The path of a layer's surface binding in a theme document. -/
def surfacePath (mode : Mode) (layer : LayerId) : List String :=
  ["themes", mode.text, "layers"] ++ layer.documentPath ++ ["surface"]

/-- The brand property of an element on a layer. -/
def element (mode : Mode) (layer : LayerId) (tail : List String) : Property.Name :=
  Property.Name.brand mode .layer (layer.nameSegments ++ tail)

/-- The brand property of a layer's surface. -/
def surface (mode : Mode) (layer : LayerId) : Property.Name :=
  element mode layer ["surface"]

end LayerId

end Legible
