import Legible.Color.Contrast
import Legible.Reference.Resolver
import Legible.Theme.Emission

/-!
# Anchors

An anchor is a core color resolved to a token. Black and white carry every choice
of a legible foreground: when their binding leads nowhere, a token that holds
exactly black or white stands in. The other core colors have no stand-in. Either
way the failure is reported.
-/

namespace Legible

open Property

/-- A color with the token that holds it. -/
structure Anchor where
  token : Token.Path
  color : Color
  deriving DecidableEq, Repr

/-- The property of an anchor's token. -/
def Anchor.property (anchor : Anchor) : Name := Name.ofToken anchor.token

/-- The anchors of a mode, in the order of their slots. -/
structure Anchors where
  mode : Mode
  bound : List (CoreSlot × Anchor)
  deriving DecidableEq, Repr

namespace Resolver

/-- The color token that a reference leads to, or what is said about it. -/
def resolveColor (resolver : Resolver) (reference : Reference) : Except String Anchor :=
  match resolver.resolveToken reference with
  | .ok token =>
      match resolver.index.color? token with
      | some color => .ok ⟨token, color⟩
      | none => .error (token.text ++ " is not a color")
  | .error error => .error error.message

end Resolver

namespace Anchors

/-- The color whose token stands in for a slot. -/
def standIn? (slot : CoreSlot) : Option Color :=
  if slot = .black then some .black else if slot = .white then some .white else none

/-- The anchor of a slot, and the issue of a binding that leads nowhere. -/
def resolveSlot (resolver : Resolver) (slot : CoreSlot) : Option Anchor × Option Issue :=
  let locus := String.intercalate "." (slot.documentPath resolver.mode)
  match resolver.resolveColor (.site (some resolver.mode) (.ofSlot slot)) with
  | .ok anchor => (some anchor, none)
  | .error failure =>
      let found := (standIn? slot).bind fun color =>
        (resolver.index.findColor? color).map fun token => Anchor.mk token color
      match found with
      | some anchor =>
          (some anchor,
            some (Issue.warning .reference locus (failure ++ "; using " ++ anchor.token.text)))
      | none =>
          (none,
            some (Issue.warning .reference locus
              (failure ++ "; core color " ++ slot.label ++ " skipped")))

/-- The anchors of the resolver's mode, and the issues of their bindings. -/
def resolve (resolver : Resolver) : Anchors × List Issue :=
  let found := CoreSlot.all.map fun slot => (slot, resolveSlot resolver slot)
  (⟨resolver.mode,
      found.filterMap fun (slot, anchor, _) => anchor.map fun anchor => (slot, anchor)⟩,
    found.filterMap fun (_, _, issue) => issue)

/-- The anchor of a slot. -/
def get? (anchors : Anchors) (slot : CoreSlot) : Option Anchor := anchors.bound.lookup slot

/-- The black and the white anchor, when both are there. -/
def contrasting? (anchors : Anchors) : Option (Anchor × Anchor) :=
  match anchors.get? .black, anchors.get? .white with
  | some black, some white => some (black, white)
  | _, _ => none

/-- The brand properties that every choice between black and white reads. -/
def contrastInputs (mode : Mode) : List Name :=
  [CoreSlot.black.property mode, CoreSlot.white.property mode]

/-- Black or white, whichever contrasts more with a color; black when they are
equal. -/
def better? (anchors : Anchors) (against : Color) : Option (CoreSlot × Anchor) :=
  anchors.contrasting?.map fun (black, white) =>
    if ContrastRatio.between white.color against ≤ ContrastRatio.between black.color against then
      (.black, black)
    else (.white, white)

/-- The brand properties of the anchors. -/
def emission (anchors : Anchors) : Emission :=
  .join <| anchors.bound.map fun (slot, anchor) =>
    .entry (slot.property anchors.mode)
      { value := .reference anchor.property
        origin := some (.ofInputs [anchor.property])
        binding := some (.theme (slot.documentPath anchors.mode)) }

end Anchors

end Legible
