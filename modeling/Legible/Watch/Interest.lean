import Legible.Live.Registry
import Legible.Property.Map
import Legible.Theme.CoreColor
import Legible.Theme.LayerId

/-!
# Watched properties

Someone can ask that a palette, a surface, a core color or a single property be
watched. A watch names a concept and is expanded against the current map each time.
For every watched property the live text seen last is the baseline against which a
change shows.
-/

namespace Legible

open Property

/-- Something to be watched. -/
inductive WatchTarget where
  /-- Every tone of a palette. -/
  | palette (mode : Mode) (key : String)
  | surface (mode : Mode) (layer : LayerId)
  | core (mode : Mode) (slot : CoreSlot)
  | property (name : Name)
  deriving DecidableEq, Repr

namespace WatchTarget

/-- The properties that a target covers in a map. -/
def expand (map : PropertyMap) : WatchTarget → List Name
  | .palette mode key => map.tones mode key
  | .surface mode layer => [layer.surface mode]
  | .core mode slot => [slot.property mode]
  | .property name => [name]

end WatchTarget

/-- The targets with the live texts that were seen last. -/
structure Interest where
  targets : List WatchTarget
  baselines : Std.TreeMap Name (Option String)

namespace Interest

/-- Nothing is watched. -/
def empty : Interest := ⟨[], ∅⟩

/-- Adds a target; also says whether it is new. -/
def insert (interest : Interest) (target : WatchTarget) : Interest × Bool :=
  if target ∈ interest.targets then (interest, false)
  else ({ interest with targets := interest.targets ++ [target] }, true)

/-- Takes a target away; also says whether it was there. -/
def erase (interest : Interest) (target : WatchTarget) : Interest × Bool :=
  ({ interest with targets := interest.targets.erase target }, decide (target ∈ interest.targets))

/-- The properties that the targets cover in a map. -/
def names (interest : Interest) (map : PropertyMap) : Std.TreeSet Name :=
  Std.TreeSet.ofList (interest.targets.flatMap (WatchTarget.expand map))

/-- The live text seen last: none when the property was never looked at. -/
def baseline? (interest : Interest) (name : Name) : Option (Option String) :=
  interest.baselines[name]?

/-- The watched properties whose live text is not the one seen last. A property
without a baseline has not changed. -/
def changed (interest : Interest) (map : PropertyMap) (registry : Registry) : List Name :=
  (interest.names map).toList.filter fun name =>
    (interest.baseline? name).any fun last => last != registry.get? name

/-- Takes the live texts of some properties as their baselines. -/
def remember (interest : Interest) (registry : Registry) (names : List Name) : Interest :=
  { interest with
    baselines := names.foldl (fun kept name => kept.insert name (registry.get? name))
      interest.baselines }

/-- Takes the live texts of all watched properties as their baselines. -/
def record (interest : Interest) (map : PropertyMap) (registry : Registry) : Interest :=
  interest.remember registry (interest.names map).toList

end Interest

end Legible
