import Std.Data.TreeSet
import Legible.Issue

/-!
# The guard of fix passes

Two rules keep fix passes from following each other forever. After a pass has begun,
no other begins until the cooldown is over. An issue that survived a pass is
remembered by its fingerprint and not tried again. Times are milliseconds after some
start and are always passed in.
-/

namespace Legible

/-- When the next fix pass may begin, and which issues are not tried again. -/
structure FixGuard where
  cooldown : Nat
  fixingUntil : Option Nat
  unfixable : Std.TreeSet String

namespace FixGuard

/-- The guard before any fix pass. -/
def ofCooldown (cooldown : Nat) : FixGuard := ⟨cooldown, none, ∅⟩

/-- Whether a fix pass is still cooling down. -/
def isFixing (guard : FixGuard) (now : Nat) : Bool :=
  guard.fixingUntil.any fun limit => decide (now < limit)

/-- Begins a fix pass, unless one is cooling down. -/
def begin? (guard : FixGuard) (now : Nat) : Option FixGuard :=
  if guard.isFixing now then none
  else some { guard with fixingUntil := some (now + guard.cooldown) }

/-- Whether an issue may be tried. -/
def isFixable (guard : FixGuard) (issue : Issue) : Bool :=
  !guard.unfixable.contains issue.fingerprint

/-- Remembers that an issue survived a pass. -/
def giveUp (guard : FixGuard) (issue : Issue) : FixGuard :=
  { guard with unfixable := guard.unfixable.insert issue.fingerprint }

/-- Forgets which issues survived. -/
def reset (guard : FixGuard) : FixGuard := { guard with unfixable := ∅ }

/-- The guard with another cooldown for the passes to come. -/
def withCooldown (guard : FixGuard) (cooldown : Nat) : FixGuard := { guard with cooldown }

end FixGuard

end Legible
