/-!
# Pending changes

What has changed since the last flush: one of the documents, the options, or live
properties.
-/

namespace Legible

/-- Something that can change between two flushes. -/
inductive Change where
  | tokens
  | theme
  | uiKit
  | options
  | live
  deriving DecidableEq, Repr

namespace Change

/-- Every change, in the order in which they are listed. -/
def all : List Change := [.tokens, .theme, .uiKit, .options, .live]

/-- The written form of a change. -/
def text : Change → String
  | .tokens => "TOKENS"
  | .theme => "THEME"
  | .uiKit => "UI_KIT"
  | .options => "OPTIONS"
  | .live => "LIVE"

/-- The change with a written form. -/
def read? (text : String) : Option Change := all.find? fun change => change.text == text

/-- The number that stands for a change in a sum of changes. -/
def bit : Change → Nat
  | .tokens => 1
  | .theme => 2
  | .uiKit => 4
  | .options => 8
  | .live => 16

end Change

/-- A set of changes. -/
structure Pending where
  has : Change → Bool

namespace Pending

/-- Nothing has changed. -/
def empty : Pending := ⟨fun _ => false⟩

/-- One more thing has changed. -/
def insert (pending : Pending) (change : Change) : Pending :=
  ⟨fun other => pending.has other || other == change⟩

/-- A change that was added is pending, and so is everything that was pending before. -/
theorem has_insert (pending : Pending) (change other : Change) :
    (pending.insert change).has other = true ↔ pending.has other = true ∨ other = change := by
  simp [insert]

/-- The changes of a list. -/
def ofList (changes : List Change) : Pending := changes.foldl insert empty

/-- The changes in order. -/
def toList (pending : Pending) : List Change := Change.all.filter pending.has

/-- Whether nothing has changed. -/
def isEmpty (pending : Pending) : Bool := pending.toList.isEmpty

/-- The changes as a sum of bits. -/
def bits (pending : Pending) : Nat := pending.toList.foldl (fun sum change => sum + change.bit) 0

/-- Whether the property map has to be computed again: live changes alone do not ask
for it. -/
def needsRecompute (pending : Pending) : Bool :=
  pending.toList.any fun change => change != .live

end Pending

end Legible
