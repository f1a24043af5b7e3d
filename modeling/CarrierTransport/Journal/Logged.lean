import CarrierTransport.Journal.Notice

/-!
# Keeping a journal

A journal keeps the notices that are grave enough, in order.  A calculation that
keeps one has it also when it fails.
-/

namespace CarrierTransport

structure Journal (α : Type) where
  /-- The least grave level that is kept; nothing is kept without one. -/
  threshold : Option Level
  notices : Array (Notice α)

namespace Journal

variable {α : Type}

def start (threshold : Option Level) : Journal α := ⟨threshold, #[]⟩

def keeps (j : Journal α) (level : Level) : Bool :=
  match j.threshold with
  | none => false
  | some threshold => level.depth ≤ threshold.depth

def record (j : Journal α) (notice : Notice α) : Journal α :=
  if j.keeps notice.level then { j with notices := j.notices.push notice }
  else j

end Journal

/-- Calculations that keep a journal of numbers in `α` and may fail with an
`ε`. -/
abbrev Logged (α ε : Type) := ExceptT ε (StateM (Journal α))

namespace Logged

variable {α ε β : Type}

def log (notice : Notice α) : Logged α ε Unit :=
  modify (·.record notice)

def ofExcept (result : Except ε β) : Logged α ε β :=
  match result with
  | .ok value => pure value
  | .error failure => throw failure

/-- The result and the journal, from an empty one. -/
def runFrom (threshold : Option Level) (action : Logged α ε β) :
    Except ε β × Journal α :=
  StateT.run (ExceptT.run action) (.start threshold)

end Logged

end CarrierTransport
