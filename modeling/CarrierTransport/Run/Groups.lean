/-!
# Charge groups

The carriers of a deposit travel in groups of equal size, the last of which may
be smaller.  When the groups would be too many, they are made larger.
-/

namespace CarrierTransport

def ceilDiv (a b : UInt32) : UInt32 :=
  a / b + if a % b = 0 then 0 else 1

structure GroupPlan where
  size : UInt32
  /-- Whether the groups were made larger because they were too many. -/
  coarsened : Bool
  deriving DecidableEq, Repr

/-- Groups of `perStep` carriers, unless a limit that is not zero asks for
larger ones. -/
def GroupPlan.ofCharge (charge perStep limit : UInt32) : GroupPlan :=
  let perStep := max perStep 1
  if 0 < limit ∧ limit < ceilDiv charge perStep then
    ⟨ceilDiv charge limit, true⟩
  else ⟨perStep, false⟩

structure ChargeGroups where
  remaining : UInt32
  size : UInt32
  deriving DecidableEq, Repr

namespace ChargeGroups

/-- All the groups of a deposit; a size of zero counts as one. -/
def ofPlan (charge : UInt32) (plan : GroupPlan) : ChargeGroups :=
  ⟨charge, max plan.size 1⟩

def next? (g : ChargeGroups) : Option (UInt32 × ChargeGroups) :=
  if g.remaining = 0 then none
  else
    let group := min g.size g.remaining
    some (group, { g with remaining := g.remaining - group })

def length (g : ChargeGroups) : UInt32 := ceilDiv g.remaining g.size

/-- The sizes of the groups, equal sizes counted together: full groups, then
what is left. -/
def runs (g : ChargeGroups) : List (UInt32 × Nat) :=
  let full := g.remaining / g.size
  let rest := g.remaining % g.size
  (if full = 0 then [] else [(g.size, full.toNat)]) ++
    (if rest = 0 then [] else [(rest, 1)])

def toList (g : ChargeGroups) : List UInt32 :=
  g.runs.flatMap fun (size, count) => List.replicate count size

end ChargeGroups

end CarrierTransport
