import CarrierTransport.Scalar

/-!
# Units

Lengths are in millimetres, times in nanoseconds, potentials in megavolts,
energies in megaelectronvolts and temperatures in kelvin.  Electric fields are
therefore in MV/mm and mobilities in mm²/(MV·ns).  A value of the literature is
multiplied by its unit.
-/

namespace CarrierTransport.Units

variable {α : Type} [Arithmetic α]

def mm : α := 1.0
def cm : α := 10.0 * mm
def um : α := 1e-3 * mm
def nm : α := 1e-6 * mm

def ns : α := 1.0
def ps : α := 1e-3 * ns
def s : α := 1e9 * ns

def megavolt : α := 1.0
def kilovolt : α := 1e-3 * megavolt
def volt : α := 1e-6 * megavolt

def megaelectronvolt : α := 1.0
def electronvolt : α := 1e-6 * megaelectronvolt

def kelvin : α := 1.0

def tesla : α := volt * s / (1e3 * mm * 1e3 * mm)

/-- One per cubic centimetre, for doping concentrations. -/
def perCm3 : α := 1.0 / (cm * cm * cm)

/-- One per square centimetre, for fluences. -/
def perCm2 : α := 1.0 / (cm * cm)

def boltzmann : α := 8.6173333e-5 * electronvolt / kelvin

end CarrierTransport.Units
