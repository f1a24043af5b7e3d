import CarrierTransport.Random.WordSource
import CarrierTransport.Random.NormalLayers

/-!
# Normal samples

A layer is drawn and a point in it.  Points inside the next layer are taken at
once, others are accepted with the density, and the lowest layer has a tail of
its own.  Rejected points are drawn again; after `attemptLimit` rejections there
is no sample.
-/

namespace CarrierTransport.Random

variable {α σ : Type} [Scalar α] [WordSource σ]

/-- A number in units of `10 ^ (-18)`. -/
def ofTable (table : Array Nat) (i : Nat) : α :=
  OfScientific.ofScientific (table.getD i 0) true 18

def layerEnd (i : Nat) : α := ofTable layerEnds i

def layerDensity (i : Nat) : α := ofTable layerDensities i

/-- Rejections after which a sample is given up. -/
def attemptLimit : Nat := 1 <<< 62

/-- A sample beyond the first end, on the side of `u`. -/
def normalTail (u : α) : Nat → σ → Option (α × σ)
  | 0, _ => none
  | attempts + 1, source =>
      let start : α := layerEnd 1
      let (a, source) := openUniform source
      let (b, source) := openUniform source
      let x := Scalar.ln a / start
      let y := Scalar.ln b
      if -2.0 * y < x * x then normalTail u attempts source
      else some (if u < 0.0 then x - start else start - x, source)

/-- A sample of the normal distribution of mean zero and width one, within a
number of attempts. -/
def standardNormalWithin : Nat → σ → Option (α × σ)
  | 0, _ => none
  | attempts + 1, source =>
      let (word, source) := WordSource.next source
      let i := (word &&& 0xff).toNat
      let u : α := signedUnitOfWord word
      let x := u * layerEnd i
      if Scalar.abs x < layerEnd (i + 1) then some (x, source)
      else if i == 0 then normalTail u attemptLimit source
      else
        let (v, source) := uniform source
        let height : α := layerDensity (i + 1) +
          (layerDensity i - layerDensity (i + 1)) * v
        if height < Scalar.exp (-x * x / 2.0) then some (x, source)
        else standardNormalWithin attempts source

def standardNormal (source : σ) : Option (α × σ) :=
  standardNormalWithin attemptLimit source

def normal (width : α) (source : σ) : Option (α × σ) :=
  (standardNormal source).map fun (z, source) => (0.0 + width * z, source)

end CarrierTransport.Random
