import CarrierTransport.Scalar

/-!
# Random words and uniform numbers

Every random number is made from 64-bit words, so a run is a function of its
stream of words.
-/

namespace CarrierTransport

class WordSource (σ : Type) where
  next : σ → UInt64 × σ

namespace Random

variable {α σ : Type} [Scalar α] [WordSource σ]

/-- `2 ^ 53`, the number of values of a uniform draw. -/
def unitSteps : α := 9007199254740992.0

/-- `2 ^ 51`, the number of steps between one and two doubled. -/
def signedSteps : α := 2251799813685248.0

/-- A number in `[0, 1)` from the upper 53 bits of a word. -/
def unitOfWord (word : UInt64) : α :=
  Scalar.ofNat (word >>> 11).toNat / unitSteps

/-- A number in `(0, 1)` from the upper 52 bits of a word: the middle of a
step. -/
def openUnitOfWord (word : UInt64) : α :=
  Scalar.ofNat (2 * (word >>> 12).toNat + 1) / unitSteps

/-- A number in `[-1, 1)` from the upper 52 bits of a word. -/
def signedUnitOfWord (word : UInt64) : α :=
  Scalar.ofNat (word >>> 12).toNat / signedSteps - 1.0

def uniform (source : σ) : α × σ :=
  let (word, source) := WordSource.next source
  (unitOfWord word, source)

def openUniform (source : σ) : α × σ :=
  let (word, source) := WordSource.next source
  (openUnitOfWord word, source)

end Random

/-- A list of words repeated for ever; the empty list gives zeros. -/
structure CyclicWords where
  words : Array UInt64
  position : Nat

namespace CyclicWords

def ofArray (words : Array UInt64) : CyclicWords := ⟨words, 0⟩

instance : WordSource CyclicWords where
  next source :=
    (source.words.getD source.position 0,
      { source with position := (source.position + 1) % source.words.size })

end CyclicWords

end CarrierTransport
