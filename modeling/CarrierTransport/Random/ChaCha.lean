import CarrierTransport.Random.WordSource

/-!
# The ChaCha8 generator

A key and a stream number give a sequence of 32-bit words, sixteen to a block;
blocks are numbered from zero.  A 64-bit word is two successive words, the lower
half first.  Each event draws from the stream of its own number.
-/

namespace CarrierTransport

/-- The words of a block, of its key and of its input. -/
abbrev ChaChaBlock := Vector UInt32 16

namespace ChaChaBlock

def rotateLeft (x : UInt32) (k : UInt32) : UInt32 :=
  (x <<< k) ||| (x >>> (32 - k))

def quarterRound (b : ChaChaBlock) (i j k l : Fin 16) : ChaChaBlock :=
  let a0 := b[i] + b[j]
  let d0 := rotateLeft (b[l] ^^^ a0) 16
  let c0 := b[k] + d0
  let b0 := rotateLeft (b[j] ^^^ c0) 12
  let a1 := a0 + b0
  let d1 := rotateLeft (d0 ^^^ a1) 8
  let c1 := c0 + d1
  let b1 := rotateLeft (b0 ^^^ c1) 7
  (((b.set i a1).set j b1).set k c1).set l d1

def doubleRound (b : ChaChaBlock) : ChaChaBlock :=
  let columns :=
    (((b.quarterRound 0 4 8 12).quarterRound 1 5 9 13).quarterRound
      2 6 10 14).quarterRound 3 7 11 15
  (((columns.quarterRound 0 5 10 15).quarterRound 1 6 11 12).quarterRound
    2 7 8 13).quarterRound 3 4 9 14

/-- The block of an input: eight rounds, with the input added at the end. -/
def ofInput (input : ChaChaBlock) : ChaChaBlock :=
  let mixed :=
    input.doubleRound.doubleRound.doubleRound.doubleRound
  mixed.zipWith (· + ·) input

end ChaChaBlock

/-- A generator in the middle of a block: the words not yet used and the number
of the next block. -/
structure ChaCha8 where
  key : Vector UInt32 8
  stream : UInt64
  block : UInt64
  unread : List UInt32

namespace ChaCha8

/-- The input of a block: four constants, the key, the number of the block and
the number of the stream. -/
def input (key : Vector UInt32 8) (stream block : UInt64) : ChaChaBlock :=
  #v[0x61707865, 0x3320646e, 0x79622d32, 0x6b206574,
    key[0], key[1], key[2], key[3], key[4], key[5], key[6], key[7],
    block.toUInt32, (block >>> 32).toUInt32,
    stream.toUInt32, (stream >>> 32).toUInt32]

/-- The successor in the sequence that expands a seed. -/
def seedNext (state : UInt64) : UInt64 :=
  state * 6364136223846793005 + 11634580027462260723

/-- The key word of a state of the sequence that expands a seed. -/
def keyWord (state : UInt64) : UInt32 :=
  let mixed := (((state >>> 18) ^^^ state) >>> 27).toUInt32
  let turn := (state >>> 59).toUInt32
  (mixed >>> turn) ||| (mixed <<< ((32 - turn) % 32))

def keyOfSeed (seed : UInt64) : Vector UInt32 8 :=
  let s0 := seedNext seed
  let s1 := seedNext s0
  let s2 := seedNext s1
  let s3 := seedNext s2
  let s4 := seedNext s3
  let s5 := seedNext s4
  let s6 := seedNext s5
  let s7 := seedNext s6
  #v[keyWord s0, keyWord s1, keyWord s2, keyWord s3,
    keyWord s4, keyWord s5, keyWord s6, keyWord s7]

def ofSeed (seed stream : UInt64) : ChaCha8 := ⟨keyOfSeed seed, stream, 0, []⟩

def next32 (g : ChaCha8) : UInt32 × ChaCha8 :=
  match g.unread with
  | word :: rest => (word, { g with unread := rest })
  | [] =>
      let words := ChaChaBlock.ofInput (input g.key g.stream g.block)
      (words[0], { g with
        block := g.block + 1
        unread := words.toList.drop 1 })

instance : WordSource ChaCha8 where
  next g :=
    let (low, g) := g.next32
    let (high, g) := g.next32
    (low.toUInt64 ||| (high.toUInt64 <<< 32), g)

end ChaCha8

end CarrierTransport
