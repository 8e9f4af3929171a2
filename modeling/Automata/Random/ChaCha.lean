import Automata.Random.Words

/-!
# The ChaCha key stream

ChaCha turns a key and a block number into sixteen words, by rounds of additions, exclusive ors and
rotations on four rows of four words. Twelve rounds are used here, with an all-zero nonce, and the key
is expanded from a seed of 64 bits by a congruential generator.
-/

namespace Automata.Random

/-- Four words. -/
structure Row where
  a : BitVec 32
  b : BitVec 32
  c : BitVec 32
  d : BitVec 32
  deriving DecidableEq

namespace Row

/-- Combines two rows word by word. -/
def zipWith (f : BitVec 32 → BitVec 32 → BitVec 32) (x y : Row) : Row :=
  ⟨f x.a y.a, f x.b y.b, f x.c y.c, f x.d y.d⟩

/-- The sums of two rows. -/
def add : Row → Row → Row := zipWith (· + ·)

/-- The exclusive or of two rows, each word turned left by `n` bits. -/
def mix (n : Nat) : Row → Row → Row := zipWith fun x y => (x ^^^ y).rotateLeft n

/-- The row moved left by one place. -/
def shift (x : Row) : Row := ⟨x.b, x.c, x.d, x.a⟩

/-- The words of a row. -/
def toList (x : Row) : List (BitVec 32) := [x.a, x.b, x.c, x.d]

end Row

/-- Four rows. -/
structure Block where
  a : Row
  b : Row
  c : Row
  d : Row
  deriving DecidableEq

namespace Block

/-- Half a round on the columns, with the two rotations it uses. -/
def halfRound (m n : Nat) (x : Block) : Block :=
  let a := x.a.add x.b
  let d := x.d.mix m a
  let c := x.c.add d
  ⟨a, x.b.mix n c, c, d⟩

/-- A round on the columns. -/
def columnRound (x : Block) : Block :=
  (x.halfRound 16 12).halfRound 8 7

/-- Turns the diagonals into columns. -/
def skew (x : Block) : Block :=
  ⟨x.a, x.b.shift, x.c.shift.shift, x.d.shift.shift.shift⟩

/-- Turns the columns back into diagonals. -/
def unskew (x : Block) : Block :=
  ⟨x.a, x.b.shift.shift.shift, x.c.shift.shift, x.d.shift⟩

/-- A round on the columns and one on the diagonals. -/
def doubleRound (x : Block) : Block :=
  x.columnRound.skew.columnRound.unskew

/-- The sums of two blocks. -/
def add (x y : Block) : Block :=
  ⟨x.a.add y.a, x.b.add y.b, x.c.add y.c, x.d.add y.d⟩

/-- The words of a block, row by row. -/
def toList (x : Block) : List (BitVec 32) :=
  x.a.toList ++ x.b.toList ++ x.c.toList ++ x.d.toList

/-- The number of double rounds. -/
def doubleRounds : Nat := 6

/-- The rounds, and then the block itself added. -/
def scramble (x : Block) : Block :=
  (Nat.repeat doubleRound doubleRounds x).add x

end Block

/-- The key stream: its key, the number of the next block, and the words left of the last one. -/
structure KeyStream where
  keyLow : Row
  keyHigh : Row
  number : BitVec 64
  pending : List (BitVec 32)

namespace KeyStream

/-- The words of the next block. -/
def blockWords (s : KeyStream) : List (BitVec 32) :=
  (Block.scramble
    ⟨⟨0x61707865, 0x3320646e, 0x79622d32, 0x6b206574⟩, s.keyLow, s.keyHigh,
      ⟨s.number.setWidth 32, (s.number >>> 32).setWidth 32, 0, 0⟩⟩).toList

/-- The next word. -/
def next (s : KeyStream) : BitVec 32 × KeyStream :=
  match s.pending with
  | w :: ws => (w, { s with pending := ws })
  | [] =>
    let s' := { s with number := s.number + 1 }
    match s.blockWords with
    | w :: ws => (w, { s' with pending := ws })
    | [] => (0, s')

/-- A word of 64 bits is made of two, the low one first. -/
instance : WordSource KeyStream where
  next32 := next
  next64 s :=
    let (low, s) := s.next
    let (high, s) := s.next
    (high ++ low, s)

/-! ### Keys -/

/-- One step of the congruential generator. -/
def stepSeed (seed : BitVec 64) : BitVec 64 :=
  seed * 6364136223846793005 + 11634580027462260723

/-- The key word that a state of the generator gives. -/
def keyWord (seed : BitVec 64) : BitVec 32 :=
  ((((seed >>> 18) ^^^ seed) >>> 27).setWidth 32).rotateRight (seed >>> 59).toNat

/-- Four key words, and the state behind them. -/
def keyRow (seed : BitVec 64) : Row × BitVec 64 :=
  let s₁ := stepSeed seed
  let s₂ := stepSeed s₁
  let s₃ := stepSeed s₂
  let s₄ := stepSeed s₃
  (⟨keyWord s₁, keyWord s₂, keyWord s₃, keyWord s₄⟩, s₄)

/-- The key stream of a seed, from its start. -/
def ofSeed (seed : BitVec 64) : KeyStream :=
  let (low, seed) := keyRow seed
  let (high, _) := keyRow seed
  ⟨low, high, 0, []⟩

/-- A word of a key; the lowest bits are the first word. -/
def wordOf (key : BitVec 256) (i : Nat) : BitVec 32 :=
  (key >>> (32 * i)).setWidth 32

/-- The key stream of a key, from its start. -/
def ofKey (key : BitVec 256) : KeyStream :=
  ⟨⟨wordOf key 0, wordOf key 1, wordOf key 2, wordOf key 3⟩,
    ⟨wordOf key 4, wordOf key 5, wordOf key 6, wordOf key 7⟩, 0, []⟩

end KeyStream

end Automata.Random
