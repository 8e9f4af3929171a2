import Automata.Random.Words

/-!
# Drawing numbers

A number up to `max` is drawn by scaling a word: it is the high half of the product of the word and
`max + 1`. Words whose low half is too large are refused, so that all numbers are equally likely, and
another word is drawn. As a source may hand out such words for ever, a draw takes no more than
`patience` of them; then it is zero.
-/

namespace Automata.Random

/-- A computation that draws from a source. -/
abbrev Draw (σ α : Type) := StateM σ α

/-- How many words a draw may refuse. -/
def patience : Nat := UInt64.size

/-- The low halves below this bound are accepted: `n`, shifted as far left as `bits` bits allow. -/
def zone (bits n : Nat) : Nat :=
  n <<< (bits - 1 - n.log2)

/-- The number up to `max` that a word stands for. -/
def scale {bits : Nat} (max : Nat) (word : BitVec bits) : Fin (max + 1) :=
  ⟨(word.toNat * (max + 1)) >>> bits, by
    rw [Nat.shiftRight_eq_div_pow]
    exact Nat.div_lt_of_lt_mul ((Nat.mul_lt_mul_right max.succ_pos).2 word.isLt)⟩

/-- Whether a word may stand for a number up to `max`. -/
def isAccepted {bits : Nat} (max : Nat) (word : BitVec bits) : Bool :=
  decide ((word * .ofNat bits (max + 1)).toNat < zone bits (max + 1))

/-- Takes words with `next` until one is accepted, at most `tries` of them. -/
def settle {σ : Type} {bits : Nat} (next : σ → BitVec bits × σ) (max : Nat) :
    (tries : Nat) → Draw σ (Fin (max + 1))
  | 0, s => (0, s)
  | tries + 1, s =>
    let (word, s) := next s
    if isAccepted max word then (scale max word, s) else settle next max tries s

variable {σ : Type} [WordSource σ]

/-- Draws a number up to `max` with words of 64 bits. -/
def upTo64 (max : Nat) : Draw σ (Fin (max + 1)) :=
  settle WordSource.next64 max patience

/-- Draws a number up to `max` with words of 32 bits. -/
def upTo32 (max : Nat) : Draw σ (Fin (max + 1)) :=
  settle WordSource.next32 max patience

/-- Draws a number from `low` to `high`. -/
def between (low high : Nat) : Draw σ Nat := do
  return low + (← upTo64 (high - low)).val

/-- Draws one of the entries `x :: l`. -/
def choose {α : Type} (x : α) (l : List α) : Draw σ α := do
  return (x :: l).get (← upTo32 l.length)

/-- Takes in a number up to `j`: the one drawn, or `j` if that one is in already. -/
def chooseFurther (chosen : List Nat) (j : Nat) : Draw σ (List Nat) := do
  let t ← upTo32 j
  return (if chosen.contains t.val then j else t.val) :: chosen

/-- Draws `amount` distinct numbers below `bound`, but no more than there are, in ascending order. -/
def distinct (bound amount : Nat) : Draw σ (List Nat) := do
  let amount := min amount bound
  let chosen ← (List.range' (bound - amount) amount).foldlM chooseFurther []
  return (List.range bound).filter chosen.contains

end Automata.Random
