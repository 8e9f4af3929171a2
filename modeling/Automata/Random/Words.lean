/-!
# Sources of random words

Random choices are made with words of 32 and 64 bits. A source hands them out one by one; how the two
widths share its stream is its own affair.
-/

namespace Automata.Random

/-- A stream of words that can be read in two widths. -/
class WordSource (σ : Type) where
  next32 : σ → BitVec 32 × σ
  next64 : σ → BitVec 64 × σ

/-- The listed words of 64 bits, then zeros without end. -/
structure ListedWords where
  words : List (BitVec 64)

/-- The next word and those after it. -/
def ListedWords.next : ListedWords → BitVec 64 × ListedWords
  | ⟨[]⟩ => (0, ⟨[]⟩)
  | ⟨w :: ws⟩ => (w, ⟨ws⟩)

/-- A word of 32 bits is the low half of the next word. -/
instance : WordSource ListedWords where
  next32 s := (s.next.1.setWidth 32, s.next.2)
  next64 s := s.next

end Automata.Random
