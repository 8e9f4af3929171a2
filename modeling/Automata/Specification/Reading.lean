import Automata.Error

/-!
# From text to automaton

A specification is read in steps, and the first that fails decides: its size, its grammar, its
transitions (one for a source and symbol), its soundness.
-/

namespace Automata.Specification

/-! ### From syntax nodes to lists -/

/-- The symbol that the text of a label stands for: an absent one is the empty move. -/
def symbolOf (text : String) : String :=
  if text.isEmpty then epsilon else text

/-- The texts of the parts of a node. -/
def items (n : Node Rule) : List String :=
  n.children.map (·.text)

/-- The transition with one more part of its line taken in. -/
def withPart (t : Transition) (n : Node Rule) : Transition :=
  match n.rule with
  | .source => ⟨n.text, t.symbol, t.targets⟩
  | .label => ⟨t.source, symbolOf n.text, t.targets⟩
  | .targets => ⟨t.source, t.symbol, items n⟩
  | _ => t

/-- The transition of a line. -/
def transitionOf (n : Node Rule) : Transition :=
  n.children.foldl withPart ⟨"", epsilon, []⟩

/-- The automaton with one more section taken in. -/
def withSection (m : Automaton) (n : Node Rule) : Automaton :=
  match n.rule with
  | .states => { m with states := items n }
  | .initial => { m with initial := items n }
  | .accepting => { m with accepting := items n }
  | .alphabet => { m with alphabet := items n }
  | .transitions => { m with transitions := n.children.map transitionOf }
  | _ => m

/-- The automaton that a syntax tree declares. -/
def automatonOf (n : Node Rule) : Automaton :=
  n.children.foldl withSection .empty

/-! ### One transition for a source and symbol -/

/-- The first line whose source and symbol an earlier line has. -/
def firstRepeated : (seen : List (String × String)) → List (Node Rule) → Option (Node Rule)
  | _, [] => none
  | seen, n :: ns =>
    let t := transitionOf n
    if seen.any fun (s, a) => s == t.source && a == t.symbol then some n
    else firstRepeated ((t.source, t.symbol) :: seen) ns

/-- The lines of the transition sections of a syntax tree. -/
def transitionLines (n : Node Rule) : List (Node Rule) :=
  (n.children.filter (·.rule = .transitions)).flatMap (·.children)

/-! ### Reading -/

/-- The syntax nodes that `rule` gives for the start of `text`. -/
def nodesOf (rule : Rule) (text : List Char) : Except Error (List (Node Rule)) :=
  let r := rule.expression.readText text
  match r.outcome with
  | some (_, nodes) => .ok nodes
  | none => .error (.badText (.ofAttempts text r.attempts))

/-- The automaton of a syntax tree, unless two lines have one source and symbol. -/
def declared (text : List Char) (n : Node Rule) : Except Error Automaton :=
  match firstRepeated [] (transitionLines n) with
  | some line =>
    let t := transitionOf line
    .error (.badText (.ofDuplicate text line.span t.source t.symbol))
  | none => .ok (automatonOf n)

/-- The automaton that `text` declares, sound or not. -/
def read (text : List Char) : Except Error Automaton := do
  match ← nodesOf .automaton text with
  | [] => .error .emptySpecification
  | n :: _ => declared text n

/-- The sound automaton that `text` specifies. -/
def parse (text : String) : Except Error Automaton :=
  if maxSpecificationSize < text.utf8ByteSize then .error (.oversized text.utf8ByteSize)
  else do
    let m ← read text.toList
    m.validate
    return m

end Automata.Specification
