import Automata.Specification.Grammar

/-!
# Faults in a specification, shown in place

A fault is shown with the number of its line and column and an excerpt of the text: the line, and a
mark under the place or under the stretch that is at fault. Lines end at line feeds; columns count
characters.
-/

namespace Automata.Specification

/-! ### Places in a text -/

/-- A text cut in two: the characters before the cut, the last one first, and those after it. -/
structure Cut where
  before : List Char
  after : List Char

/-- Moves a cut to the right over characters of `n` bytes in all. -/
def Cut.forward : Nat → Cut → Cut
  | 0, cut => cut
  | n + 1, cut =>
    match cut.after with
    | [] => cut
    | c :: after => Cut.forward (n + 1 - c.utf8Size) ⟨c :: cut.before, after⟩
termination_by n => n
decreasing_by
  have := c.utf8Size_pos
  omega

/-- The cut after the first `offset` bytes of a text. -/
def Cut.atOffset (text : List Char) (offset : Nat) : Cut :=
  Cut.forward offset ⟨[], text⟩

/-- The number of the line that the cut is in, from 1. -/
def Cut.line (cut : Cut) : Nat :=
  cut.before.count '\n' + 1

/-- The part of the line that is before the cut, the last character first. -/
def Cut.lineBefore (cut : Cut) : List Char :=
  cut.before.takeWhile (· != '\n')

/-- The number of the column that the cut is in front of, from 1. -/
def Cut.column (cut : Cut) : Nat :=
  cut.lineBefore.length + 1

/-- The part of the line that is after the cut, with its line feed. -/
def Cut.lineAfter (cut : Cut) : List Char :=
  match cut.after.span (· != '\n') with
  | (l, []) => l
  | (l, c :: _) => l ++ [c]

/-- The column behind the last character before the cut. -/
def Cut.columnAfterLast (cut : Cut) : Nat :=
  match cut.before with
  | [] => 1
  | '\n' :: before => (before.takeWhile (· != '\n')).length + 2
  | _ => cut.column

/-! ### Excerpts -/

/-- Whether `c` can end a line. -/
def isLineEnd (c : Char) : Bool :=
  c == '\n' || c == '\r'

/-- A line as it is shown: with visible line ends if they matter to the fault, else without them. -/
def shownLine (visible : Bool) (line : List Char) : List Char :=
  if visible then line.map fun c => if c = '\n' then '␊' else if c = '\r' then '␍' else c
  else line.filter fun c => !isLineEnd c

/-- A line of the text, with a mark under a part of it. -/
structure Excerpt where
  line : Nat
  column : Nat
  shown : List Char
  mark : List Char

/-- The excerpt for the place `offset`. -/
def Excerpt.atPlace (text : List Char) (offset : Nat) : Excerpt :=
  let cut := Cut.atOffset text offset
  ⟨cut.line, cut.column,
    shownLine (cut.after.head?.any isLineEnd) (cut.lineBefore.reverse ++ cut.lineAfter),
    ['^', '-', '-', '-']⟩

/-- The excerpt for the stretch `span`. -/
def Excerpt.ofSpan (text : List Char) (span : Span) : Excerpt :=
  let cut := Cut.atOffset text span.start
  let stop := cut.forward (span.stop - span.start)
  let visible := decide (span.start < span.stop) &&
    (stop.before.head?.any isLineEnd || cut.after.head?.any isLineEnd)
  let width := stop.columnAfterLast - cut.column
  ⟨cut.line, cut.column, shownLine visible (cut.lineBefore.reverse ++ cut.lineAfter),
    if 1 < width then '^' :: List.replicate (width - 2) '-' ++ ['^'] else ['^']⟩

/-- What precedes the mark: a blank for every character before the column, but tabs are kept. -/
def Excerpt.indent (e : Excerpt) : List Char :=
  (e.shown.take (e.column - 1)).map fun c => if c = '\t' then '\t' else ' '

/-- The excerpt in its frame, with a message below. -/
def Excerpt.render (e : Excerpt) (message : String) : String :=
  let number := toString e.line
  let gap := "".pushn ' ' number.length
  gap ++ "--> " ++ number ++ ":" ++ toString e.column ++ "\n" ++
    gap ++ " |\n" ++
    number ++ " | " ++ String.ofList e.shown ++ "\n" ++
    gap ++ " | " ++ String.ofList (e.indent ++ e.mark) ++ "\n" ++
    gap ++ " |\n" ++
    gap ++ " = " ++ message

/-! ### Faults -/

/-- What is wrong with the text of a specification. -/
inductive Fault where
  /-- None of these rules matches where one of them should. -/
  | expected (rules : List Rule)
  /-- A second transition for the same source and symbol. -/
  | duplicateTransition (source symbol : String)

/-- Names, with commas and an "or". -/
def alternatives : List String → String
  | [] => ""
  | [a] => a
  | [a, b] => a ++ " or " ++ b
  | names => ", ".intercalate names.dropLast ++ ", or " ++ names.getLastD ""

def Fault.message : Fault → String
  | .expected [] => "unknown parsing error"
  | .expected rules => "expected " ++ alternatives (rules.map (·.name))
  | .duplicateTransition source symbol =>
    "Duplicate transition rule: " ++ source ++ ":" ++ symbol

structure Diagnostic where
  fault : Fault
  excerpt : Excerpt

def Diagnostic.message (d : Diagnostic) : String :=
  d.excerpt.render d.fault.message

/-- The diagnostic for attempts in vain: each rule once, in the order of the rules. -/
def Diagnostic.ofAttempts (text : List Char) (a : Attempts Rule) : Diagnostic :=
  ⟨.expected (Rule.all.filter a.rules.contains), .atPlace text a.offset⟩

/-- The diagnostic for the second of two transitions with one source and symbol. -/
def Diagnostic.ofDuplicate (text : List Char) (span : Span) (source symbol : String) :
    Diagnostic :=
  ⟨.duplicateTransition source symbol, .ofSpan text span⟩

end Automata.Specification
