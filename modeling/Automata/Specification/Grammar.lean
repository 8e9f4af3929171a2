import Automata.Specification.Peg

/-!
# The grammar of specifications

A specification has five marked sections. The first four hold one label to a line, the last one holds
transitions `SOURCE:SYMBOL>TARGET,…,TARGET`, where an absent symbol stands for the empty move. Lines
may be blank, and spaces and tabs may stand around every label and mark.
-/

namespace Automata.Specification

/-- The rules of the grammar, in the order in which messages list them. -/
inductive Rule where
  | eoi
  | automaton
  | states
  | initial
  | accepting
  | alphabet
  | transitions
  | stateLine
  | symbolLine
  | transition
  | targets
  | state
  | symbol
  | source
  | label
  | target
  | ident
  | space
  | blank
  | eol
  deriving DecidableEq

def Rule.all : List Rule :=
  [eoi, automaton, states, initial, accepting, alphabet, transitions, stateLine, symbolLine,
   transition, targets, state, symbol, source, label, target, ident, space, blank, eol]

/-- The name of a rule in messages. -/
def Rule.name : Rule → String
  | eoi => "EOI"
  | automaton => "automaton"
  | states => "states"
  | initial => "initial"
  | accepting => "accepting"
  | alphabet => "alphabet"
  | transitions => "transitions"
  | stateLine => "state_line"
  | symbolLine => "symbol_line"
  | transition => "transition"
  | targets => "targets"
  | state => "state"
  | symbol => "symbol"
  | source => "source"
  | label => "label"
  | target => "target"
  | ident => "ident"
  | space => "WS"
  | blank => "blank"
  | eol => "eol"

def Rule.ofName? (name : String) : Option Rule :=
  Rule.all.find? (·.name == name)

namespace Grammar

open Peg (lit optional plus many choice branch token anyChar ahead notAhead)

/-! ### Space and line ends -/

def space : Peg Rule := choice (lit " ") (lit "\t")

def spaces : Peg Rule := many space

/-- One of the three line ends. -/
def newline : Peg Rule := choice (lit "\n") (choice (lit "\r\n") (lit "\r"))

/-- The end of the text, as a rule of its own. -/
def endOfText : Peg Rule := branch .eoi .atEnd

def blank : Peg Rule := spaces ++ newline

/-- What may follow the last token of a line. -/
def eol : Peg Rule := spaces ++ choice newline (ahead endOfText)

/-! ### Labels -/

/-- A character that no label holds. -/
def separator : Peg Rule :=
  choice space (choice newline (choice (lit ":") (choice (lit ">") (lit ","))))

/-- The text of a label: no separator in it and no `#` at its start. -/
def ident : Peg Rule := notAhead (lit "#") ++ plus (notAhead separator ++ anyChar)

def state : Peg Rule := token .state ident
def symbol : Peg Rule := token .symbol ident
def source : Peg Rule := token .source ident
def label : Peg Rule := token .label (optional ident)
def target : Peg Rule := token .target ident

/-! ### Lines -/

def stateLine : Peg Rule := spaces ++ (state ++ eol)
def symbolLine : Peg Rule := spaces ++ (symbol ++ eol)

/-- Targets with commas between them. -/
def targets : Peg Rule :=
  branch .targets (target ++ many (spaces ++ (lit "," ++ (spaces ++ target))))

/-- A line of the last section. -/
def transition : Peg Rule :=
  branch .transition
    (spaces ++ (source ++ (spaces ++ (lit ":" ++ (spaces ++ (label ++ (spaces ++ (lit ">" ++
      (spaces ++ (targets ++ eol))))))))))

/-! ### Sections -/

/-- The body of a section: its marker on a line, then lines of one form among blank lines. -/
def lines (marker : String) (line : Peg Rule) : Peg Rule :=
  lit marker ++ (eol ++ many (choice blank line))

def states : Peg Rule := branch .states (lines "#states" stateLine)
def initial : Peg Rule := branch .initial (lines "#initial" stateLine)
def accepting : Peg Rule := branch .accepting (lines "#accepting" stateLine)
def alphabet : Peg Rule := branch .alphabet (lines "#alphabet" symbolLine)
def transitions : Peg Rule := branch .transitions (lines "#transitions" transition)

/-- A whole specification. -/
def automaton : Peg Rule :=
  branch .automaton
    (many blank ++ (states ++ (initial ++ (accepting ++ (alphabet ++ (transitions ++
      (spaces ++ endOfText)))))))

end Grammar

/-- The expression that a rule stands for. -/
def Rule.expression : Rule → Peg Rule
  | eoi => Grammar.endOfText
  | automaton => Grammar.automaton
  | states => Grammar.states
  | initial => Grammar.initial
  | accepting => Grammar.accepting
  | alphabet => Grammar.alphabet
  | transitions => Grammar.transitions
  | stateLine => Grammar.stateLine
  | symbolLine => Grammar.symbolLine
  | transition => Grammar.transition
  | targets => Grammar.targets
  | state => Grammar.state
  | symbol => Grammar.symbol
  | source => Grammar.source
  | label => Grammar.label
  | target => Grammar.target
  | ident => Grammar.ident
  | space => Grammar.space
  | blank => Grammar.blank
  | eol => Grammar.eol

end Automata.Specification
