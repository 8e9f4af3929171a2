import Automata.Automaton

/-!
# Command line options

Arguments are read in two steps. First each is matched with an option and its value, which may follow
as the next argument or be attached; then the values are checked and collected. All arguments are
refused together if one is not understood, unless help or the version is asked for before it.
-/

namespace Automata.CommandLine

/-! ### Options by name -/

inductive Name where
  | automaton
  | random
  | seed
  | input
  | samples
  | trace
  | dot
  | json
  | help
  | version
  deriving DecidableEq

/-- The long form of an option, without its dashes. -/
def Name.long : Name → String
  | automaton => "automaton"
  | random => "random"
  | seed => "seed"
  | input => "input"
  | samples => "samples"
  | trace => "trace"
  | dot => "dot"
  | json => "json"
  | help => "help"
  | version => "version"

/-- The letter of an option, if it has one. -/
def Name.letter? : Name → Option Char
  | automaton => some 'a'
  | random => some 'r'
  | input => some 'i'
  | samples => some 's'
  | trace => some 't'
  | help => some 'h'
  | version => some 'V'
  | seed | dot | json => none

def Name.takesValue : Name → Bool
  | automaton | random | seed | input | samples => true
  | trace | dot | json | help | version => false

/-- The options in the order in which they are listed. -/
def Name.all : List Name :=
  [automaton, random, seed, input, samples, trace, dot, json, help, version]

def Name.ofLong? (s : String) : Option Name :=
  Name.all.find? (·.long == s)

def Name.ofLetter? (c : Char) : Option Name :=
  Name.all.find? (·.letter? == some c)

/-! ### Matching arguments -/

/-- An option as it is given, with its value. -/
structure Given where
  name : Name
  value : String

/-- What an argument comes to: options that are complete, and perhaps one whose value follows. What
is not understood is `none`. -/
structure Matched where
  given : List (Option Given)
  open? : Option Name

def Matched.refused : Matched := ⟨[none], none⟩

/-- The part before the first `=`, and the part after it if there is one. -/
def splitAtEquals (cs : List Char) : String × Option String :=
  match cs.span (· != '=') with
  | (before, []) => (String.ofList before, none)
  | (before, _ :: after) => (String.ofList before, some (String.ofList after))

/-- Matches a long option, given without its dashes. -/
def matchLong (cs : List Char) : Matched :=
  let (long, attached) := splitAtEquals cs
  match Name.ofLong? long with
  | none => .refused
  | some name =>
    match name.takesValue, attached with
    | true, some value => ⟨[some ⟨name, value⟩], none⟩
    | true, none => ⟨[], some name⟩
    | false, some _ => .refused
    | false, none => ⟨[some ⟨name, ""⟩], none⟩

/-- The value attached to a letter, which may come after a `=`. -/
def attachedValue : List Char → String
  | '=' :: cs => String.ofList cs
  | cs => String.ofList cs

/-- Matches a row of letters; one with a value takes the rest of the row. -/
def matchLetters : List Char → Matched
  | [] => ⟨[], none⟩
  | c :: cs =>
    match Name.ofLetter? c with
    | none => .refused
    | some name =>
      if name.takesValue then
        if cs.isEmpty then ⟨[], some name⟩ else ⟨[some ⟨name, attachedValue cs⟩], none⟩
      else
        let m := matchLetters cs
        { m with given := some ⟨name, ""⟩ :: m.given }

/-- Whether an argument is an option rather than a value: it starts with a dash and goes on. -/
def isOption (arg : String) : Bool :=
  match arg.toList with
  | '-' :: _ :: _ => true
  | _ => false

/-- Matches one argument. Nothing but options is understood. -/
def matchArgument (arg : String) : Matched :=
  match arg.toList with
  | '-' :: '-' :: cs => matchLong cs
  | '-' :: c :: cs => matchLetters (c :: cs)
  | _ => .refused

/-- Matches all arguments; `pending` is the option whose value is next. Two dashes alone say that no
options follow, so that nothing may. -/
def matchArguments : (pending : Option Name) → List String → List (Option Given)
  | none, [] => []
  | some _, [] => [none]
  | some name, arg :: args =>
    if isOption arg then [none] else some ⟨name, arg⟩ :: matchArguments none args
  | none, arg :: args =>
    if arg = "--" then if args.isEmpty then [] else [none]
    else
      let m := matchArgument arg
      m.given ++ matchArguments m.open? args

/-! ### Values -/

/-- A whole number of 64 bits, perhaps with a plus sign. -/
def number? (value : String) : Option Nat :=
  let digits := match value.toList with
    | '+' :: cs => cs
    | cs => cs
  if digits.isEmpty || !digits.all Char.isDigit then none
  else
    let n := digits.foldl (fun n c => 10 * n + (c.toNat - '0'.toNat)) 0
    if n < UInt64.size then some n else none

/-- A class by the name it has on the command line. -/
def kind? (value : String) : Option Determinism :=
  if value = "dfa" then some .deterministic
  else if value = "nfa" then some .nonDeterministic
  else none

structure Options where
  automaton : Option String
  random : Option Determinism
  seed : Option Nat
  inputs : List String
  samples : Nat
  trace : Bool
  dot : Bool
  json : Bool

def valuesOf (name : Name) (given : List Given) : List String :=
  (given.filter (·.name == name)).map (·.value)

/-- The checked value of an option, which may be given once at most. -/
def single? {α : Type} (check : String → Option α) (name : Name) (given : List Given) :
    Option (Option α) :=
  match valuesOf name given with
  | [] => some none
  | [value] => (check value).map some
  | _ => none

/-- Whether an option without a value is given, which may be so once at most. -/
def flag? (name : Name) (given : List Given) : Option Bool :=
  (single? some name given).map (·.isSome)

/-- The options that are given, if all values are allowed. -/
def Options.collect? (given : List Given) : Option Options := do
  let automaton ← single? some .automaton given
  let random ← single? kind? .random given
  let seed ← single? number? .seed given
  let samples ← single? number? .samples given
  let trace ← flag? .trace given
  let dot ← flag? .dot given
  let json ← flag? .json given
  return { automaton, random, seed, inputs := valuesOf .input given, samples := samples.getD 0,
           trace, dot, json }

/-- An automaton is not both taken from a file and drawn at random. -/
def Options.isConsistent (o : Options) : Bool :=
  !(o.automaton.isSome && o.random.isSome)

/-! ### Requests -/

/-- What arguments ask for. -/
inductive Request where
  | help
  | version
  | session (o : Options)

/-- What matched arguments ask for, after those `before`. Help and the version are told at once, and
what follows does not matter. -/
def Request.ofMatched? (before : List Given) : List (Option Given) → Option Request
  | [] => ((Options.collect? before).filter Options.isConsistent).map .session
  | none :: _ => none
  | some g :: rest =>
    match g.name with
    | .help => (Options.collect? before).map fun _ => .help
    | .version => (Options.collect? before).map fun _ => .version
    | _ => ofMatched? (before ++ [g]) rest

/-- What arguments ask for, if they are understood. -/
def Request.ofArguments? (args : List String) : Option Request :=
  ofMatched? [] (matchArguments none args)

/-! ### Help -/

/-- What an option is for. -/
def Name.description : Name → String
  | automaton =>
    "The automaton specification file (.fa). Read from stdin when omitted and piped"
  | random => "Generate a random automaton instead of reading one [possible values: dfa, nfa]"
  | seed => "Seed for the random generator"
  | input => "A string to test; symbols are single characters"
  | samples => "Also test this many random strings over the alphabet [default: 0]"
  | trace => "Print the active states after each symbol"
  | dot => "Print the automaton as a Graphviz DOT graph and exit"
  | json => "Print a JSON report instead of text"
  | help => "Print help"
  | version => "Print version"

/-- How an option is written, with a sign for its value. -/
def Name.usage (name : Name) : String :=
  (match name.letter? with
    | some c => String.ofList ['-', c, ',', ' ']
    | none => "    ") ++
  "--" ++ name.long ++ (if name.takesValue then " <" ++ name.long.toUpper ++ ">" else "")

/-- The line of an option: its use, and from one column on what it is for. -/
def Name.helpLine (name : Name) : String :=
  "  " ++ String.ofList (name.usage.toList.rightpad 27 ' ') ++ "  " ++ name.description ++ "\n"

def helpText : String :=
  "Command-line interface for the finite automaton simulator\n\n" ++
  "Usage: fas-cli [OPTIONS]\n\n" ++
  "Options:\n" ++ String.join (Name.all.map Name.helpLine) ++
  "\nEXAMPLES:\n" ++
  "  fas-cli -a demos/ends-with-ab.fa -i abab -i aba\n" ++
  "  cat demos/even-zeros.fa | fas-cli -i 0110\n" ++
  "  fas-cli --random nfa --seed 42 --samples 5\n"

def versionText : String := "fas-cli 0.1.0\n"

end Automata.CommandLine
