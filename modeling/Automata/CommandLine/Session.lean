import Automata.CommandLine.Options
import Automata.CommandLine.Report
import Automata.Dot
import Automata.Files.Catalogue
import Automata.Random.ChaCha
import Automata.Random.Sample
import Automata.Specification.Writing

/-!
# A session at the command line

A session gets hold of an automaton, then draws it or puts queries to it: the given inputs, and after
them random ones. It prints as it goes, and what is printed stays even if the session is stopped. All
this is a function of the options, the files, the standard input, a source of random words, and the
room that there is in memory. Only printing is taken to succeed.
-/

namespace Automata.CommandLine

/-! ### Printing and stopping -/

/-- Why a session fails. -/
inductive Failure where
  /-- There is nothing to get an automaton from. -/
  | noInput
  /-- The standard input cannot be read. -/
  | unreadableInput (fault : FileFault)
  | error (cause : Error)

def Failure.message : Failure → String
  | .noInput =>
    "No automaton given: pass --automaton FILE, pipe one on stdin, or use --random"
  | .unreadableInput fault => fault.message
  | .error cause => cause.message

/-- Why a session ends before its work is done. -/
inductive Stop where
  | failure (cause : Failure)
  /-- A list is asked for that no memory could hold. -/
  | overflow
  /-- There is no room in memory. -/
  | noRoom

/-- Work that prints as it goes and may be stopped. -/
abbrev Session := ExceptT Stop (StateM String)

namespace Session

def print (text : String) : Session Unit :=
  modify (· ++ text)

def stop {α : Type} (s : Stop) : Session α :=
  throw s

/-- Goes on with a value, if there is one. -/
def attempt {α : Type} : Except Failure α → Session α
  | .ok a => pure a
  | .error f => stop (.failure f)

/-- Makes room for `count` entries of a list that can have `limit` of them. -/
def reserve (limit room count : Nat) : Session Unit :=
  if limit < count then stop .overflow
  else if room < count then stop .noRoom
  else pure ()

end Session

open Session

/-! ### The automaton -/

/-- The standard input. -/
inductive StandardInput where
  /-- Someone sits in front of it, so nothing is read. -/
  | terminal
  /-- What reading it comes to. -/
  | piped (content : Except FileFault ByteArray)

instance : Coe ByteArray StandardInput := ⟨fun content => .piped (.ok content)⟩

def loadInput : StandardInput → Except Failure Automaton
  | .terminal => .error .noInput
  | .piped (.error fault) => .error (.unreadableInput fault)
  | .piped (.ok bytes) =>
    match String.fromUTF8? bytes with
    | none => .error (.unreadableInput .notUtf8)
    | some text => (Specification.parse text).mapError .error

variable {σ : Type} [Random.WordSource σ]

/-- The automaton of a session and the source as it is then: drawn at random, from a file, or from the
standard input. -/
def load (o : Options) (read : String → Except FileFault ByteArray) (stdin : StandardInput)
    (source : σ) : Except Failure (Automaton × σ) :=
  match o.random, o.automaton with
  | some kind, _ => .ok (Random.randomAutomaton kind source)
  | none, some path =>
    ((Files.loadContent path (read path)).mapError .error).map fun m => (m, source)
  | none, none => (loadInput stdin).map fun m => (m, source)

/-- What precedes the rest of the output: a random automaton, unless only a drawing or JSON is asked
for. -/
def preface (o : Options) (m : Automaton) : String :=
  if o.random.isSome && !o.json && !o.dot then Specification.encode m ++ "\n\n" else ""

/-! ### Queries -/

/-- The number of texts that a list may be made for. -/
def maxInputs : Nat := 384307168202282325

/-- The number of queries that a list may be made for. -/
def maxQueries : Nat := 288230376151711743

/-- The number of inputs: of those that are given, and of the random ones. -/
def inputCount (o : Options) : Nat :=
  o.inputs.length + o.samples

/-- The inputs of a session: the given ones, then as many random ones as are asked for. -/
def inputs (o : Options) (m : Automaton) (source : σ) : List String :=
  o.inputs ++ ((List.range o.samples).mapM (fun _ => Random.randomInput m.alphabet) source).1

/-- Puts a query. Its trace comes before the answer. -/
def ask (o : Options) (s : Simulator) (input : String) : Session Query := do
  if o.trace && !o.json then print (showTrace s input)
  return ⟨input, ← attempt ((s.acceptsText input).mapError .error)⟩

/-- Puts all queries to `m`, if there is room for them. -/
def report (o : Options) (m : Automaton) (source : σ) (room : Nat) : Session Report := do
  let s ← attempt ((Simulator.ofAutomaton m).mapError .error)
  reserve maxInputs room (inputCount o)
  let inputs := inputs o m source
  reserve maxQueries room inputs.length
  return ⟨s.determinism, m.unreachable, ← inputs.mapM (ask o s)⟩

/-! ### Sessions -/

/-- A session with options; there is room for `room` queries. -/
def session (o : Options) (read : String → Except FileFault ByteArray) (stdin : StandardInput)
    (source : σ) (room : Nat) : Session Unit := do
  let (m, source) ← attempt (load o read stdin source)
  print (preface o m)
  if o.dot then
    let drawing ← attempt (m.toDot.mapError .error)
    print (drawing ++ "\n")
  else
    let r ← report o m source room
    print (if o.json then r.toJson.pretty ++ "\n" else r.render)

/-! ### Outcomes -/

/-- How an invocation ends. -/
inductive Outcome where
  /-- The arguments were not understood. -/
  | usage
  /-- Only a text was asked for. -/
  | told (text : String)
  /-- A session was held, and was perhaps stopped after some of the output. -/
  | held (stop? : Option Stop) (printed : String)

def Outcome.ofResult : Except Stop Unit × String → Outcome
  | (.ok _, printed) => .held none printed
  | (.error s, printed) => .held (some s) printed

/-- The exit code; a session without room is ended from outside. -/
def Stop.exitCode : Stop → Nat
  | .failure _ => 1
  | .overflow => 101
  | .noRoom => 134

/-- What is said of a stop; where memory is concerned, not in the words of the system. -/
def Stop.message : Stop → String
  | .failure f => "Error: " ++ f.message ++ "\n"
  | .overflow => "capacity overflow\n"
  | .noRoom => "memory allocation failed\n"

def Outcome.exitCode : Outcome → Nat
  | .usage => 2
  | .told _ => 0
  | .held stop? _ => stop?.elim 0 Stop.exitCode

def Outcome.stdout : Outcome → String
  | .usage => ""
  | .told text => text
  | .held _ printed => printed

def Outcome.stderr : Outcome → String
  | .usage => "The arguments are not understood.\n"
  | .told _ => ""
  | .held stop? _ => stop?.elim "" Stop.message

/-- The source of random words: that of the seed, or else that of a key from outside. -/
def sourceOf (o : Options) (entropy : BitVec 256) : Random.KeyStream :=
  match o.seed with
  | some seed => .ofSeed (.ofNat 64 seed)
  | none => .ofKey entropy

/-- What arguments come to. -/
def invoke (args : List String) (read : String → Except FileFault ByteArray)
    (stdin : StandardInput) (entropy : BitVec 256) (room : Nat := maxQueries) : Outcome :=
  match Request.ofArguments? args with
  | none => .usage
  | some .help => .told helpText
  | some .version => .told versionText
  | some (.session o) =>
    .ofResult ((session o read stdin (sourceOf o entropy) room).run.run "")

end Automata.CommandLine
