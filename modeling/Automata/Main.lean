import Automata.CommandLine.Session

/-!
# The program

Reads what a session needs, runs it, and writes what it comes to.
-/

namespace Automata.CommandLine

/-- The fault that a failed system call means. -/
def faultOf (e : IO.Error) : FileFault :=
  match e with
  | .noFileOrDirectory _ _ _ => .notFound
  | .permissionDenied _ 13 _ => .permissionDenied
  | .inappropriateType _ code _ =>
    if code = 20 then .notADirectory else if code = 21 then .isADirectory else .other (toString e)
  | .invalidArgument _ code _ => if code = 36 then .nameTooLong else .other (toString e)
  | e => .other (toString e)

/-- What a system call comes to. -/
def attemptIO (call : IO ByteArray) : IO (Except FileFault ByteArray) := do
  try
    return .ok (← call)
  catch e => return .error (faultOf e)

/-- The content of a file. -/
def readFile (path : String) : IO (Except FileFault ByteArray) := do
  if path.contains '\x00' then return .error .nulInName
  attemptIO (IO.FS.readBinFile path)

/-- The content of the file that the options name, if it is needed. -/
def readSubject (o : Options) : IO (Except FileFault ByteArray) :=
  match o.random, o.automaton with
  | none, some path => readFile path
  | _, _ => return .error .notFound

/-- The standard input, if it is needed and nobody sits in front of it. -/
def readInput (o : Options) : IO StandardInput := do
  match o.random, o.automaton with
  | none, none =>
    let stdin ← IO.getStdin
    if ← stdin.isTty then return .terminal
    return .piped (← attemptIO stdin.readBinToEnd)
  | _, _ => return .terminal

/-- The number whose lowest bits are the first byte. -/
def numberOf (bytes : List UInt8) : Nat :=
  bytes.foldr (fun byte n => 0x100 * n + byte.toNat) 0

/-- A key that nobody knows. -/
def drawKey : IO (BitVec 256) := do
  return .ofNat 256 (numberOf (← IO.getRandomBytes 32).data.toList)

/-- What arguments come to, with what is needed from the outside. -/
def run (args : List String) : IO Outcome := do
  match Request.ofArguments? args with
  | some (.session o) =>
    let content ← readSubject o
    return invoke args (fun _ => content) (← readInput o) (← drawKey)
  | _ => return invoke args (fun _ => .error .notFound) .terminal 0

end Automata.CommandLine

/-- Runs a session with the given arguments. -/
def main (args : List String) : IO UInt32 := do
  let outcome ← Automata.CommandLine.run args
  (← IO.getStdout).putStr outcome.stdout
  (← IO.getStderr).putStr outcome.stderr
  return outcome.exitCode.toUInt32
