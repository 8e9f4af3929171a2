import Automata.Text.Display

/-!
# Paths

A path is a row of bytes that need not be text. Slashes part it into names. Paths are ordered name by
name, so that a directory comes before all that is in it.
-/

namespace Automata.Files

/-- What an entry of a directory is called there. -/
abbrev FileName := List UInt8

def FileName.ofText (text : String) : FileName :=
  text.toByteArray.data.toList

def slash : UInt8 := 0x2f

def dot : UInt8 := 0x2e

/-- What follows the last dot of a name, unless the name has no other dot than one at its start. -/
def extension? (name : FileName) : Option FileName :=
  match name.reverse.span (· != dot) with
  | (ext, _ :: _ :: _) => some ext.reverse
  | _ => none

structure Path where
  bytes : List UInt8
  deriving DecidableEq

namespace Path

def ofText (text : String) : Path :=
  ⟨FileName.ofText text⟩

instance : Coe String Path := ⟨ofText⟩

/-- The path as it is shown in messages. -/
def display (p : Path) : String :=
  Text.ofBytes p.bytes

/-- The path of an entry of a directory. -/
def join (directory : Path) (name : FileName) : Path :=
  if directory.bytes = [] ∨ directory.bytes.getLast? = some slash then ⟨directory.bytes ++ name⟩
  else ⟨directory.bytes ++ slash :: name⟩

/-- What is between the slashes. -/
def parts (p : Path) : List FileName :=
  p.bytes.splitOn slash

def isAbsolute (p : Path) : Bool :=
  p.bytes.head? == some slash

/-! ### Order -/

/-- What the start of a path counts for in the order: the top of the file system is before a dot, and
both are before any other start. -/
def startKey (p : Path) : List (List Nat) :=
  if p.isAbsolute then [[0]]
  else if p.parts.head? = some [dot] then [[1]]
  else []

/-- What a part counts for in the order: two dots are before all names. -/
def partKey (part : FileName) : List Nat :=
  if part = [dot, dot] then [2] else 3 :: part.map UInt8.toNat

/-- What paths are ordered by. Empty parts do not count, and dots only at the start. -/
def key (p : Path) : List (List Nat) :=
  p.startKey ++ (p.parts.filter fun part => part != [] && part != [dot]).map partKey

instance : Ord Path := ⟨compareOn key⟩

end Path

end Automata.Files
