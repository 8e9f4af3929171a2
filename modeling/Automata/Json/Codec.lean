import Automata.Automaton
import Automata.Graph
import Automata.Json.Value

/-!
# Automata and graphs as JSON values

A record is written as an object with its fields in order. It is read from an object that has every
field once and may have others, or from an array of exactly the fields.
-/

namespace Automata

/-- How values of a type are written as JSON values and read back. -/
class JsonCodec (α : Type) where
  encode : α → Json
  decode? : Json → Option α

namespace JsonCodec

/-! ### Records -/

/-- The object of a record. -/
def ofFields (fields : List (String × Json)) : Json :=
  .object (fields.map fun (name, v) => (some name, v))

/-- The one value of a key. -/
def fieldOf? (members : List (Option String × Json)) (name : String) : Option Json :=
  match members.filter (·.1 == some name) with
  | [(_, v)] => some v
  | _ => none

/-- The values of the fields of a record. -/
def fieldsOf? (names : List String) : Json → Option (List Json)
  | .array items => if items.length = names.length then some items else none
  | .object members =>
    if members.all (·.1.isSome) then names.mapM (fieldOf? members) else none
  | _ => none

/-! ### Texts and lists -/

instance : JsonCodec String where
  encode := .ofString
  decode?
    | .string t => t
    | _ => none

instance {α : Type} [JsonCodec α] : JsonCodec (List α) where
  encode l := .array (l.map encode)
  decode?
    | .array items => items.mapM decode?
    | _ => none

/-! ### Automata -/

instance : JsonCodec Determinism where
  encode d := .ofString d.name
  decode?
    | .string (some "Deterministic") => some .deterministic
    | .string (some "NonDeterministic") => some .nonDeterministic
    | .object [(some "Deterministic", .null)] => some .deterministic
    | .object [(some "NonDeterministic", .null)] => some .nonDeterministic
    | _ => none

instance : JsonCodec Transition where
  encode t :=
    ofFields [("source", encode t.source), ("symbol", encode t.symbol),
      ("targets", encode t.targets)]
  decode? j := do
    match ← fieldsOf? ["source", "symbol", "targets"] j with
    | [source, symbol, targets] =>
      return ⟨← decode? source, ← decode? symbol, ← decode? targets⟩
    | _ => none

instance : JsonCodec Automaton where
  encode m :=
    ofFields [("states", encode m.states), ("initial", encode m.initial),
      ("accepting", encode m.accepting), ("alphabet", encode m.alphabet),
      ("transitions", encode m.transitions)]
  decode? j := do
    match ← fieldsOf? ["states", "initial", "accepting", "alphabet", "transitions"] j with
    | [states, initial, accepting, alphabet, transitions] =>
      return ⟨← decode? states, ← decode? initial, ← decode? accepting, ← decode? alphabet,
        ← decode? transitions⟩
    | _ => none

/-! ### Graphs -/

instance : JsonCodec Edge where
  encode e := ofFields [("destination", encode e.destination), ("weight", encode e.weight)]
  decode? j := do
    match ← fieldsOf? ["destination", "weight"] j with
    | [destination, weight] => return ⟨← decode? destination, ← decode? weight⟩
    | _ => none

/-- Takes in one member of an adjacency object; a key that is there keeps its place. -/
def addRow? (g : Graph) (member : Option String × Json) : Option Graph := do
  return g.setEdges (← member.1) (← decode? member.2)

instance : JsonCodec Graph where
  encode g :=
    ofFields [("adjacency", .object (g.adjacency.map fun (v, es) => (some v, encode es)))]
  decode? j := do
    match ← fieldsOf? ["adjacency"] j with
    | [.object members] => members.foldlM addRow? .empty
    | _ => none

/-! ### Texts of values -/

/-- The value of a JSON text. -/
def parse? (α : Type) [JsonCodec α] (text : String) : Option α :=
  (Json.parse? text).bind decode?

/-- The JSON text of a value, on one line. -/
def write {α : Type} [JsonCodec α] (a : α) : String :=
  (encode a).compact

end JsonCodec

end Automata
