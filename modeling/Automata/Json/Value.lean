import Automata.Json.Token

/-!
# JSON values

A value is read from tokens by a machine with a stack of unfinished arrays and objects, and written as
tokens or, over several lines, with indentation. Members of an object keep their order, and a key may
occur several times.
-/

namespace Automata

/-- A JSON value. Strings and keys that are no text are `none`. -/
inductive Json where
  | null
  | bool (value : Bool)
  | number (text : String)
  | string (text : Option String)
  | array (items : List Json)
  | object (members : List (Option String × Json))

namespace Json

/-- The value of a text. -/
def ofString (s : String) : Json := .string (some s)

/-! ### Reading -/

/-- An unfinished value around the one being read; the last entry comes first. -/
inductive Frame where
  | array (items : List Json)
  | object (members : List (Option String × Json)) (key : Option String)

/-- What a text has come to and what may follow. -/
inductive Reader where
  /-- A value is to follow. -/
  | value (stack : List Frame)
  /-- The first item of an array, or its end. -/
  | firstItem (stack : List Frame)
  /-- The first key of an object, or its end. -/
  | firstKey (stack : List Frame)
  /-- A further key of an object. -/
  | key (members : List (Option String × Json)) (stack : List Frame)
  /-- The colon behind a key. -/
  | colon (members : List (Option String × Json)) (key : Option String) (stack : List Frame)
  /-- A value has been read. -/
  | done (value : Json) (stack : List Frame)

namespace Reader

/-- Takes a token that starts a value. -/
def start? (stack : List Frame) : Token → Option Reader
  | .null => some (.done .null stack)
  | .bool b => some (.done (.bool b) stack)
  | .number t => some (.done (.number t) stack)
  | .string t => some (.done (.string t) stack)
  | .openBracket => some (.firstItem stack)
  | .openBrace => some (.firstKey stack)
  | _ => none

/-- Takes the next token. -/
def step? : Reader → Token → Option Reader
  | .value stack, t => start? stack t
  | .firstItem stack, .closeBracket => some (.done (.array []) stack)
  | .firstItem stack, t => start? (.array [] :: stack) t
  | .firstKey stack, .closeBrace => some (.done (.object []) stack)
  | .firstKey stack, .string k => some (.colon [] k stack)
  | .key ms stack, .string k => some (.colon ms k stack)
  | .colon ms k stack, .colon => some (.value (.object ms k :: stack))
  | .done v (.array vs :: stack), .comma => some (.value (.array (v :: vs) :: stack))
  | .done v (.array vs :: stack), .closeBracket => some (.done (.array (v :: vs).reverse) stack)
  | .done v (.object ms k :: stack), .comma => some (.key ((k, v) :: ms) stack)
  | .done v (.object ms k :: stack), .closeBrace =>
    some (.done (.object ((k, v) :: ms).reverse) stack)
  | _, _ => none

/-- The value, if it is complete. -/
def result? : Reader → Option Json
  | .done v [] => some v
  | _ => none

end Reader

/-- The value that tokens make up. -/
def ofTokens? (ts : List Token) : Option Json :=
  (ts.foldlM Reader.step? (.value [])).bind Reader.result?

/-- The value of a text. -/
def parse? (text : String) : Option Json :=
  (lex? text.toList).bind ofTokens?

/-! ### Writing -/

mutual

/-- The tokens of a value. -/
def tokens : Json → List Token
  | .null => [.null]
  | .bool b => [.bool b]
  | .number t => [.number t]
  | .string t => [.string t]
  | .array [] => [.openBracket, .closeBracket]
  | .array (v :: vs) => .openBracket :: (v.tokens ++ itemTokens vs)
  | .object [] => [.openBrace, .closeBrace]
  | .object ((k, v) :: ms) => .openBrace :: .string k :: .colon :: (v.tokens ++ memberTokens ms)

/-- The tokens of further items up to the end of their array. -/
def itemTokens : List Json → List Token
  | [] => [.closeBracket]
  | v :: vs => .comma :: (v.tokens ++ itemTokens vs)

/-- The tokens of further members up to the end of their object. -/
def memberTokens : List (Option String × Json) → List Token
  | [] => [.closeBrace]
  | (k, v) :: ms => .comma :: .string k :: .colon :: (v.tokens ++ memberTokens ms)

end

/-- The value on one line, without spaces. -/
def compact (v : Json) : String :=
  String.ofList (v.tokens.flatMap Token.spell)

/-- A new line with the indentation of a depth. -/
def newLine (depth : Nat) : List Char :=
  '\n' :: List.replicate (2 * depth) ' '

mutual

/-- The value over several lines, as it stands at a depth. -/
def prettyAt (depth : Nat) : Json → List Char
  | .null => Token.null.spell
  | .bool b => (Token.bool b).spell
  | .number t => (Token.number t).spell
  | .string t => (Token.string t).spell
  | .array [] => ['[', ']']
  | .array (v :: vs) =>
    '[' :: (newLine (depth + 1) ++ v.prettyAt (depth + 1) ++ prettyItems depth vs)
  | .object [] => ['\x7b', '\x7d']
  | .object ((k, v) :: ms) =>
    '\x7b' :: (newLine (depth + 1) ++ (Token.string k).spell ++ [':', ' '] ++
      v.prettyAt (depth + 1) ++ prettyMembers depth ms)

/-- Further items up to the end of their array. -/
def prettyItems (depth : Nat) : List Json → List Char
  | [] => newLine depth ++ [']']
  | v :: vs =>
    ',' :: (newLine (depth + 1) ++ v.prettyAt (depth + 1) ++ prettyItems depth vs)

/-- Further members up to the end of their object. -/
def prettyMembers (depth : Nat) : List (Option String × Json) → List Char
  | [] => newLine depth ++ ['\x7d']
  | (k, v) :: ms =>
    ',' :: (newLine (depth + 1) ++ (Token.string k).spell ++ [':', ' '] ++
      v.prettyAt (depth + 1) ++ prettyMembers depth ms)

end

/-- The value over several lines. -/
def pretty (v : Json) : String :=
  String.ofList (v.prettyAt 0)

end Json

end Automata
