/-!
# Tokens of JSON texts

A text is cut into tokens character by character. Numbers and the three literal names are taken as
whole words, so that no two of them can touch; strings are decoded on the way. A string may be written
correctly and yet be no text, when it has one half of a surrogate pair without the other: it is then
carried as `none`.
-/

namespace Automata.Json

/-- A token; strings are decoded, numbers are kept as they are written. -/
inductive Token where
  | openBrace
  | closeBrace
  | openBracket
  | closeBracket
  | colon
  | comma
  | null
  | bool (value : Bool)
  | number (text : String)
  | string (text : Option String)
  deriving DecidableEq

/-! ### Words -/

/-- Whether `c` can stand in a number or a literal name. -/
def isWordChar (c : Char) : Bool :=
  c.isAlphanum || c == '-' || c == '+' || c == '.'

/-- What is left of `cs` after one digit or more. -/
def afterDigits? (cs : List Char) : Option (List Char) :=
  if cs.head?.any Char.isDigit then some (cs.dropWhile Char.isDigit) else none

/-- What is left after the digits of a whole number, which has no needless zero. -/
def afterWhole? : List Char → Option (List Char)
  | '0' :: cs => some cs
  | cs => afterDigits? cs

/-- What is left after a fraction, if there is one. -/
def afterFraction? : List Char → Option (List Char)
  | '.' :: cs => afterDigits? cs
  | cs => some cs

/-- What is left after an exponent's sign, if there is one. -/
def afterSign : List Char → List Char
  | '+' :: cs => cs
  | '-' :: cs => cs
  | cs => cs

/-- What is left after an exponent, if there is one. -/
def afterExponent? : List Char → Option (List Char)
  | 'e' :: cs => afterDigits? (afterSign cs)
  | 'E' :: cs => afterDigits? (afterSign cs)
  | cs => some cs

/-- Whether `cs` is a number: a sign, a whole number, a fraction and an exponent. -/
def isNumber (cs : List Char) : Bool :=
  let unsigned := match cs with
    | '-' :: cs => cs
    | cs => cs
  match (afterWhole? unsigned).bind afterFraction? |>.bind afterExponent? with
  | some [] => true
  | _ => false

/-- The token that a word is. -/
def wordToken? (cs : List Char) : Option Token :=
  if cs = "null".toList then some .null
  else if cs = "true".toList then some (.bool true)
  else if cs = "false".toList then some (.bool false)
  else if isNumber cs then some (.number (String.ofList cs))
  else none

/-! ### Strings -/

/-- Whether `n` is the first half of a surrogate pair. -/
def isHighSurrogate (n : Nat) : Bool :=
  decide (0xD800 ≤ n) && decide (n < 0xDC00)

/-- Whether `n` is the second half of a surrogate pair. -/
def isLowSurrogate (n : Nat) : Bool :=
  decide (0xDC00 ≤ n) && decide (n < 0xE000)

/-- The characters that code units stand for, if every surrogate has its other half. -/
def ofUnits? : List Nat → Option (List Char)
  | [] => some []
  | n :: ns =>
    if isHighSurrogate n then
      match ns with
      | [] => none
      | m :: ns =>
        if isLowSurrogate m then
          (ofUnits? ns).map (Char.ofNat (0x10000 + (n - 0xD800) * 0x400 + (m - 0xDC00)) :: ·)
        else none
    else if isLowSurrogate n then none
    else (ofUnits? ns).map (Char.ofNat n :: ·)

/-- The character that an escape of one letter stands for. -/
def shortEscape? (c : Char) : Option Char :=
  if c = '"' ∨ c = '\\' ∨ c = '/' then some c
  else if c = 'b' then some '\x08'
  else if c = 'f' then some '\x0c'
  else if c = 'n' then some '\n'
  else if c = 'r' then some '\r'
  else if c = 't' then some '\t'
  else none

def hexValue? (c : Char) : Option Nat :=
  if c.isDigit then some (c.toNat - '0'.toNat)
  else if 'a' ≤ c ∧ c ≤ 'f' then some (c.toNat - 'a'.toNat + 10)
  else if 'A' ≤ c ∧ c ≤ 'F' then some (c.toNat - 'A'.toNat + 10)
  else none

/-! ### Cutting a text -/

/-- What the characters just read belong to. All lists have their last entry first. -/
inductive Mode where
  /-- Between tokens. -/
  | outside
  /-- A word. -/
  | word (chars : List Char)
  /-- A string. -/
  | string (units : List Nat)
  /-- A string, behind a backslash. -/
  | escape (units : List Nat)
  /-- A string, with some hexadecimal digits of an escape to come. -/
  | hex (units : List Nat) (digitsLeft : Nat) (value : Nat)

/-- A text cut so far. -/
structure Lexer where
  mode : Mode
  tokens : List Token

namespace Lexer

/-- The lexer with one more token, between tokens. -/
def emit (l : Lexer) (t : Token) : Lexer :=
  ⟨.outside, t :: l.tokens⟩

/-- Takes a character that starts something. -/
def open? (l : Lexer) (c : Char) : Option Lexer :=
  if c = ' ' ∨ c = '\n' ∨ c = '\r' ∨ c = '\t' then some ⟨.outside, l.tokens⟩
  else if c = '"' then some ⟨.string [], l.tokens⟩
  else if c = '\x7b' then some (l.emit .openBrace)
  else if c = '\x7d' then some (l.emit .closeBrace)
  else if c = '[' then some (l.emit .openBracket)
  else if c = ']' then some (l.emit .closeBracket)
  else if c = ':' then some (l.emit .colon)
  else if c = ',' then some (l.emit .comma)
  else if isWordChar c then some ⟨.word [c], l.tokens⟩
  else none

/-- Takes the next character. -/
def step? (l : Lexer) (c : Char) : Option Lexer :=
  match l.mode with
  | .outside => l.open? c
  | .word cs =>
    if isWordChar c then some ⟨.word (c :: cs), l.tokens⟩
    else (wordToken? cs.reverse).bind fun t => (l.emit t).open? c
  | .string units =>
    if c = '"' then some (l.emit (.string ((ofUnits? units.reverse).map String.ofList)))
    else if c = '\\' then some ⟨.escape units, l.tokens⟩
    else if c.toNat < 0x20 then none
    else some ⟨.string (c.toNat :: units), l.tokens⟩
  | .escape units =>
    if c = 'u' then some ⟨.hex units 3 0, l.tokens⟩
    else (shortEscape? c).map fun d => ⟨.string (d.toNat :: units), l.tokens⟩
  | .hex units digitsLeft value =>
    (hexValue? c).map fun d =>
      match digitsLeft with
      | 0 => ⟨.string ((value * 16 + d) :: units), l.tokens⟩
      | n + 1 => ⟨.hex units n (value * 16 + d), l.tokens⟩

/-- The tokens when the text ends. -/
def finish? (l : Lexer) : Option (List Token) :=
  match l.mode with
  | .outside => some l.tokens.reverse
  | .word cs => (wordToken? cs.reverse).map fun t => (t :: l.tokens).reverse
  | _ => none

end Lexer

def lex? (cs : List Char) : Option (List Token) :=
  (cs.foldlM Lexer.step? ⟨.outside, []⟩).bind Lexer.finish?

/-! ### Writing tokens -/

def hexDigit (n : Nat) : Char :=
  Nat.digitChar n

/-- How a character is written in a string. -/
def escapeChar (c : Char) : List Char :=
  if c = '"' then ['\\', '"']
  else if c = '\\' then ['\\', '\\']
  else if c = '\x08' then ['\\', 'b']
  else if c = '\x0c' then ['\\', 'f']
  else if c = '\n' then ['\\', 'n']
  else if c = '\r' then ['\\', 'r']
  else if c = '\t' then ['\\', 't']
  else if c.toNat < 0x20 then
    ['\\', 'u', '0', '0', hexDigit (c.toNat / 16), hexDigit (c.toNat % 16)]
  else [c]

/-- How a token is written. What is no text is written as half of a surrogate pair. -/
def Token.spell : Token → List Char
  | .openBrace => ['\x7b']
  | .closeBrace => ['\x7d']
  | .openBracket => ['[']
  | .closeBracket => [']']
  | .colon => [':']
  | .comma => [',']
  | .null => "null".toList
  | .bool true => "true".toList
  | .bool false => "false".toList
  | .number text => text.toList
  | .string (some text) => '"' :: text.toList.flatMap escapeChar ++ ['"']
  | .string none => "\"\\ud800\"".toList

end Automata.Json
