/-!
# Parsing expressions

An expression over rule names `ρ` is matched at a cursor. A match moves the cursor and yields the
syntax nodes of the rules inside; choice is ordered and repetition is greedy, without going back.

Beside its outcome a reading tells which rules were tried in vain at the furthest place. A rule that
fails where it began stands for the rules tried inside it at that same place, unless there was just
one.

For every operation one equation gives its outcome from the outcomes of its parts. For repetition it
holds when every match of the part consumes a character.
-/

namespace Automata.Specification

/-! ### Cursors -/

/-- A place in a text: the characters and bytes before it, and the characters after it. -/
structure Cursor where
  index : Nat
  offset : Nat
  rest : List Char
  deriving DecidableEq

def Cursor.start (text : List Char) : Cursor := ⟨0, 0, text⟩

/-- The cursor behind `x`, when `rest` follows it. -/
def Cursor.advance (c : Cursor) (x : Char) (rest : List Char) : Cursor :=
  ⟨c.index + 1, c.offset + x.utf8Size, rest⟩

/-- The cursor behind the next character. -/
def Cursor.any? (c : Cursor) : Option Cursor :=
  match c.rest with
  | [] => none
  | x :: rest => some (c.advance x rest)

/-- The cursor behind the characters `xs`, if they come next. -/
def Cursor.skip? : List Char → Cursor → Option Cursor
  | [], c => some c
  | x :: xs, c =>
    match c.rest with
    | [] => none
    | y :: rest => if x = y then Cursor.skip? xs (c.advance y rest) else none

/-- The text from `c` to a later cursor. -/
def Cursor.textTo (c d : Cursor) : String :=
  String.ofList (c.rest.take (d.index - c.index))

/-! ### Syntax nodes -/

/-- The bytes from `start` up to, not including, `stop`. -/
structure Span where
  start : Nat
  stop : Nat
  deriving DecidableEq

/-- What a rule matched: a text as a whole, or a text with parts. -/
inductive Node (ρ : Type) where
  | token (rule : ρ) (span : Span) (text : String)
  | branch (rule : ρ) (span : Span) (children : List (Node ρ))

def Node.rule {ρ : Type} : Node ρ → ρ
  | .token r _ _ => r
  | .branch r _ _ => r

def Node.span {ρ : Type} : Node ρ → Span
  | .token _ s _ => s
  | .branch _ s _ => s

/-- The nodes of the parts. -/
def Node.children {ρ : Type} : Node ρ → List (Node ρ)
  | .token _ _ _ => []
  | .branch _ _ ns => ns

/-- The text of a node that was matched as a whole. -/
def Node.text {ρ : Type} : Node ρ → String
  | .token _ _ t => t
  | .branch _ _ _ => ""

/-! ### Attempts -/

/-- The rules tried in vain at the furthest place where any was. -/
structure Attempts (ρ : Type) where
  offset : Nat
  rules : List ρ

def Attempts.none {ρ : Type} : Attempts ρ := ⟨0, []⟩

/-- The attempts of two readings: those further on win. -/
def Attempts.join {ρ : Type} (a b : Attempts ρ) : Attempts ρ :=
  if a.offset < b.offset then b
  else if b.offset < a.offset then a
  else ⟨a.offset, a.rules ++ b.rules⟩

/-- The attempts after `rule` failed at `offset`, when `a` are those made inside it. -/
def Attempts.fail {ρ : Type} (rule : ρ) (offset : Nat) (a : Attempts ρ) : Attempts ρ :=
  if offset < a.offset then a
  else if a.offset = offset ∧ a.rules.length = 1 then a
  else ⟨offset, [rule]⟩

/-! ### Expressions -/

/-- A parsing expression over the rule names `ρ`. -/
inductive Peg (ρ : Type) where
  /-- The given characters. -/
  | exactly (xs : List Char)
  /-- Any one character. -/
  | anyChar
  /-- The end of the text. -/
  | atEnd
  /-- One expression, then another. -/
  | seq (p q : Peg ρ)
  /-- The second expression where the first does not match. -/
  | choice (p q : Peg ρ)
  /-- As many matches in a row as there are. -/
  | many (p : Peg ρ)
  /-- A match that is not consumed. -/
  | ahead (p : Peg ρ)
  /-- The absence of a match; what is tried inside is not wanted and leaves no attempts. -/
  | notAhead (p : Peg ρ)
  /-- A named rule matched as a whole. -/
  | token (rule : ρ) (p : Peg ρ)
  /-- A named rule with parts. -/
  | branch (rule : ρ) (p : Peg ρ)

namespace Peg

variable {ρ : Type}

instance : Append (Peg ρ) := ⟨seq⟩

/-- A fixed text. -/
def lit (s : String) : Peg ρ := exactly s.toList

/-- One match or more. -/
def plus (p : Peg ρ) : Peg ρ := p ++ many p

/-- A match if there is one. -/
def optional (p : Peg ρ) : Peg ρ := choice p (exactly [])

/-- What comes of matching an expression at a cursor. -/
structure Reading (ρ : Type) where
  outcome : Option (Cursor × List (Node ρ))
  attempts : Attempts ρ

/-- A reading without nodes and attempts. -/
def Reading.plain (c : Option Cursor) : Reading ρ :=
  ⟨c.map fun c => (c, []), .none⟩

/-- Repeats `read` until it fails, but at most once more than `budget` is long. As every match of a
repeated expression consumes a character, the characters left are budget enough. The nodes found so
far are kept in reverse. -/
def readMany (read : Cursor → Reading ρ) :
    (budget : List Char) → Cursor → List (Node ρ) → Attempts ρ → Reading ρ
  | budget, c, nodes, attempts =>
    let r := read c
    match r.outcome with
    | none => ⟨some (c, nodes.reverse), attempts.join r.attempts⟩
    | some (c', ns) =>
      match budget with
      | [] => ⟨some (c', (ns.reverseAux nodes).reverse), attempts.join r.attempts⟩
      | _ :: budget => readMany read budget c' (ns.reverseAux nodes) (attempts.join r.attempts)

/-- Matches an expression at a cursor. -/
def read : Peg ρ → Cursor → Reading ρ
  | exactly xs, c => .plain (Cursor.skip? xs c)
  | anyChar, c => .plain c.any?
  | atEnd, c => .plain (if c.rest.isEmpty then some c else none)
  | seq p q, c =>
    let r := p.read c
    match r.outcome with
    | none => r
    | some (c', ns) =>
      let r' := q.read c'
      ⟨r'.outcome.map fun (c'', ns') => (c'', ns ++ ns'), r.attempts.join r'.attempts⟩
  | choice p q, c =>
    let r := p.read c
    match r.outcome with
    | some _ => r
    | none =>
      let r' := q.read c
      ⟨r'.outcome, r.attempts.join r'.attempts⟩
  | many p, c => readMany p.read c.rest c [] .none
  | ahead p, c =>
    let r := p.read c
    ⟨r.outcome.map fun _ => (c, []), r.attempts⟩
  | notAhead p, c => .plain (if (p.read c).outcome.isSome then none else some c)
  | token rule p, c =>
    let r := p.read c
    match r.outcome with
    | none => ⟨none, r.attempts.fail rule c.offset⟩
    | some (c', _) => ⟨some (c', [.token rule ⟨c.offset, c'.offset⟩ (c.textTo c')]), r.attempts⟩
  | branch rule p, c =>
    let r := p.read c
    match r.outcome with
    | none => ⟨none, r.attempts.fail rule c.offset⟩
    | some (c', ns) => ⟨some (c', [.branch rule ⟨c.offset, c'.offset⟩ ns]), r.attempts⟩

/-! ### Outcomes -/

@[simp] theorem outcome_plain (c : Option Cursor) :
    (Reading.plain c : Reading ρ).outcome = c.map fun c => (c, []) := rfl

@[simp] theorem outcome_exactly (xs : List Char) (c : Cursor) :
    ((exactly xs : Peg ρ).read c).outcome = (Cursor.skip? xs c).map fun c => (c, []) := rfl

@[simp] theorem outcome_anyChar (c : Cursor) :
    ((anyChar : Peg ρ).read c).outcome = c.any?.map fun c => (c, []) := rfl

@[simp] theorem outcome_atEnd (c : Cursor) :
    ((atEnd : Peg ρ).read c).outcome = if c.rest.isEmpty then some (c, []) else none := by
  cases h : c.rest.isEmpty <;> simp [read, h]

@[simp] theorem outcome_append (p q : Peg ρ) (c : Cursor) :
    ((p ++ q).read c).outcome = (p.read c).outcome.bind fun (c', ns) =>
      (q.read c').outcome.map fun (c'', ns') => (c'', ns ++ ns') := by
  show ((seq p q).read c).outcome = _
  rw [read]
  cases h : (p.read c).outcome <;> simp [h]

@[simp] theorem outcome_choice (p q : Peg ρ) (c : Cursor) :
    ((choice p q).read c).outcome = (p.read c).outcome.or (q.read c).outcome := by
  rw [read]
  cases h : (p.read c).outcome <;> simp [h]

@[simp] theorem outcome_ahead (p : Peg ρ) (c : Cursor) :
    ((ahead p).read c).outcome = (p.read c).outcome.map fun _ => (c, []) := rfl

@[simp] theorem outcome_notAhead (p : Peg ρ) (c : Cursor) :
    ((notAhead p).read c).outcome =
      if (p.read c).outcome.isSome then none else some (c, []) := by
  cases h : (p.read c).outcome <;> simp [read, h]

@[simp] theorem outcome_token (rule : ρ) (p : Peg ρ) (c : Cursor) :
    ((token rule p).read c).outcome = (p.read c).outcome.map fun (c', _) =>
      (c', [.token rule ⟨c.offset, c'.offset⟩ (c.textTo c')]) := by
  rw [read]
  cases (p.read c).outcome <;> simp

@[simp] theorem outcome_branch (rule : ρ) (p : Peg ρ) (c : Cursor) :
    ((branch rule p).read c).outcome = (p.read c).outcome.map fun (c', ns) =>
      (c', [.branch rule ⟨c.offset, c'.offset⟩ ns]) := by
  rw [read]
  cases (p.read c).outcome <;> simp

/-! ### Repetition -/

/-- Every match of `read` consumes a character. -/
def Consumes (read : Cursor → Reading ρ) : Prop :=
  ∀ ⦃c c' : Cursor⦄ ⦃ns : List (Node ρ)⦄, (read c).outcome = some (c', ns) →
    c'.rest.length < c.rest.length

/-- The nodes found before come first, and the attempts do not matter. -/
theorem outcome_readMany_nodes (read : Cursor → Reading ρ) (b : List Char) (c : Cursor)
    (nodes : List (Node ρ)) (a a' : Attempts ρ) :
    (readMany read b c nodes a).outcome =
      (readMany read b c [] a').outcome.map fun (c', ns) => (c', nodes.reverse ++ ns) := by
  induction b generalizing c nodes a a' with
  | nil =>
    rw [readMany, readMany]
    cases (read c).outcome <;> simp
  | cons x b ih =>
    rw [readMany, readMany]
    match hr : (read c).outcome with
    | none => simp
    | some (c', ns) =>
      simp only
      rw [ih c' (ns.reverseAux nodes) _ .none, ih c' (ns.reverseAux []) _ .none]
      simp [Function.comp_def]

/-- A larger budget than needed does not matter. -/
theorem outcome_readMany_budget {read : Cursor → Reading ρ} (h : Consumes read) {c : Cursor}
    {b b' : List Char} (hb : c.rest.length ≤ b.length) (hb' : c.rest.length ≤ b'.length)
    (nodes : List (Node ρ)) (a : Attempts ρ) :
    (readMany read b c nodes a).outcome = (readMany read b' c nodes a).outcome := by
  induction b generalizing c b' nodes a with
  | nil =>
    rw [readMany.eq_def, readMany.eq_def read b']
    match hr : (read c).outcome with
    | none => simp [hr]
    | some (c', ns) => exact absurd (h hr) (by simp_all)
  | cons x b ih =>
    rw [readMany.eq_def, readMany.eq_def read b']
    match hr : (read c).outcome, b' with
    | none, _ => simp [hr]
    | some (c', ns), [] => exact absurd (h hr) (by simp_all)
    | some (c', ns), y :: b' =>
      have hlt := h hr
      simp only [hr]
      exact ih (Nat.le_of_lt_succ (Nat.lt_of_lt_of_le hlt hb))
        (Nat.le_of_lt_succ (Nat.lt_of_lt_of_le hlt hb')) _ _

/-- Repetition is one match and then repetition, or nothing. -/
theorem outcome_many {p : Peg ρ} (h : Consumes p.read) (c : Cursor) :
    ((many p).read c).outcome =
      match (p.read c).outcome with
      | none => some (c, [])
      | some (c', ns) =>
        ((many p).read c').outcome.map fun (c'', ns') => (c'', ns ++ ns') := by
  rw [read, readMany.eq_def]
  match hr : (p.read c).outcome, hb : c.rest with
  | none, _ => simp [hr]
  | some (c', ns), [] => exact absurd (h hr) (by simp [hb])
  | some (c', ns), y :: b =>
    have hlt : c'.rest.length ≤ b.length := by
      have := h hr
      simp only [hb, List.length_cons] at this
      exact Nat.le_of_lt_succ this
    simp only [hr]
    rw [outcome_readMany_nodes _ _ _ _ _ .none, read,
      outcome_readMany_budget h hlt (Nat.le_refl _)]
    simp

/-- Matches an expression at the start of a text. -/
def readText (p : Peg ρ) (text : List Char) : Reading ρ :=
  p.read (.start text)

end Peg

end Automata.Specification
