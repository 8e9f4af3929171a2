import Automata.Json.Value
import Mathlib.Data.List.Basic

/-!
# Written JSON values

A value is read back from its text in two steps: the text of tokens is cut into these tokens again,
and the tokens of a value make up this value. Marks and strings may touch in a text. Two words may
not, so the first step is for values without words.
-/

namespace Automata.Json

variable {t : Token} {ts : List Token} {v : Json} {vs : List Json}
  {members : List (Option String × Json)}

/-- Behind a first part the fold goes on with the rest. -/
lemma foldlM_append_of_eq {σ α : Type} {f : σ → α → Option σ} {s s' : σ} {xs : List α}
    (h : xs.foldlM f s = some s') (ys : List α) : (xs ++ ys).foldlM f s = ys.foldlM f s' := by
  rw [List.foldlM_append, h, Option.bind_eq_bind, Option.bind_some]

/-! ### Strings -/

/-- The code units of characters stand for these characters: none of them is a surrogate. -/
lemma ofUnits?_map_toNat (cs : List Char) : ofUnits? (cs.map Char.toNat) = some cs := by
  induction cs with
  | nil => rfl
  | cons c cs ih =>
    have hvalid : c.toNat < 0xD800 ∨ 0xDFFF < c.toNat ∧ c.toNat < 0x110000 := c.valid
    have hhigh : isHighSurrogate c.toNat = false := by
      simp only [isHighSurrogate, Bool.and_eq_false_iff, decide_eq_false_iff_not]
      omega
    have hlow : isLowSurrogate c.toNat = false := by
      simp only [isLowSurrogate, Bool.and_eq_false_iff, decide_eq_false_iff_not]
      omega
    rw [List.map_cons, ofUnits?.eq_def]
    simp only [hhigh, hlow, ih, Bool.false_eq_true, if_false, Option.map_some, Char.ofNat_toNat]

lemma hexValue?_hexDigit : ∀ n < 16, hexValue? (hexDigit n) = some n := by
  decide

/-- In a string, a written character is read as its code unit. -/
lemma foldlM_escapeChar (c : Char) (units : List Nat) (ts : List Token) :
    (escapeChar c).foldlM Lexer.step? ⟨.string units, ts⟩ =
      some ⟨.string (c.toNat :: units), ts⟩ := by
  unfold escapeChar
  split_ifs with hquote hbackslash hb hf hn hr ht hcontrol
  · subst hquote; rfl
  · subst hbackslash; rfl
  · subst hb; rfl
  · subst hf; rfl
  · subst hn; rfl
  · subst hr; rfl
  · subst ht; rfl
  · have hfirst := hexValue?_hexDigit (c.toNat / 16) (by omega)
    have hsecond := hexValue?_hexDigit (c.toNat % 16) (by omega)
    have hzero : hexValue? '0' = some 0 := by decide
    have hvalue : c.toNat / 16 * 16 + c.toNat % 16 = c.toNat := by omega
    simp [Lexer.step?, hfirst, hsecond, hzero, hvalue]
  · simp [Lexer.step?, hquote, hbackslash, hcontrol]

lemma foldlM_flatMap_escapeChar (cs : List Char) (units : List Nat) (ts : List Token) :
    (cs.flatMap escapeChar).foldlM Lexer.step? ⟨.string units, ts⟩ =
      some ⟨.string ((cs.map Char.toNat).reverse ++ units), ts⟩ := by
  induction cs generalizing units with
  | nil => rfl
  | cons c cs ih =>
    rw [List.flatMap_cons, foldlM_append_of_eq (foldlM_escapeChar c units ts), ih]
    simp

/-! ### Tokens -/

/-- A literal name or a number. -/
def Token.IsWord : Token → Prop
  | .null | .bool _ | .number _ => True
  | _ => False

/-- The text of a token that is no word is read as this token. -/
lemma foldlM_spell (ht : ¬ t.IsWord) (ts : List Token) :
    t.spell.foldlM Lexer.step? ⟨.outside, ts⟩ = some ⟨.outside, t :: ts⟩ := by
  cases t with
  | null | bool | number => exact (ht trivial).elim
  | openBrace | closeBrace | openBracket | closeBracket | colon | comma => rfl
  | string text =>
    cases text with
    | none =>
      -- Half of a surrogate pair, which is read as no text again.
      have hspell : (Token.string none).spell = ['"', '\\', 'u', 'd', '8', '0', '0', '"'] := by
        rw [Token.spell.eq_def]
        decide
      rw [hspell]
      rfl
    | some s =>
      have hopen : Lexer.step? ⟨.outside, ts⟩ '"' = some ⟨.string [], ts⟩ := rfl
      rw [Token.spell.eq_def]
      simp only [List.cons_append, List.foldlM_cons, hopen, Option.bind_eq_bind, Option.bind_some,
        foldlM_append_of_eq (foldlM_flatMap_escapeChar s.toList [] ts)]
      simp [Lexer.step?, Lexer.emit, ofUnits?_map_toNat]

/-- The text of tokens that are no words is cut into these tokens. -/
lemma lex?_flatMap_spell (hts : ∀ t ∈ ts, ¬ t.IsWord) :
    lex? (ts.flatMap Token.spell) = some ts := by
  -- The tokens read before stay behind those that are read now.
  suffices h : ∀ done : List Token, (ts.flatMap Token.spell).foldlM Lexer.step? ⟨.outside, done⟩ =
      some ⟨.outside, ts.reverse ++ done⟩ by
    rw [lex?, h []]
    simp [Lexer.finish?]
  induction ts with
  | nil => exact fun done => rfl
  | cons t ts ih =>
    intro done
    obtain ⟨ht, hts⟩ := List.forall_mem_cons.1 hts
    rw [List.flatMap_cons, foldlM_append_of_eq (foldlM_spell ht done), ih hts]
    simp

/-! ### Values -/

/-- At the first item of an array its tokens are read as behind a comma. -/
lemma foldlM_tokens_firstItem (v : Json) (stack : List Frame) :
    v.tokens.foldlM Reader.step? (.firstItem stack) =
      v.tokens.foldlM Reader.step? (.value (.array [] :: stack)) := by
  match v with
  | .null | .bool _ | .number _ | .string _ => rfl
  | .array [] | .array (_ :: _) | .object [] | .object (_ :: _) => rfl

mutual

/-- The tokens of a value are read as this value. -/
lemma foldlM_tokens (v : Json) (stack : List Frame) :
    v.tokens.foldlM Reader.step? (.value stack) = some (.done v stack) := by
  match v with
  | .null | .bool _ | .number _ | .string _ => rfl
  | .array [] => rfl
  | .object [] => rfl
  | .array (v :: vs) =>
    show (v.tokens ++ itemTokens vs).foldlM Reader.step? (.firstItem stack) = _
    have hv := (foldlM_tokens_firstItem v stack).trans (foldlM_tokens v (.array [] :: stack))
    rw [foldlM_append_of_eq hv, foldlM_itemTokens vs]
    rfl
  | .object ((k, v) :: ms) =>
    show (v.tokens ++ memberTokens ms).foldlM Reader.step? (.value (.object [] k :: stack)) = _
    rw [foldlM_append_of_eq (foldlM_tokens v _), foldlM_memberTokens ms]
    rfl

/-- Further items join those read before. -/
lemma foldlM_itemTokens (vs : List Json) (v : Json) (before : List Json) (stack : List Frame) :
    (itemTokens vs).foldlM Reader.step? (.done v (.array before :: stack)) =
      some (.done (.array (before.reverse ++ v :: vs)) stack) := by
  match vs with
  | [] => simp [itemTokens, Reader.step?]
  | w :: vs =>
    show (w.tokens ++ itemTokens vs).foldlM Reader.step?
      (.value (.array (v :: before) :: stack)) = _
    rw [foldlM_append_of_eq (foldlM_tokens w _), foldlM_itemTokens vs]
    simp

/-- Further members join those read before. -/
lemma foldlM_memberTokens (ms : List (Option String × Json)) (v : Json)
    (before : List (Option String × Json)) (k : Option String) (stack : List Frame) :
    (memberTokens ms).foldlM Reader.step? (.done v (.object before k :: stack)) =
      some (.done (.object (before.reverse ++ (k, v) :: ms)) stack) := by
  match ms with
  | [] => simp [memberTokens, Reader.step?]
  | (k', w) :: ms =>
    show (w.tokens ++ memberTokens ms).foldlM Reader.step?
      (.value (.object ((k, v) :: before) k' :: stack)) = _
    rw [foldlM_append_of_eq (foldlM_tokens w _), foldlM_memberTokens ms]
    simp

end

lemma ofTokens?_tokens (v : Json) : ofTokens? v.tokens = some v := by
  rw [ofTokens?, foldlM_tokens]
  rfl

/-! ### Tokens of arrays and objects -/

variable {P : Token → Prop}

/-- What holds of marks, of strings and of the tokens of all items holds of the tokens of an array. -/
lemma forall_mem_itemTokens (hP : ∀ t, ¬ t.IsWord → P t) (h : ∀ v ∈ vs, ∀ t ∈ v.tokens, P t) :
    ∀ t ∈ itemTokens vs, P t := by
  induction vs with
  | nil => exact List.forall_mem_singleton.2 (hP _ id)
  | cons v vs ih =>
    obtain ⟨hv, hvs⟩ := List.forall_mem_cons.1 h
    rw [itemTokens, List.forall_mem_cons, List.forall_mem_append]
    exact ⟨hP _ id, hv, ih hvs⟩

lemma forall_mem_tokens_array (hP : ∀ t, ¬ t.IsWord → P t) (h : ∀ v ∈ vs, ∀ t ∈ v.tokens, P t) :
    ∀ t ∈ (array vs).tokens, P t := by
  cases vs with
  | nil => exact List.forall_mem_cons.2 ⟨hP _ id, List.forall_mem_singleton.2 (hP _ id)⟩
  | cons v vs =>
    obtain ⟨hv, hvs⟩ := List.forall_mem_cons.1 h
    rw [tokens, List.forall_mem_cons, List.forall_mem_append]
    exact ⟨hP _ id, hv, forall_mem_itemTokens hP hvs⟩

lemma forall_mem_memberTokens (hP : ∀ t, ¬ t.IsWord → P t)
    (h : ∀ m ∈ members, ∀ t ∈ m.2.tokens, P t) : ∀ t ∈ memberTokens members, P t := by
  induction members with
  | nil => exact List.forall_mem_singleton.2 (hP _ id)
  | cons m members ih =>
    obtain ⟨hm, hmembers⟩ := List.forall_mem_cons.1 h
    simp only [memberTokens, List.forall_mem_cons, List.forall_mem_append]
    exact ⟨hP _ id, hP _ id, hP _ id, hm, ih hmembers⟩

lemma forall_mem_tokens_object (hP : ∀ t, ¬ t.IsWord → P t)
    (h : ∀ m ∈ members, ∀ t ∈ m.2.tokens, P t) : ∀ t ∈ (object members).tokens, P t := by
  cases members with
  | nil => exact List.forall_mem_cons.2 ⟨hP _ id, List.forall_mem_singleton.2 (hP _ id)⟩
  | cons m members =>
    obtain ⟨hm, hmembers⟩ := List.forall_mem_cons.1 h
    simp only [tokens, List.forall_mem_cons, List.forall_mem_append]
    exact ⟨hP _ id, hP _ id, hP _ id, hm, forall_mem_memberTokens hP hmembers⟩

/-! ### Values without words -/

/-- There is no literal name and no number in the value. -/
def Wordless (v : Json) : Prop :=
  ∀ t ∈ v.tokens, ¬ t.IsWord

lemma wordless_ofString (s : String) : (ofString s).Wordless := by
  simp [Wordless, ofString, tokens, Token.IsWord]

lemma wordless_array (h : ∀ v ∈ vs, v.Wordless) : (array vs).Wordless :=
  forall_mem_tokens_array (fun _ => id) h

lemma wordless_object (h : ∀ m ∈ members, m.2.Wordless) : (object members).Wordless :=
  forall_mem_tokens_object (fun _ => id) h

/-- A value without words is read back from its text. -/
theorem parse?_compact (hv : v.Wordless) : Json.parse? v.compact = some v := by
  rw [Json.parse?, compact, String.toList_ofList, lex?_flatMap_spell hv, Option.bind_some,
    ofTokens?_tokens]

/-! ### Tokens with blanks between them -/

/-- A number. Its text need not be one that is read as a number. -/
def Token.IsNumber : Token → Prop
  | .number _ => True
  | _ => False

lemma Token.IsNumber.isWord (h : t.IsNumber) : t.IsWord := by
  cases t with
  | number text => trivial
  | _ => exact h.elim

/-- `cs` is the text of tokens that are no numbers, with blanks in between; behind a word no word
goes on. -/
inductive Spells : List Char → List Token → Prop
  | nil : Spells [] []
  | blank {c : Char} {cs : List Char} {ts : List Token} (hc : c = ' ' ∨ c = '\n')
      (h : Spells cs ts) : Spells (c :: cs) ts
  | token {t : Token} {cs : List Char} {ts : List Token} (ht : ¬ t.IsNumber)
      (hend : t.IsWord → ∀ c ∈ cs.head?, isWordChar c = false) (h : Spells cs ts) :
      Spells (t.spell ++ cs) (t :: ts)

lemma Spells.mark {cs : List Char} (ht : ¬ t.IsWord) (h : Spells cs ts) :
    Spells (t.spell ++ cs) (t :: ts) :=
  .token (mt Token.IsNumber.isWord ht) (fun hword => (ht hword).elim) h

lemma Spells.newLine {cs : List Char} (h : Spells cs ts) (depth : Nat) :
    Spells (newLine depth ++ cs) ts := by
  have hblanks : ∀ n, Spells (List.replicate n ' ' ++ cs) ts := by
    intro n
    induction n with
    | zero => exact h
    | succ n ih => exact .blank (.inl rfl) ih
  exact .blank (.inr rfl) (hblanks (2 * depth))

/-- There is no number in the value. -/
def Numberless (v : Json) : Prop :=
  ∀ t ∈ v.tokens, ¬ t.IsNumber

lemma isWordChar_head_prettyItems (depth : Nat) (vs : List Json) (rest : List Char) :
    ∀ c ∈ (prettyItems depth vs ++ rest).head?, isWordChar c = false := by
  cases vs <;> simp [prettyItems, Json.newLine] <;> decide

lemma isWordChar_head_prettyMembers (depth : Nat) (ms : List (Option String × Json))
    (rest : List Char) : ∀ c ∈ (prettyMembers depth ms ++ rest).head?, isWordChar c = false := by
  cases ms <;> simp [prettyMembers, Json.newLine] <;> decide

mutual

/-- The lines of a value spell its tokens. -/
lemma spells_prettyAt (v : Json) (hv : v.Numberless) (depth : Nat) {rest : List Char}
    {ts : List Token} (hend : ∀ c ∈ rest.head?, isWordChar c = false) (h : Spells rest ts) :
    Spells (v.prettyAt depth ++ rest) (v.tokens ++ ts) := by
  match v with
  | .null | .bool _ | .string _ => exact .token (hv _ List.mem_cons_self) (fun _ => hend) h
  | .number _ => exact (hv _ List.mem_cons_self trivial).elim
  | .array [] => exact .mark (t := .openBracket) id (.mark (t := .closeBracket) id h)
  | .object [] => exact .mark (t := .openBrace) id (.mark (t := .closeBrace) id h)
  | .array (v :: vs) =>
    rw [Numberless, tokens, List.forall_mem_cons, List.forall_mem_append] at hv
    obtain ⟨-, hv, hvs⟩ := hv
    have hitems := spells_prettyItems vs hvs depth h
    have hitem := spells_prettyAt v hv (depth + 1) (isWordChar_head_prettyItems depth vs rest) hitems
    rw [prettyAt, tokens]
    simp only [List.cons_append, List.append_assoc]
    exact Spells.mark (t := .openBracket) id (hitem.newLine (depth + 1))
  | .object ((k, v) :: ms) =>
    simp only [Numberless, tokens, List.forall_mem_cons, List.forall_mem_append] at hv
    obtain ⟨-, -, -, hv, hms⟩ := hv
    have hmembers := spells_prettyMembers ms hms depth h
    have hmember := spells_prettyMember k v hv depth
      (isWordChar_head_prettyMembers depth ms rest) hmembers
    rw [prettyAt, tokens]
    simp only [List.cons_append, List.append_assoc]
    exact Spells.mark (t := .openBrace) id hmember

/-- So does the line of a member. -/
lemma spells_prettyMember (k : Option String) (v : Json) (hv : v.Numberless) (depth : Nat)
    {rest : List Char} {ts : List Token} (hend : ∀ c ∈ rest.head?, isWordChar c = false)
    (h : Spells rest ts) :
    Spells (newLine (depth + 1) ++ ((Token.string k).spell ++ ([':', ' '] ++
      (v.prettyAt (depth + 1) ++ rest)))) (.string k :: .colon :: (v.tokens ++ ts)) := by
  have hvalue := spells_prettyAt v hv (depth + 1) hend h
  have hcolon := Spells.mark (t := .colon) id (.blank (.inl rfl) hvalue)
  exact (Spells.mark (t := .string k) id hcolon).newLine (depth + 1)

/-- So do further items up to the end of their array. -/
lemma spells_prettyItems (vs : List Json) (hvs : ∀ t ∈ itemTokens vs, ¬ t.IsNumber) (depth : Nat)
    {rest : List Char} {ts : List Token} (h : Spells rest ts) :
    Spells (prettyItems depth vs ++ rest) (itemTokens vs ++ ts) := by
  match vs with
  | [] =>
    rw [prettyItems, itemTokens, List.append_assoc]
    exact (Spells.mark (t := .closeBracket) id h).newLine depth
  | v :: vs =>
    rw [itemTokens, List.forall_mem_cons, List.forall_mem_append] at hvs
    obtain ⟨-, hv, hvs⟩ := hvs
    have hitems := spells_prettyItems vs hvs depth h
    have hitem := spells_prettyAt v hv (depth + 1) (isWordChar_head_prettyItems depth vs rest) hitems
    rw [prettyItems, itemTokens]
    simp only [List.cons_append, List.append_assoc]
    exact Spells.mark (t := .comma) id (hitem.newLine (depth + 1))

/-- So do further members up to the end of their object. -/
lemma spells_prettyMembers (ms : List (Option String × Json))
    (hms : ∀ t ∈ memberTokens ms, ¬ t.IsNumber) (depth : Nat) {rest : List Char}
    {ts : List Token} (h : Spells rest ts) :
    Spells (prettyMembers depth ms ++ rest) (memberTokens ms ++ ts) := by
  match ms with
  | [] =>
    rw [prettyMembers, memberTokens, List.append_assoc]
    exact (Spells.mark (t := .closeBrace) id h).newLine depth
  | (k, v) :: ms =>
    simp only [memberTokens, List.forall_mem_cons, List.forall_mem_append] at hms
    obtain ⟨-, -, -, hv, hms⟩ := hms
    have hmembers := spells_prettyMembers ms hms depth h
    have hmember := spells_prettyMember k v hv depth
      (isWordChar_head_prettyMembers depth ms rest) hmembers
    rw [prettyMembers, memberTokens]
    simp only [List.cons_append, List.append_assoc]
    exact Spells.mark (t := .comma) id hmember

end

end Automata.Json
