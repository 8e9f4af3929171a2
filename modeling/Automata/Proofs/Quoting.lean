import Automata.Text.Quoted
import Mathlib.Data.List.Basic
import Mathlib.Data.Nat.Digits.Defs

/-!
# Quoted texts are told apart

Between quotation marks every character is written so that a reader knows where it ends, and none is
written with a quotation mark at the start. So the text between the marks can be read back, and what
is behind it as well. It follows that messages that quote labels say which labels they are about.
-/

namespace Automata.Text

variable {f : Char → List Char} {c c' : Char} {l l' r r' : List Char} {m n : Nat}
  {ss ss' : List String}

/-! ### Codes for characters -/

/-- What is written for a character is read back, whatever follows it, and is no quotation mark. -/
structure PrefixCode (f : Char → List Char) : Prop where
  inj : ∀ {c c' : Char} {r r' : List Char}, f c ++ r = f c' ++ r' → c = c' ∧ r = r'
  ne_quote : ∀ {c : Char} {r r' : List Char}, f c ++ r ≠ '"' :: r'

/-- Words in a row are read back up to the character `stop` behind them, if one word can be read back,
whatever follows it, and none begins with that character. -/
lemma flatMap_append_inj {α : Type} {f : α → List Char} {stop : Char} {as as' : List α}
    {P : α → Prop} (inj : ∀ {a a' r r'}, P a → P a' → f a ++ r = f a' ++ r' → a = a' ∧ r = r')
    (ne_stop : ∀ {a r r'}, P a → f a ++ r ≠ stop :: r') (has : ∀ a ∈ as, P a)
    (has' : ∀ a ∈ as', P a) (h : as.flatMap f ++ stop :: r = as'.flatMap f ++ stop :: r') :
    as = as' ∧ r = r' := by
  induction as generalizing as' with
  | nil =>
    cases as' with
    | nil => exact ⟨rfl, (List.cons.inj h).2⟩
    | cons a' as' =>
      rw [List.flatMap_cons, List.append_assoc] at h
      exact (ne_stop (has' a' List.mem_cons_self) h.symm).elim
  | cons a as ih =>
    obtain ⟨ha, has⟩ := List.forall_mem_cons.1 has
    rw [List.flatMap_cons, List.append_assoc] at h
    cases as' with
    | nil => exact (ne_stop ha h).elim
    | cons a' as' =>
      obtain ⟨ha', hmem⟩ := List.forall_mem_cons.1 has'
      rw [List.flatMap_cons, List.append_assoc] at h
      obtain ⟨rfl, hrest⟩ := inj ha ha' h
      obtain ⟨rfl, rfl⟩ := ih has hmem hrest
      exact ⟨rfl, rfl⟩

/-- A text between quotation marks is read back, whatever stands behind it. -/
theorem PrefixCode.quote_append_inj (hf : PrefixCode f) {s s' : String}
    (h : '"' :: (s.toList.flatMap f ++ ['"']) ++ r = '"' :: (s'.toList.flatMap f ++ ['"']) ++ r') :
    s = s' ∧ r = r' := by
  simp only [List.cons_append, List.append_assoc, List.nil_append, List.cons.injEq, true_and] at h
  obtain ⟨hs, hr⟩ := flatMap_append_inj (P := fun _ => True) (fun _ _ => hf.inj)
    (fun _ => hf.ne_quote) (fun _ _ => trivial) (fun _ _ => trivial) h
  exact ⟨String.toList_inj.1 hs, hr⟩

/-! ### Numbers in escapes -/

lemma digitChar_inj : ∀ i < 16, ∀ j < 16, Nat.digitChar i = Nat.digitChar j → i = j := by
  decide

/-- One digit is no more than one. -/
lemma toDigits_ne_of_lt (hm : m < 16) (hn : 16 ≤ n) : Nat.toDigits 16 m ≠ Nat.toDigits 16 n := by
  intro h
  have hlength := congrArg List.length h
  simp only [Nat.toDigits_of_lt_base hm, Nat.toDigits_of_base_le (b := 16) (by decide) hn,
    List.length_append, List.length_singleton] at hlength
  have := Nat.length_toDigits_pos (b := 16) (n := n / 16)
  omega

/-- The number is told by its last digit and by the others. -/
lemma toDigits_inj (h : Nat.toDigits 16 m = Nat.toDigits 16 n) : m = n := by
  induction m using Nat.strong_induction_on generalizing n with
  | _ m ih =>
    have hbase : 1 < 16 := by decide
    rcases Nat.lt_or_ge m 16 with hm | hm <;> rcases Nat.lt_or_ge n 16 with hn | hn
    · rw [Nat.toDigits_of_lt_base hm, Nat.toDigits_of_lt_base hn] at h
      exact digitChar_inj m hm n hn (List.cons.inj h).1
    · exact (toDigits_ne_of_lt hm hn h).elim
    · exact (toDigits_ne_of_lt hn hm h.symm).elim
    · rw [Nat.toDigits_of_base_le hbase hm, Nat.toDigits_of_base_le hbase hn] at h
      obtain ⟨hinit, hlast⟩ := List.append_inj' h rfl
      have hquot : m / 16 = n / 16 := ih (m / 16) (by omega) hinit
      have hrem : m % 16 = n % 16 := digitChar_inj _ (by omega) _ (by omega) (List.cons.inj hlast).1
      omega

/-- A character that is no digit does not stand in a number. -/
lemma not_mem_toDigits {d : Char} (hdigit : ∀ i < 16, Nat.digitChar i ≠ d) (n : Nat) :
    d ∉ Nat.toDigits 16 n := by
  induction n using Nat.strong_induction_on with
  | _ n ih =>
    rcases Nat.lt_or_ge n 16 with hn | hn
    · rw [Nat.toDigits_of_lt_base hn, List.mem_singleton]
      exact (hdigit n hn).symm
    · rw [Nat.toDigits_of_base_le (by decide) hn, List.mem_append, List.mem_singleton, not_or]
      exact ⟨ih (n / 16) (by omega), (hdigit (n % 16) (by omega)).symm⟩

/-- What stands before the first `d` and what stands behind it. -/
lemma append_cons_inj {d : Char} (h : l ++ d :: r = l' ++ d :: r') (hl : d ∉ l) (hl' : d ∉ l') :
    l = l' ∧ r = r' := by
  induction l generalizing l' with
  | nil =>
    cases l' with
    | nil => exact ⟨rfl, (List.cons.inj h).2⟩
    | cons c' l' =>
      rw [List.mem_cons, not_or] at hl'
      exact (hl'.1 (List.cons.inj h).1).elim
  | cons c l ih =>
    rw [List.mem_cons, not_or] at hl
    cases l' with
    | nil => exact (hl.1 (List.cons.inj h).1.symm).elim
    | cons c' l' =>
      rw [List.mem_cons, not_or] at hl'
      obtain ⟨rfl, hrest⟩ := List.cons.inj h
      obtain ⟨rfl, rfl⟩ := ih hrest hl.2 hl'.2
      exact ⟨rfl, rfl⟩

/-! ### The escapes of messages -/

/-- The characters that have an escape of their own, with the character that stands for them. -/
def shortEscapes : List (Char × Char) :=
  [('"', '"'), ('\\', '\\'), ('\n', 'n'), ('\r', 'r'), ('\t', 't'), ('\x00', '0')]

/-- The three ways in which a character is written. -/
inductive Escapes : Char → List Char → Prop
  | plain {c : Char} (hquote : c ≠ '"') (hescape : c ≠ '\\') : Escapes c [c]
  | short {c d : Char} (h : (c, d) ∈ shortEscapes) : Escapes c ['\\', d]
  | number (c : Char) : Escapes c ('\\' :: 'u' :: '\x7b' :: (Nat.toDigits 16 c.toNat ++ ['\x7d']))

lemma escapes_escapeChar (c : Char) : Escapes c (escapeChar c) := by
  rw [escapeChar]
  split_ifs with hquote hescape
  · exact .short (by simp [hquote, shortEscapes])
  · exact .short (by simp [hescape, shortEscapes])
  · exact .short (by simp [*, shortEscapes])
  · exact .short (by simp [*, shortEscapes])
  · exact .short (by simp [*, shortEscapes])
  · exact .short (by simp [*, shortEscapes])
  · exact .plain hquote hescape
  · exact .number c

lemma shortEscapes_inj :
    ∀ p ∈ shortEscapes, ∀ p' ∈ shortEscapes, p.2 = p'.2 → p.1 = p'.1 := by
  decide

lemma not_mem_shortEscapes (c : Char) : (c, 'u') ∉ shortEscapes := by
  simp [shortEscapes]

/-- Whichever way a character is written, the first two characters tell which way it is. -/
lemma Escapes.inj (h : Escapes c l) (h' : Escapes c' l') (heq : l ++ r = l' ++ r') :
    c = c' ∧ r = r' := by
  cases h with
  | plain hquote hescape =>
    cases h' with
    | plain => simpa using heq
    | short => exact (hescape (List.head_eq_of_cons_eq heq)).elim
    | number => exact (hescape (List.head_eq_of_cons_eq heq)).elim
  | short h =>
    cases h' with
    | plain hquote hescape => exact (hescape (List.head_eq_of_cons_eq heq).symm).elim
    | short h' =>
      obtain ⟨hd, hr⟩ := List.cons.inj (List.tail_eq_of_cons_eq heq)
      exact ⟨shortEscapes_inj _ h _ h' hd, hr⟩
    | number =>
      obtain ⟨rfl, -⟩ := List.cons.inj (List.tail_eq_of_cons_eq heq)
      exact (not_mem_shortEscapes c h).elim
  | number =>
    cases h' with
    | plain hquote hescape => exact (hescape (List.head_eq_of_cons_eq heq).symm).elim
    | short h' =>
      obtain ⟨rfl, -⟩ := List.cons.inj (List.tail_eq_of_cons_eq heq)
      exact (not_mem_shortEscapes c' h').elim
    | number =>
      have hnumber : Nat.toDigits 16 c.toNat ++ '\x7d' :: r =
          Nat.toDigits 16 c'.toNat ++ '\x7d' :: r' := by simpa using heq
      obtain ⟨hdigits, hr⟩ := append_cons_inj hnumber (not_mem_toDigits (by decide) _)
        (not_mem_toDigits (by decide) _)
      exact ⟨Char.toNat_inj.1 (toDigits_inj hdigits), hr⟩

lemma Escapes.ne_quote (h : Escapes c l) : l ++ r ≠ '"' :: r' := by
  intro heq
  cases h with
  | plain hquote => exact hquote (List.head_eq_of_cons_eq heq)
  | short => exact absurd (List.head_eq_of_cons_eq heq) (by decide)
  | number => exact absurd (List.head_eq_of_cons_eq heq) (by decide)

/-- The escapes of messages are a code. -/
theorem prefixCode_escapeChar : PrefixCode escapeChar where
  inj := (escapes_escapeChar _).inj (escapes_escapeChar _)
  ne_quote := (escapes_escapeChar _).ne_quote

/-! ### Quoted texts and lists of them -/

lemma toList_quoted (s : String) :
    (quoted s).toList = '"' :: (s.toList.flatMap escapeChar ++ ['"']) := by
  simp [quoted]

lemma lineEnd_not_mem_escapeChar (c : Char) : '\n' ∉ escapeChar c := by
  have hnumber : '\n' ∉ Nat.toDigits 16 c.toNat := not_mem_toDigits (by decide) c.toNat
  rw [escapeChar]
  split_ifs with _ _ hn
  · decide
  · decide
  · decide
  · decide
  · decide
  · decide
  · rw [List.mem_singleton]
    exact Ne.symm hn
  · rw [List.mem_append, List.mem_append, not_or, not_or]
    exact ⟨⟨by decide, hnumber⟩, by decide⟩

/-- A quoted text stands on one line. -/
lemma lineEnd_not_mem_quoted (s : String) : '\n' ∉ (quoted s).toList := by
  simp [toList_quoted, lineEnd_not_mem_escapeChar]

lemma quoted_append_inj {s s' : String}
    (h : (quoted s).toList ++ r = (quoted s').toList ++ r') : s = s' ∧ r = r' := by
  rw [toList_quoted, toList_quoted] at h
  exact prefixCode_escapeChar.quote_append_inj h

/-- What is written behind an item of a list. -/
def following : List String → List Char
  | [] => [']']
  | s :: ss => ',' :: ' ' :: ((quoted s).toList ++ following ss)

lemma quotedItems_cons (s : String) (ss : List String) :
    (quotedItems (s :: ss)).toList ++ [']'] = (quoted s).toList ++ following ss := by
  induction ss generalizing s with
  | nil => simp [quotedItems, following]
  | cons s' ss ih =>
    have hitems : (quotedItems (s :: s' :: ss)).toList =
        (quoted s).toList ++ ',' :: ' ' :: (quotedItems (s' :: ss)).toList := by
      simp [quotedItems, String.intercalate_cons_cons]
    rw [hitems, following, ← ih]
    simp

lemma following_inj (h : following ss = following ss') : ss = ss' := by
  induction ss generalizing ss' with
  | nil =>
    cases ss' with
    | nil => rfl
    | cons s' ss' => exact absurd (List.cons.inj h).1 (by decide)
  | cons s ss ih =>
    cases ss' with
    | nil => exact absurd (List.cons.inj h).1 (by decide)
    | cons s' ss' =>
      obtain ⟨rfl, hrest⟩ := quoted_append_inj (List.cons.inj (List.cons.inj h).2).2
      rw [ih hrest]

/-- A list of quoted texts says what the texts are. -/
theorem quotedList_inj : quotedList ss = quotedList ss' ↔ ss = ss' := by
  have empty_ne : ∀ (s : String) (ss : List String), [']'] ≠ (quoted s).toList ++ following ss := by
    intro s ss h
    rw [toList_quoted] at h
    exact absurd (List.head_eq_of_cons_eq h) (by decide)
  constructor
  · intro h
    have hitems : (quotedItems ss).toList ++ [']'] = (quotedItems ss').toList ++ [']'] := by
      simpa [quotedList] using congrArg String.toList h
    cases ss with
    | nil =>
      cases ss' with
      | nil => rfl
      | cons s' ss' =>
        rw [quotedItems_cons] at hitems
        exact (empty_ne s' ss' hitems).elim
    | cons s ss =>
      rw [quotedItems_cons] at hitems
      cases ss' with
      | nil => exact (empty_ne s ss hitems.symm).elim
      | cons s' ss' =>
        rw [quotedItems_cons] at hitems
        obtain ⟨rfl, hrest⟩ := quoted_append_inj hitems
        rw [following_inj hrest]
  · rintro rfl
    rfl

end Automata.Text
