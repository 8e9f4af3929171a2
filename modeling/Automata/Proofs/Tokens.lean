import Automata.Proofs.Matching
import Automata.Proofs.Notation
import Automata.Specification.Grammar

/-!
# Tokens of the grammar

The rules below the lines: space and line ends, labels. For each an equivalence says what it matches,
with what has to follow, since a repetition takes all it can get.
-/

namespace Automata.Specification.Grammar

open Peg

variable {c : Cursor} {xs ys rest a b e : List Char} {ns : List (Node Rule)} {x : Char}

/-! ### Spaces -/

lemma readsOne_space : space.ReadsOne fun x => x = ' ' ∨ x = '\t' :=
  (readsOne_exactly ' ').choice (readsOne_exactly '\t')

lemma reads_spaces_iff :
    spaces.Reads c xs ns ↔
      ns = [] ∧ Blank xs ∧ ∃ rest, c.rest = xs ++ rest ∧ ∀ x ∈ rest.head?, ¬ (x = ' ' ∨ x = '\t') :=
  readsOne_space.reads_many_iff

/-! ### Line ends -/

lemma fails_exactly_iff (zs : List Char) : (exactly zs : Peg Rule).Fails c ↔ ¬ zs <+: c.rest := by
  simp [Fails, reads_exactly_iff]

lemma newline_eq :
    newline = choice (exactly ['\n']) (choice (exactly ['\r', '\n']) (exactly ['\r'])) := rfl

lemma reads_newline_iff :
    newline.Reads c xs ns ↔ ns = [] ∧ xs ≠ [] ∧ ∃ rest, c.rest = xs ++ rest ∧ Ending xs rest := by
  simp only [newline_eq, reads_choice_iff, reads_exactly_iff, fails_exactly_iff]
  constructor
  · rintro (⟨rfl, rfl, rest, hrest⟩ | ⟨-, ⟨rfl, rfl, rest, hrest⟩ | ⟨hno, rfl, rfl, rest, hrest⟩⟩)
    · exact ⟨rfl, by simp, rest, hrest.symm, .feed rest⟩
    · exact ⟨rfl, by simp, rest, hrest.symm, .returnFeed rest⟩
    · refine ⟨rfl, by simp, rest, hrest.symm, .bareReturn fun hhead => hno ?_⟩
      obtain ⟨rest', rfl⟩ := List.head?_eq_some_iff.1 hhead
      exact ⟨rest', hrest⟩
  · rintro ⟨rfl, hne, rest, hrest, he⟩
    cases he with
    | feed => exact .inl ⟨rfl, rfl, rest, hrest.symm⟩
    | returnFeed => exact .inr ⟨by simp [hrest], .inl ⟨rfl, rfl, rest, hrest.symm⟩⟩
    | bareReturn h =>
      refine .inr ⟨by simp [hrest], .inr ⟨?_, rfl, rfl, rest, hrest.symm⟩⟩
      rw [hrest, List.singleton_append, List.cons_prefix_cons]
      rintro ⟨-, rest', rfl⟩
      exact h rfl
    | text => exact (hne rfl).elim

lemma reads_endOfText_iff :
    endOfText.Reads c xs ns ↔ xs = [] ∧ ns = [.branch .eoi ⟨c.offset, c.offset⟩ []] ∧ c.rest = [] := by
  rw [endOfText, reads_branch_iff]
  constructor
  · rintro ⟨ms, h, rfl⟩
    obtain ⟨rfl, rfl, hrest⟩ := reads_atEnd_iff.1 h
    exact ⟨rfl, by simp, hrest⟩
  · rintro ⟨rfl, rfl, hrest⟩
    exact ⟨[], reads_atEnd_iff.2 ⟨rfl, rfl, hrest⟩, by simp⟩

/-- A line ends after spaces, by a line end or by the end of the text. -/
lemma reads_eol_iff :
    eol.Reads c xs ns ↔
      ns = [] ∧ ∃ b e rest, xs = b ++ e ∧ Blank b ∧ c.rest = b ++ (e ++ rest) ∧ Ending e rest := by
  rw [eol, reads_append_iff]
  constructor
  · rintro ⟨b, _, e, ks, hb, he, rfl, rfl⟩
    obtain ⟨rfl, hblank, rest, hrest, -⟩ := reads_spaces_iff.1 hb
    rw [reads_choice_iff, reads_newline_iff, reads_ahead_iff, Cursor.rest_pass hrest] at he
    rcases he with ⟨rfl, -, rest', rfl, he⟩ | ⟨-, rfl, rfl, _, _, h⟩
    · exact ⟨rfl, b, e, rest', rfl, hblank, hrest, he⟩
    · obtain ⟨-, -, hend⟩ := reads_endOfText_iff.1 h
      rw [Cursor.rest_pass hrest] at hend
      exact ⟨rfl, b, [], rest, rfl, hblank, hrest, hend ▸ .text⟩
  · rintro ⟨rfl, b, e, rest, rfl, hblank, hrest, he⟩
    have hb : spaces.Reads c b [] := reads_spaces_iff.2 ⟨rfl, hblank, _, hrest, he.head_not_blank⟩
    refine ⟨b, [], e, [], hb, ?_, rfl, rfl⟩
    rw [reads_choice_iff, reads_newline_iff, Cursor.rest_pass hrest]
    by_cases hne : e = []
    · subst hne
      cases he
      refine .inr ⟨?_, reads_ahead_iff.2 ⟨rfl, rfl, [], _, reads_endOfText_iff.2 ⟨rfl, rfl, ?_⟩⟩⟩
      · intro xs ns h
        rw [reads_newline_iff, Cursor.rest_pass hrest] at h
        obtain ⟨-, hne, rest, hnil, -⟩ := h
        exact hne (List.append_eq_nil_iff.1 hnil.symm).1
      · exact Cursor.rest_pass hrest
    · exact .inl ⟨rfl, hne, rest, rfl, he⟩

/-- A blank line is spaces and a line end. -/
lemma reads_blank_iff :
    blank.Reads c xs ns ↔ ns = [] ∧ ∃ b e rest, xs = b ++ e ∧ Blank b ∧ e ≠ [] ∧
      c.rest = b ++ (e ++ rest) ∧ Ending e rest := by
  rw [blank, reads_append_iff]
  constructor
  · rintro ⟨b, _, e, ks, hb, he, rfl, rfl⟩
    obtain ⟨rfl, hblank, rest, hrest, -⟩ := reads_spaces_iff.1 hb
    rw [reads_newline_iff, Cursor.rest_pass hrest] at he
    obtain ⟨rfl, hne, rest', rfl, he⟩ := he
    exact ⟨rfl, b, e, rest', rfl, hblank, hne, hrest, he⟩
  · rintro ⟨rfl, b, e, rest, rfl, hblank, hne, hrest, he⟩
    have hb : spaces.Reads c b [] := reads_spaces_iff.2 ⟨rfl, hblank, _, hrest, he.head_not_blank⟩
    refine ⟨b, [], e, [], hb, ?_, rfl, rfl⟩
    rw [reads_newline_iff, Cursor.rest_pass hrest]
    exact ⟨rfl, hne, rest, rfl, he⟩

/-! ### Labels -/

lemma fails_newline_iff : newline.Fails c ↔ ∀ x ∈ c.rest.head?, ¬ (x = '\n' ∨ x = '\r') := by
  simp only [newline_eq, fails_choice_iff, fails_exactly_iff]
  cases c.rest with
  | nil => simp
  | cons x rest => simp +contextual [List.cons_prefix_cons, eq_comm]

lemma separator_eq : separator = choice space (choice newline
    (choice (exactly [':']) (choice (exactly ['>']) (exactly [','])))) := rfl

lemma fails_separator_iff : separator.Fails c ↔ ∀ x ∈ c.rest.head?, x ∉ separators := by
  simp only [separator_eq, fails_choice_iff, readsOne_space.fails_iff, fails_newline_iff,
    (readsOne_exactly _).fails_iff, separators, List.mem_cons, List.not_mem_nil]
  grind

lemma readsOne_labelChar : (notAhead separator ++ anyChar).ReadsOne (· ∉ separators) := by
  intro c xs ns
  simp only [reads_append_iff, reads_notAhead_iff, reads_anyChar_iff, fails_separator_iff]
  constructor
  · rintro ⟨_, _, _, _, ⟨rfl, rfl, hsep⟩, ⟨x, rfl, rfl, rest, hrest⟩, rfl, rfl⟩
    rw [Cursor.pass_nil] at hrest
    exact ⟨x, hsep x (by simp [← hrest]), rfl, rfl, rest, hrest⟩
  · rintro ⟨x, hx, rfl, rfl, rest, hrest⟩
    refine ⟨[], [], [x], [], ⟨rfl, rfl, ?_⟩, ⟨x, rfl, rfl, rest, ?_⟩, rfl, rfl⟩
    · simpa [← hrest] using hx
    · simpa using hrest

lemma ident_eq : ident = notAhead (exactly ['#']) ++ ((notAhead separator ++ anyChar) ++
    many (notAhead separator ++ anyChar)) := rfl

/-- A label is taken up to the next separator. -/
lemma reads_ident_iff :
    ident.Reads c xs ns ↔
      ns = [] ∧ IsLabel xs ∧ ∃ rest, c.rest = xs ++ rest ∧ ∀ x ∈ rest.head?, x ∈ separators := by
  simp only [ident_eq, reads_append_iff (p := notAhead _), reads_notAhead_iff,
    (readsOne_exactly _).fails_iff]
  constructor
  · rintro ⟨_, _, xs, _, ⟨rfl, rfl, hhash⟩, h, rfl, rfl⟩
    rw [Cursor.pass_nil, reads_append_iff] at h
    obtain ⟨_, _, ys, _, hx, hys, rfl, rfl⟩ := h
    obtain ⟨x, hsep, rfl, rfl, -⟩ := (readsOne_labelChar _ _ _).1 hx
    obtain ⟨rfl, hall, rest, hrest, hstop⟩ := readsOne_labelChar.reads_many_iff.1 hys
    have hc : c.rest = [x] ++ ys ++ rest := by rw [hx.rest_eq, hrest, List.append_assoc]
    refine ⟨rfl, ⟨by simp, ?_, ?_⟩, rest, hc, fun y hy => by simpa using hstop y hy⟩
    · simpa [hc] using hhash
    · simpa using ⟨hsep, hall⟩
  · rintro ⟨rfl, hlabel, rest, hrest, hstop⟩
    refine ⟨[], [], xs, [], ⟨rfl, rfl, ?_⟩, ?_, rfl, rfl⟩
    · obtain ⟨x, xs, rfl⟩ := List.exists_cons_of_ne_nil hlabel.ne_nil
      have := hlabel.head_ne
      simpa [hrest] using this
    · obtain ⟨x, xs, rfl⟩ := List.exists_cons_of_ne_nil hlabel.ne_nil
      have hsep := List.forall_mem_cons.1 hlabel.not_separator
      rw [Cursor.pass_nil]
      have hx : (notAhead separator ++ anyChar).Reads c [x] [] :=
        (readsOne_labelChar _ _ _).2 ⟨x, hsep.1, rfl, rfl, xs ++ rest, hrest.symm⟩
      exact hx.append (readsOne_labelChar.reads_many hsep.2 (Cursor.rest_pass hrest)
        fun y hy => not_not_intro (hstop y hy))

end Automata.Specification.Grammar
