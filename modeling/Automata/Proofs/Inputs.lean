import Automata.Proofs.Samples
import Automata.Proofs.Steering

/-!
# Random inputs

A text that is drawn for an automaton is joined from one to fifteen of its symbols. A query takes the
text apart again, character by character. Where every symbol is one character this gives the symbols
back, and every text that is drawn is an input over the alphabet. Where some symbol is longer, nothing
tells where it ends; then there are texts that are drawn, and are no such inputs.
-/

namespace Automata.Specification

variable {spec : String} {m : Automaton} {ls : List (List Char)} {a : String}

/-! ### The symbols of an automaton that was read -/

lemma HoldsSection.length_le {α : Type} {marker : String}
    {Holds : List Char → α → Prop} {entries : List α} (h : HoldsSection marker Holds entries ls) :
    entries.length ≤ ls.length := by
  obtain ⟨b, body, -, rfl, hentries⟩ := h
  rw [List.length_cons, hentries.length_eq]
  exact Nat.le_succ _

lemma Declares.length_alphabet_le (h : Declares ls m) :
    m.alphabet.length ≤ ls.length := by
  obtain ⟨_, _, _, _, _, rfl, -, -, -, halphabet, -⟩ := h
  have := halphabet.length_le
  simp only [List.length_append]
  omega

lemma length_le_sizeOfLines (ls : List (List Char)) : ls.length ≤ sizeOfLines ls := by
  induction ls with
  | nil => exact le_rfl
  | cons l ls ih =>
    rw [List.length_cons, sizeOfLines]
    omega

/-- Every symbol takes a line of the text. -/
lemma length_alphabet_le_of_parse (h : parse spec = .ok m) :
    m.alphabet.length ≤ maxSpecificationSize + 1 := by
  obtain ⟨hsize, hread, -⟩ := (parse_eq_ok_iff _ _).1 h
  calc m.alphabet.length
    _ ≤ (contentLines spec.toList).length := ((read_eq_ok_iff _ _).1 hread).1.length_alphabet_le
    _ ≤ sizeOfLines (contentLines spec.toList) := length_le_sizeOfLines _
    _ ≤ String.utf8Len spec.toList + 1 := sizeOfLines_contentLines_le _
    _ ≤ maxSpecificationSize + 1 := by
      rw [String.utf8Len_toList]
      exact Nat.succ_le_succ hsize

lemma length_pos_of_mem_alphabet (h : parse spec = .ok m) (ha : a ∈ m.alphabet) :
    0 < a.length := by
  obtain ⟨-, hread, -⟩ := (parse_eq_ok_iff _ _).1 h
  have hlabel := ((read_eq_ok_iff _ _).1 hread).1.isLabelled.alphabet a ha
  rw [← String.length_toList]
  exact List.length_pos_iff.2 hlabel.ne_nil

end Automata.Specification

namespace Automata.Random

open Specification

variable {spec text : String} {m : Automaton} {w : List String}

/-! ### Texts that are drawn -/

/-- Taken apart character by character, the text is one to fifteen symbols of the alphabet. -/
def IsInput (m : Automaton) (text : String) : Prop :=
  symbolsOf text ⊆ m.alphabet ∧ 1 ≤ (symbolsOf text).length ∧ (symbolsOf text).length ≤ 15

lemma symbolsOf_join_of_length (hw : ∀ a ∈ w, a.length = 1) : symbolsOf (String.join w) = w := by
  refine symbolsOf_join fun a ha => ?_
  have hone := hw a ha
  rw [← String.length_toList, List.length_eq_one_iff] at hone
  obtain ⟨c, hc⟩ := hone
  exact ⟨c, by rw [← String.toList_inj, hc, String.toList_singleton]⟩

/-- All words of one to fifteen symbols can be drawn. -/
lemma steersTo_randomInput {alphabet : List String} (hlength : alphabet.length ≤ 2 ^ 32)
    (hw : w ⊆ alphabet) (hpos : 1 ≤ w.length) (hmost : w.length ≤ 15) :
    (randomInput alphabet : Draw ListedWords String).SteersTo (String.join w) := by
  cases alphabet with
  | nil =>
    rw [List.subset_nil.1 hw] at hpos
    nomatch hpos
  | cons x l =>
    refine (steersTo_between hpos hmost (by decide)).bind (Draw.SteersTo.bind (a := w) ?_ (.pure _))
    refine .mapM (List.forall₂_iff_get.2 ⟨by simp, fun i _ hi => ?_⟩)
    exact steersTo_choose (hw (List.get_mem w ⟨i, hi⟩)) hlength

/-- Fifteen times a longer symbol are too many characters. -/
lemma not_isInput_join_replicate {a : String} (ha : 1 < a.length) :
    ¬ IsInput m (String.join (List.replicate 15 a)) := by
  rintro ⟨-, -, hmost⟩
  rw [length_symbolsOf, String.length_join, List.map_replicate, List.sum_replicate,
    smul_eq_mul] at hmost
  omega

/-- What is drawn for an automaton is always an input over its alphabet just if all its symbols are
single characters. What is joined for it is one to fifteen symbols in any case. -/
theorem forall_isInput_iff (h : parse spec = .ok m) (hne : m.alphabet ≠ []) :
    ((∀ words : List (BitVec 64),
        IsInput m ((randomInput m.alphabet).run (ListedWords.mk words)).1) ↔
      ∀ a ∈ m.alphabet, a.length = 1) ∧
    ∀ (σ : Type) [WordSource σ] (words : σ), let text := ((randomInput m.alphabet).run words).1
      (∃ w, w ⊆ m.alphabet ∧ 1 ≤ w.length ∧ w.length ≤ 15 ∧ text = String.join w) ∧
        ((∀ a ∈ m.alphabet, a.length = 1) → IsInput m text) := by
  have joined : ∀ (σ : Type) [WordSource σ] (words : σ),
      ∃ w, w ⊆ m.alphabet ∧ 1 ≤ w.length ∧ w.length ≤ 15 ∧
        ((randomInput m.alphabet).run words).1 = String.join w := by
    intro σ _ words
    rcases (Draw.gives_run (randomInput m.alphabet) words).of_randomInput with ⟨hnil, -⟩ | hw
    · exact absurd hnil hne
    · exact hw
  have single : (∀ a ∈ m.alphabet, a.length = 1) → ∀ (σ : Type) [WordSource σ] (words : σ),
      IsInput m ((randomInput m.alphabet).run words).1 := by
    intro hone σ _ words
    obtain ⟨w, hw, hpos, hmost, htext⟩ := joined σ words
    rw [htext, IsInput, symbolsOf_join_of_length fun a ha => hone a (hw ha)]
    exact ⟨hw, hpos, hmost⟩
  refine ⟨⟨fun hall a ha => ?_, fun hone words => single hone _ _⟩,
    fun σ _ words => ⟨joined σ words, fun hone => single hone σ words⟩⟩
  by_contra hlength
  have hpos := length_pos_of_mem_alphabet h ha
  have hsmall := (length_alphabet_le_of_parse h).trans (show _ ≤ 2 ^ 32 by decide)
  have hw : List.replicate 15 a ⊆ m.alphabet := by
    intro b hb
    rwa [List.eq_of_mem_replicate hb]
  obtain ⟨⟨words⟩, hwords⟩ := (steersTo_randomInput hsmall hw (by simp) (by simp)).gives
  have hinput := hall words
  rw [hwords] at hinput
  exact not_isInput_join_replicate (by omega) hinput

/-- An automaton for all words over a symbol of one character and one of two. -/
def longSymbol : Automaton :=
  ⟨["s"], ["s"], ["s"], ["a", "bc"], [⟨"s", "a", ["s"]⟩, ⟨"s", "bc", ["s"]⟩]⟩

/-- A specification of it. -/
def longSymbolText : String :=
  "#states\ns\n#initial\ns\n#accepting\ns\n#alphabet\na\nbc\n#transitions\ns:a>s\ns:bc>s"

theorem exists_not_isInput_longSymbol :
    parse longSymbolText = .ok longSymbol ∧ longSymbol.alphabet ≠ [] ∧
      ∃ words : List (BitVec 64),
        ¬ IsInput longSymbol ((randomInput longSymbol.alphabet).run (ListedWords.mk words)).1 := by
  have hparse : parse longSymbolText = .ok longSymbol := by cbv
  have hne : longSymbol.alphabet ≠ [] := by decide
  refine ⟨hparse, hne, ?_⟩
  by_contra hall
  have hone := (forall_isInput_iff hparse hne).1.1 (not_exists_not.1 hall) "bc" (by decide)
  exact absurd hone (by decide)

/-- These words draw the symbol of two characters, which is no symbol of the alphabet and then
another. -/
theorem randomInput_longSymbol :
    parse longSymbolText = .ok longSymbol ∧ longSymbol.alphabet ≠ [] ∧
      ((randomInput longSymbol.alphabet).run (ListedWords.mk [0, 0x80000000])).1 = "bc" ∧
      symbolsOf "bc" = ["b", "c"] ∧ ¬ IsInput longSymbol "bc" := by
  refine ⟨by cbv, by decide, by cbv, by decide, fun h => ?_⟩
  exact absurd (h.1 (by decide : "b" ∈ symbolsOf "bc")) (by decide)

end Automata.Random
