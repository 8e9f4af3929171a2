import Automata.Specification.Reading
import Mathlib

/-!
# The notation of specifications

What a specification looks like is said here of its lines, without the grammar. A text is cut into
lines and the blank ones are left out. Of the others every section has a marker line, then one line
for each of its entries: a label alone, or a transition. Spaces and tabs may stand around every label.
-/

namespace Automata.Specification

/-! ### Lines -/

/-- A text without a line end. -/
def OneLine (l : List Char) : Prop :=
  ∀ x ∈ l, ¬ isLineEnd x

/-- Spaces and tabs only. -/
def Blank (l : List Char) : Prop :=
  ∀ x ∈ l, x = ' ' ∨ x = '\t'

instance : DecidablePred Blank := fun l => List.decidableBAll (fun x => x = ' ' ∨ x = '\t') l

/-- The lines of a text. They end at `\n`, `\r\n` or `\r`, the last one at the end of the text. -/
def cutLines : List Char → List (List Char)
  | [] => [[]]
  | '\r' :: '\n' :: text => [] :: cutLines text
  | x :: text =>
    if isLineEnd x then [] :: cutLines text
    else (cutLines text).modifyHead (x :: ·)

example : cutLines ['a', '\r', '\n', 'b', '\r', '\r', 'c'] = [['a'], ['b'], [], ['c']] := rfl

/-- The lines of a text that are not blank. -/
def contentLines (text : List Char) : List (List Char) :=
  (cutLines text).filter fun l => ¬ Blank l

/-- `e` is what ends a line before `rest`. -/
inductive Ending : List Char → List Char → Prop
  | feed (rest : List Char) : Ending ['\n'] rest
  | returnFeed (rest : List Char) : Ending ['\r', '\n'] rest
  | bareReturn {rest : List Char} (h : rest.head? ≠ some '\n') : Ending ['\r'] rest
  | text : Ending [] []

variable {l e rest text : List Char} {x : Char} {s : String}

@[simp] lemma oneLine_nil : OneLine [] := List.forall_mem_nil _

@[simp] lemma blank_nil : Blank [] := List.forall_mem_nil _

lemma oneLine_cons_iff : OneLine (x :: l) ↔ ¬ isLineEnd x ∧ OneLine l := List.forall_mem_cons

lemma oneLine_append_iff {l' : List Char} : OneLine (l ++ l') ↔ OneLine l ∧ OneLine l' :=
  List.forall_mem_append

lemma blank_append_iff {l' : List Char} : Blank (l ++ l') ↔ Blank l ∧ Blank l' :=
  List.forall_mem_append

lemma Blank.oneLine (h : Blank l) : OneLine l := by
  intro x hx
  rcases h x hx with rfl | rfl <;> decide

/-- Every text has a first line. -/
lemma exists_line (text : List Char) :
    ∃ l e rest, text = l ++ (e ++ rest) ∧ OneLine l ∧ Ending e rest := by
  induction text with
  | nil => exact ⟨[], [], [], rfl, oneLine_nil, .text⟩
  | cons x text ih =>
    by_cases hfeed : x = '\n'
    · subst hfeed
      exact ⟨[], ['\n'], text, rfl, oneLine_nil, .feed text⟩
    by_cases hreturn : x = '\r'
    · subst hreturn
      by_cases hnext : text.head? = some '\n'
      · obtain ⟨rest, rfl⟩ := List.head?_eq_some_iff.1 hnext
        exact ⟨[], ['\r', '\n'], rest, rfl, oneLine_nil, .returnFeed rest⟩
      · exact ⟨[], ['\r'], text, rfl, oneLine_nil, .bareReturn hnext⟩
    · obtain ⟨l, e, rest, rfl, hl, he⟩ := ih
      refine ⟨x :: l, e, rest, rfl, ?_, he⟩
      exact oneLine_cons_iff.2 ⟨by simp [isLineEnd, hfeed, hreturn], hl⟩

lemma Ending.head_not_blank (h : Ending e rest) :
    ∀ x ∈ (e ++ rest).head?, ¬ (x = ' ' ∨ x = '\t') := by
  cases h <;> simp

lemma cutLines_cons (hx : ¬ isLineEnd x) (text : List Char) :
    cutLines (x :: text) = (cutLines text).modifyHead (x :: ·) := by
  rw [cutLines.eq_3, if_neg hx]
  rintro _ rfl
  exact (hx rfl).elim

lemma Ending.cutLines (he : Ending e rest) (hne : e ≠ []) :
    cutLines (e ++ rest) = [] :: cutLines rest := by
  cases he with
  | feed => rw [List.singleton_append, Specification.cutLines.eq_3 _ _ (by simp)]; rfl
  | returnFeed => rfl
  | bareReturn h =>
    rw [List.singleton_append, Specification.cutLines.eq_3]
    · rfl
    · rintro rest' - rfl
      exact h rfl
  | text => exact (hne rfl).elim

/-- A line that is ended is followed by the lines of the rest. -/
lemma cutLines_append (hl : OneLine l) (he : Ending e rest) (hne : e ≠ []) :
    cutLines (l ++ (e ++ rest)) = l :: cutLines rest := by
  induction l with
  | nil => exact he.cutLines hne
  | cons x l ih =>
    obtain ⟨hx, hl⟩ := oneLine_cons_iff.1 hl
    rw [List.cons_append, cutLines_cons hx, ih hl]
    rfl

lemma cutLines_of_oneLine (hl : OneLine l) : cutLines l = [l] := by
  induction l with
  | nil => rfl
  | cons x l ih =>
    obtain ⟨hx, hl⟩ := oneLine_cons_iff.1 hl
    rw [cutLines_cons hx, ih hl]
    rfl

lemma oneLine_of_mem_cutLines (text : List Char) : ∀ l ∈ cutLines text, OneLine l := by
  -- the end of the text, `\r\n`, another line end, and a character of the line
  fun_induction cutLines text with
  | case1 => simp
  | case2 text ih => simpa using ih
  | case3 x text _ _ ih => simpa using ih
  | case4 x text _ hx ih =>
    cases hcut : cutLines text with
    | nil => simp
    | cons l ls =>
      rw [hcut] at ih
      obtain ⟨hl, hls⟩ := List.forall_mem_cons.1 ih
      exact List.forall_mem_cons.2 ⟨oneLine_cons_iff.2 ⟨by simpa using hx, hl⟩, hls⟩

@[simp] lemma contentLines_nil : contentLines [] = [] := by simp [contentLines, cutLines]

lemma contentLines_of_blank (hl : Blank l) (he : Ending e rest) :
    contentLines (l ++ (e ++ rest)) = contentLines rest := by
  by_cases hne : e = []
  · cases he with
    | text => simp [contentLines, cutLines_of_oneLine hl.oneLine, hl, cutLines]
    | _ => nomatch hne
  · rw [contentLines, cutLines_append hl.oneLine he hne, List.filter_cons_of_neg (by simpa using hl)]
    rfl

lemma contentLines_of_not_blank (hb : ¬ Blank l) (hl : OneLine l) (he : Ending e rest) :
    contentLines (l ++ (e ++ rest)) = l :: contentLines rest := by
  by_cases hne : e = []
  · cases he with
    | text => simp [contentLines, cutLines_of_oneLine hl, hb, cutLines]
    | _ => nomatch hne
  · rw [contentLines, cutLines_append hl he hne, List.filter_cons_of_pos (by simpa using hb)]
    rfl

/-! ### Labels and transitions -/

/-- The characters that no label holds. -/
def separators : List Char :=
  [' ', '\t', '\r', '\n', ':', '>', ',']

lemma Ending.head_mem_separators (h : Ending e rest) :
    ∀ x ∈ (e ++ rest).head?, x ∈ separators := by
  cases h <;> simp [separators]

/-- A label has a character, no `#` at its start, and no separator. -/
structure IsLabel (x : List Char) : Prop where
  ne_nil : x ≠ []
  head_ne : x.head? ≠ some '#'
  not_separator : ∀ y ∈ x, y ∉ separators

instance : DecidablePred IsLabel := fun x =>
  haveI : Decidable (∀ y ∈ x, y ∉ separators) := List.decidableBAll _ x
  decidable_of_iff (x ≠ [] ∧ x.head? ≠ some '#' ∧ ∀ y ∈ x, y ∉ separators)
    ⟨fun ⟨h₁, h₂, h₃⟩ => ⟨h₁, h₂, h₃⟩, fun h => ⟨h.ne_nil, h.head_ne, h.not_separator⟩⟩

lemma IsLabel.head_not_blank {s : List Char} (h : IsLabel s) :
    ∀ x ∈ (s ++ rest).head?, ¬ (x = ' ' ∨ x = '\t') := by
  obtain ⟨y, s, rfl⟩ := List.exists_cons_of_ne_nil h.ne_nil
  have hy := h.not_separator y List.mem_cons_self
  simp only [separators, List.mem_cons, not_or] at hy
  simpa using ⟨hy.1, hy.2.1⟩

lemma Blank.head_mem_separators {b : List Char} (h : Blank b)
    (hrest : ∀ x ∈ rest.head?, x ∈ separators) : ∀ x ∈ (b ++ rest).head?, x ∈ separators := by
  cases b with
  | nil => exact hrest
  | cons y b =>
    have hy := h y List.mem_cons_self
    simpa [separators, or_assoc] using hy.imp_right .inl

/-- The label `s` alone, among spaces and tabs. -/
def HoldsLabel (l : List Char) (s : String) : Prop :=
  ∃ a b, Blank a ∧ Blank b ∧ IsLabel s.toList ∧ l = a ++ (s.toList ++ b)

/-- The symbol `a`, or nothing for the empty move. -/
def HoldsSymbol (l : List Char) (a : String) : Prop :=
  HoldsLabel l a ∨ Blank l ∧ a = epsilon

lemma symbolOf_ofList {s : List Char} (hs : IsLabel s) : symbolOf (String.ofList s) = String.ofList s := by
  rw [symbolOf, if_neg (by simpa using hs.ne_nil)]

lemma holdsSymbol_symbolOf {a b s : List Char} (ha : Blank a) (hb : Blank b) (hs : IsLabel s ∨ s = []) :
    HoldsSymbol (a ++ (s ++ b)) (symbolOf (String.ofList s)) := by
  rcases hs with hs | rfl
  · rw [symbolOf_ofList hs]
    exact .inl ⟨a, b, ha, hb, by simpa using hs, by simp⟩
  · exact .inr ⟨blank_append_iff.2 ⟨ha, hb⟩, rfl⟩

lemma HoldsSymbol.exists_label {y : String} (h : HoldsSymbol l y) :
    ∃ a s b, l = a ++ (s ++ b) ∧ Blank a ∧ Blank b ∧ (IsLabel s ∨ s = [] ∧ b = []) ∧
      symbolOf (String.ofList s) = y := by
  rcases h with ⟨a, b, ha, hb, hs, rfl⟩ | ⟨hl, rfl⟩
  · exact ⟨a, y.toList, b, rfl, ha, hb, .inl hs, by simpa using symbolOf_ofList hs⟩
  · exact ⟨l, [], [], by simp, hl, blank_nil, .inr ⟨rfl, rfl⟩, rfl⟩

/-- One label or more, with commas between them. -/
inductive HoldsLabels : List Char → List String → Prop
  | last {l : List Char} {s : String} (h : HoldsLabel l s) : HoldsLabels l [s]
  | more {l ls : List Char} {s : String} {ss : List String} (h : HoldsLabel l s)
      (h' : HoldsLabels ls ss) : HoldsLabels (l ++ ',' :: ls) (s :: ss)

/-- What may follow a label in such a list: spaces and tabs only, or more of the list. -/
def HoldsRest (l : List Char) (ss : List String) : Prop :=
  Blank l ∧ ss = [] ∨ ∃ b ls, l = b ++ ',' :: ls ∧ Blank b ∧ HoldsLabels ls ss

lemma holdsLabels_iff {ss : List String} :
    HoldsLabels l ss ↔ ∃ a s r ss', l = a ++ (s.toList ++ r) ∧ ss = s :: ss' ∧ Blank a ∧
      IsLabel s.toList ∧ HoldsRest r ss' := by
  constructor
  · intro h
    cases h with
    | last h =>
      obtain ⟨a, b, ha, hb, hs, rfl⟩ := h
      exact ⟨a, _, b, [], rfl, rfl, ha, hs, .inl ⟨hb, rfl⟩⟩
    | more h h' =>
      obtain ⟨a, b, ha, hb, hs, rfl⟩ := h
      exact ⟨a, _, b ++ ',' :: _, _, by simp, rfl, ha, hs, .inr ⟨b, _, rfl, hb, h'⟩⟩
  · rintro ⟨a, s, r, ss', rfl, rfl, ha, hs, ⟨hr, rfl⟩ | ⟨b, ls, rfl, hb, h'⟩⟩
    · exact .last ⟨a, r, ha, hr, hs, rfl⟩
    · have h : HoldsLabel (a ++ (s.toList ++ b)) s := ⟨a, b, ha, hb, hs, rfl⟩
      simpa using HoldsLabels.more h h'

lemma HoldsLabels.blank_append {a : List Char} {ss : List String} (h : HoldsLabels l ss)
    (ha : Blank a) : HoldsLabels (a ++ l) ss := by
  obtain ⟨a', s, r, ss', rfl, rfl, ha', hs, hr⟩ := holdsLabels_iff.1 h
  rw [← List.append_assoc]
  exact holdsLabels_iff.2 ⟨a ++ a', s, r, ss', rfl, rfl, blank_append_iff.2 ⟨ha, ha'⟩, hs, hr⟩

lemma HoldsRest.head_mem_separators {r : List Char} {ss : List String} (h : HoldsRest r ss)
    (he : Ending e rest) : ∀ x ∈ (r ++ (e ++ rest)).head?, x ∈ separators := by
  rcases h with ⟨hr, -⟩ | ⟨b, ls, rfl, hb, -⟩
  · exact hr.head_mem_separators he.head_mem_separators
  · rw [List.append_assoc]
    exact hb.head_mem_separators (by simp [separators])

/-- The source, the symbol and the targets of `t`, with their marks. -/
def HoldsTransition (l : List Char) (t : Transition) : Prop :=
  ∃ a b c, l = a ++ ':' :: (b ++ '>' :: c) ∧
    HoldsLabel a t.source ∧ HoldsSymbol b t.symbol ∧ HoldsLabels c t.targets

/-! ### Lines with an entry -/

/-- What lines with an entry are told by: they are not cut, not left out and not taken for a marker. -/
structure EntryLines {α : Type} (Holds : List Char → α → Prop) : Prop where
  oneLine {l : List Char} {v : α} (h : Holds l v) : OneLine l
  not_blank {l : List Char} {v : α} (h : Holds l v) : ¬ Blank l
  head_ne {l : List Char} {v : α} (h : Holds l v) : l.head? ≠ some '#'

lemma IsLabel.oneLine {s : List Char} (h : IsLabel s) : OneLine s := by
  intro x hx hend
  apply h.not_separator x hx
  simp only [isLineEnd, Bool.or_eq_true, beq_iff_eq] at hend
  rcases hend with rfl | rfl <;> simp [separators]

lemma HoldsLabel.oneLine (h : HoldsLabel l s) : OneLine l := by
  obtain ⟨a, b, ha, hb, hs, rfl⟩ := h
  simp only [oneLine_append_iff]
  exact ⟨ha.oneLine, hs.oneLine, hb.oneLine⟩

lemma HoldsSymbol.oneLine (h : HoldsSymbol l s) : OneLine l := by
  rcases h with h | ⟨h, -⟩
  · exact h.oneLine
  · exact Blank.oneLine h

lemma HoldsLabels.oneLine {ss : List String} (h : HoldsLabels l ss) : OneLine l := by
  induction h with
  | last h => exact h.oneLine
  | more h _ ih =>
    rw [oneLine_append_iff, oneLine_cons_iff]
    exact ⟨h.oneLine, by decide, ih⟩

lemma HoldsLabel.exists_cons (h : HoldsLabel l s) :
    ∃ x l', l = x :: l' ∧ x ≠ '#' ∧ ¬ Blank l := by
  obtain ⟨a, b, ha, hb, hs, rfl⟩ := h
  obtain ⟨y, s', hy⟩ := List.exists_cons_of_ne_nil hs.ne_nil
  have hblank : ¬ Blank (a ++ (s.toList ++ b)) := by
    intro hall
    apply hs.not_separator y (by simp [hy])
    rcases hall y (by simp [hy]) with rfl | rfl <;> simp [separators]
  cases a with
  | nil => exact ⟨y, s' ++ b, by simp [hy], by simpa [hy] using hs.head_ne, hblank⟩
  | cons x a =>
    refine ⟨x, a ++ (s.toList ++ b), rfl, ?_, hblank⟩
    rcases ha x List.mem_cons_self with rfl | rfl <;> decide

lemma entryLines_label : EntryLines HoldsLabel where
  oneLine h := h.oneLine
  not_blank h := by
    obtain ⟨x, l', -, -, hblank⟩ := h.exists_cons
    exact hblank
  head_ne h := by
    obtain ⟨x, l', rfl, hx, -⟩ := h.exists_cons
    simpa using hx

lemma entryLines_transition : EntryLines HoldsTransition where
  oneLine h := by
    obtain ⟨a, b, c, rfl, ha, hb, hc⟩ := h
    simp only [oneLine_append_iff, oneLine_cons_iff]
    exact ⟨ha.oneLine, by decide, hb.oneLine, by decide, hc.oneLine⟩
  not_blank h := by
    obtain ⟨a, b, c, rfl, -⟩ := h
    intro hblank
    have := hblank ':' (by simp)
    simp at this
  head_ne h := by
    obtain ⟨a, b, c, rfl, ha, -⟩ := h
    obtain ⟨x, l', rfl, hx, -⟩ := ha.exists_cons
    simpa using hx

/-! ### Sections -/

/-- The line of the marker, and then a line for each entry. -/
def HoldsSection {α : Type} (marker : String) (Holds : List Char → α → Prop) (entries : List α)
    (lines : List (List Char)) : Prop :=
  ∃ b body, Blank b ∧ lines = (marker.toList ++ b) :: body ∧ List.Forall₂ Holds body entries

/-- The lines are those of five sections, and `m` has their entries. -/
def Declares (lines : List (List Char)) (m : Automaton) : Prop :=
  ∃ states initial accepting alphabet transitions,
    lines = states ++ (initial ++ (accepting ++ (alphabet ++ transitions))) ∧
      HoldsSection "#states" HoldsLabel m.states states ∧
      HoldsSection "#initial" HoldsLabel m.initial initial ∧
      HoldsSection "#accepting" HoldsLabel m.accepting accepting ∧
      HoldsSection "#alphabet" HoldsLabel m.alphabet alphabet ∧
      HoldsSection "#transitions" HoldsTransition m.transitions transitions

end Automata.Specification
