import Automata.Proofs.Outcomes
import Automata.Specification.Writing

/-!
# Writing and reading

The lines that are written for an automaton declare it, provided that its states and symbols are
labels. Joined to a text they are its lines of content. So what is written is read back, and two
automata with the same text are the same.
-/

namespace Automata.Specification

open Grammar

variable {α : Type} {Holds : List Char → α → Prop} {m : Automaton} {t : Transition}
  {l : List Char} {ls : List (List Char)} {marker : String} {entries : List α}

/-! ### Joined lines -/

/-- Lines of content are the lines of content of the text that they are joined to. -/
lemma contentLines_intercalate (h : ∀ l ∈ ls, OneLine l ∧ ¬ Blank l) :
    contentLines (['\n'].intercalate ls) = ls := by
  induction ls with
  | nil => exact contentLines_nil
  | cons l ls ih =>
    obtain ⟨⟨hl, hb⟩, hls⟩ := List.forall_mem_cons.1 h
    cases ls with
    | nil =>
      have := contentLines_of_not_blank hb hl .text
      simpa using this
    | cons l' ls =>
      have hjoin : ['\n'].intercalate (l :: l' :: ls) =
          l ++ (['\n'] ++ ['\n'].intercalate (l' :: ls)) := by simp
      rw [hjoin, contentLines_of_not_blank hb hl (.feed _), ih hls]

lemma EntryLines.content (hl : EntryLines Holds) (h : List.Forall₂ Holds ls entries) :
    ∀ l ∈ ls, OneLine l ∧ ¬ Blank l := by
  induction h with
  | nil => simp
  | cons h _ ih => exact List.forall_mem_cons.2 ⟨⟨hl.oneLine h, hl.not_blank h⟩, ih⟩

lemma HoldsSection.content (h : HoldsSection marker Holds entries ls) (hm : IsMarker marker)
    (hl : EntryLines Holds) : ∀ l ∈ ls, OneLine l ∧ ¬ Blank l := by
  obtain ⟨b, body, hb, rfl, hbody⟩ := h
  exact List.forall_mem_cons.2
    ⟨⟨oneLine_append_iff.2 ⟨hm.2, hb.oneLine⟩, hm.not_blank b⟩, hl.content hbody⟩

/-- Lines that declare an automaton are lines of content. -/
lemma Declares.content (h : Declares ls m) : ∀ l ∈ ls, OneLine l ∧ ¬ Blank l := by
  obtain ⟨ls₁, ls₂, ls₃, ls₄, ls₅, rfl, h₁, h₂, h₃, h₄, h₅⟩ := h
  simp only [List.forall_mem_append]
  exact ⟨h₁.content (isMarker_of_mem (by simp)) entryLines_label,
    h₂.content (isMarker_of_mem (by simp)) entryLines_label,
    h₃.content (isMarker_of_mem (by simp)) entryLines_label,
    h₄.content (isMarker_of_mem (by simp)) entryLines_label,
    h₅.content (isMarker_of_mem (by simp)) entryLines_transition⟩

/-! ### Lines that are written -/

/-- The states and symbols of the automaton are labels. -/
structure IsLabelled (m : Automaton) : Prop where
  states : ∀ s ∈ m.states, IsLabel s.toList
  alphabet : ∀ a ∈ m.alphabet, IsLabel a.toList

lemma IsLabel.holdsLabel {s : String} (h : IsLabel s.toList) : HoldsLabel s.toList s :=
  ⟨[], [], blank_nil, blank_nil, h, by simp⟩

lemma isLabel_epsilon : IsLabel epsilon.toList := by
  decide

lemma holdsLabels_intercalate {ss : List String} (hne : ss ≠ [])
    (h : ∀ s ∈ ss, IsLabel s.toList) : HoldsLabels (",".intercalate ss).toList ss := by
  induction ss with
  | nil => exact (hne rfl).elim
  | cons s ss ih =>
    obtain ⟨hs, hss⟩ := List.forall_mem_cons.1 h
    cases ss with
    | nil => simpa using HoldsLabels.last hs.holdsLabel
    | cons s' ss =>
      have := HoldsLabels.more hs.holdsLabel (ih (by simp) hss)
      simpa using this

/-- The line of a transition holds it. -/
lemma holdsTransition_transitionLine (hp : IsLabel t.source.toList) (hx : IsLabel t.symbol.toList)
    (hne : t.targets ≠ []) (hts : ∀ q ∈ t.targets, IsLabel q.toList) :
    HoldsTransition (transitionLine t).toList t := by
  refine ⟨t.source.toList, t.symbol.toList, _, ?_, hp.holdsLabel, .inl hx.holdsLabel,
    holdsLabels_intercalate hne hts⟩
  simp [transitionLine, Transition.key]

lemma forall₂_toList {ss : List String} (h : ∀ s ∈ ss, IsLabel s.toList) :
    List.Forall₂ HoldsLabel (ss.map String.toList) ss := by
  rw [List.forall₂_map_left_iff, List.forall₂_same]
  exact fun s hs => (h s hs).holdsLabel

lemma holdsSection_cons {body : List (List Char)} (h : List.Forall₂ Holds body entries) :
    HoldsSection marker Holds entries (marker.toList :: body) :=
  ⟨[], body, blank_nil, by simp, h⟩

/-- The lines that are written for a sound automaton with labels declare it. -/
lemma declares_linesOf (hs : m.Sound) (hm : IsLabelled m) :
    Declares ((linesOf m).map String.toList) m := by
  have hinitial : ∀ s ∈ m.initial, IsLabel s.toList := fun s h => hm.states s (hs.initial_subset h)
  have haccepting : ∀ s ∈ m.accepting, IsLabel s.toList :=
    fun s h => hm.states s (hs.accepting_subset h)
  have htransitions : ∀ t ∈ m.transitions, HoldsTransition (transitionLine t).toList t := by
    intro t ht
    refine holdsTransition_transitionLine (hm.states _ (hs.source_mem t ht)) ?_
      (hs.targets_ne_nil t ht) fun q hq => hm.states q (hs.targets_subset t ht hq)
    rcases hs.symbol_mem t ht with hx | hx
    · rw [hx]
      exact isLabel_epsilon
    · exact hm.alphabet _ hx
  have hbody : List.Forall₂ HoldsTransition
      (m.transitions.map fun t => (transitionLine t).toList) m.transitions := by
    rw [List.forall₂_map_left_iff, List.forall₂_same]
    exact htransitions
  exact ⟨_, _, _, _, _, by simp [linesOf, Function.comp_def],
    holdsSection_cons (forall₂_toList hm.states), holdsSection_cons (forall₂_toList hinitial),
    holdsSection_cons (forall₂_toList haccepting), holdsSection_cons (forall₂_toList hm.alphabet),
    holdsSection_cons hbody⟩

lemma toList_encode (m : Automaton) :
    (encode m).toList = ['\n'].intercalate ((linesOf m).map String.toList) :=
  String.toList_intercalate

/-- What is written for a sound automaton with labels declares it. -/
lemma declares_encode (hs : m.Sound) (hm : IsLabelled m) :
    Declares (contentLines (encode m).toList) m := by
  have h := declares_linesOf hs hm
  rwa [toList_encode, contentLines_intercalate h.content]

/-- What is written is read back if it is not too long. -/
lemma parse_encode_of_size_le (hw : m.WellFormed) (hm : IsLabelled m)
    (hsize : (encode m).utf8ByteSize ≤ maxSpecificationSize) : parse (encode m) = .ok m :=
  Outcome.parse_eq (.sound hsize (declares_encode hw.toSound hm) hw)

/-! ### The round trip -/

/-- An automaton that can be written: it is sound, a source and symbol have one transition, its
states and symbols are labels, and the text is not too long. -/
structure Writable (m : Automaton) : Prop where
  valid : m.validate = .ok ()
  nodup_keys : (m.transitions.map fun t => (t.source, t.symbol)).Nodup
  labelled : IsLabelled m
  size_le : (encode m).utf8ByteSize ≤ maxSpecificationSize

/-- Reading what was written gives the automaton back, so no other one is written so. -/
theorem parse_encode (h : Writable m) :
    parse (encode m) = .ok m ∧ ∀ m', Writable m' → encode m' = encode m → m' = m := by
  have hparse : ∀ {m}, Writable m → parse (encode m) = .ok m := by
    intro m h
    have hs := m.validate_eq_ok_iff.1 h.valid
    exact parse_encode_of_size_le { hs with nodup_keys := h.nodup_keys } h.labelled h.size_le
  refine ⟨hparse h, ?_⟩
  intro m' h' heq
  have := hparse h'
  rw [heq, hparse h] at this
  exact (Except.ok.inj this).symm

/-- Labels that look like marks of the notation: a state with a `#`, a state that is the empty-move
marker, one of a quotation mark and a backslash. -/
def markLikeLabels : Automaton :=
  ⟨["s#0", "$", "\"λ\\"], ["s#0"], [], ["é$"],
    [⟨"s#0", "$", ["$", "s#0"]⟩, ⟨"$", "é$", ["\"λ\\"]⟩]⟩

/-- Such labels are read back. -/
theorem parse_encode_markLikeLabels :
    Writable markLikeLabels ∧ parse (encode markLikeLabels) = .ok markLikeLabels := by
  have h : Writable markLikeLabels :=
    { valid := by cbv
      nodup_keys := by decide
      labelled := ⟨by decide, by decide⟩
      size_le := by cbv }
  exact ⟨h, (parse_encode h).1⟩

end Automata.Specification
