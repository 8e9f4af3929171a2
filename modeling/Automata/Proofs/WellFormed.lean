import Automata.Specification.Reading
import Mathlib

/-!
# Well-formed automata

`Automaton.Sound` says in one place what the checks of `Automaton.defect?` ask for. A specification
promises one thing more of the automaton that is read from it: one transition for a source and symbol.
Both together are `Automaton.WellFormed`.
-/

namespace Automata

/-! ### Sound automata -/

/-- An automaton that breaks none of the rules. -/
structure Automaton.Sound (m : Automaton) : Prop where
  states_ne_nil : m.states ≠ []
  nodup_states : m.states.Nodup
  initial_ne_nil : m.initial ≠ []
  initial_subset : m.initial ⊆ m.states
  accepting_subset : m.accepting ⊆ m.states
  source_mem : ∀ t ∈ m.transitions, t.source ∈ m.states
  targets_subset : ∀ t ∈ m.transitions, t.targets ⊆ m.states
  symbol_mem : ∀ t ∈ m.transitions, t.symbol = epsilon ∨ t.symbol ∈ m.alphabet
  targets_ne_nil : ∀ t ∈ m.transitions, t.targets ≠ []
  nodup_targets : ∀ t ∈ m.transitions, t.targets.Nodup

/-- There is no repetition in a list without doubles that avoids what was seen before. -/
lemma repetitions_eq_nil_iff (seen l : List String) :
    repetitions seen l = [] ↔ l.Nodup ∧ ∀ x ∈ l, x ∉ seen := by
  induction l generalizing seen with
  | nil => simp [repetitions]
  | cons x l ih =>
    rw [repetitions]
    by_cases hx : x ∈ seen
    · simp [hx]
    · simp only [List.contains_iff_mem, hx, if_false, ih, List.nodup_cons, List.mem_cons, not_or]
      constructor
      · rintro ⟨hl, h⟩
        refine ⟨⟨fun hxl => (h x hxl).1 rfl, hl⟩, ?_⟩
        rintro y (rfl | hy)
        · exact hx
        · exact (h y hy).2
      · rintro ⟨⟨hxl, hl⟩, h⟩
        refine ⟨hl, fun y hy => ⟨?_, h y (.inr hy)⟩⟩
        rintro rfl
        exact hxl hy

@[simp] lemma Defect.ofOffenders_eq_none_iff (wrap : List String → Defect)
    (offenders : List String) : Defect.ofOffenders wrap offenders = none ↔ offenders = [] := by
  cases offenders <;> simp [Defect.ofOffenders]

lemma StateSet.toList_ofList_eq_nil_iff (l : List String) :
    (StateSet.ofList l).toList = [] ↔ l = [] := by
  simp only [List.eq_nil_iff_forall_not_mem, StateSet.mem_toList, StateSet.mem_ofList]

lemma Automaton.undeclared_eq_nil_iff (m : Automaton) (labels : List String) :
    m.undeclared labels = [] ↔ labels ⊆ m.states := by
  simp [undeclared, isState, List.filter_eq_nil_iff, List.subset_def]

lemma Automaton.undeclaredUses_eq_nil_iff (m : Automaton) (t : Transition) :
    m.undeclaredUses t = [] ↔ t.source ∈ m.states ∧ t.targets ⊆ m.states := by
  rw [undeclaredUses, List.append_eq_nil_iff, List.map_eq_nil_iff, undeclared_eq_nil_iff]
  simp [isState]

lemma Automaton.keysWhere_eq_nil_iff (m : Automaton) (p : Transition → Bool) :
    m.keysWhere p = [] ↔ ∀ t ∈ m.transitions, p t = false := by
  simp [keysWhere, List.filter_eq_nil_iff]

lemma Automaton.isForeign_eq_false_iff (m : Automaton) (t : Transition) :
    m.isForeign t = false ↔ t.symbol = epsilon ∨ t.symbol ∈ m.alphabet := by
  by_cases h : t.symbol = epsilon <;> simp [isForeign, Transition.isEpsilon, h]

lemma Transition.hasRepeatedTarget_eq_false_iff (t : Transition) :
    t.hasRepeatedTarget = false ↔ t.targets.Nodup := by
  simp [hasRepeatedTarget, repetitions_eq_nil_iff]

/-- The checks find a defect in all automata but the sound ones. -/
theorem Automaton.defect?_eq_none_iff (m : Automaton) : m.defect? = none ↔ m.Sound := by
  simp only [defect?, checks, List.findSome?_eq_none_iff, id, List.forall_mem_cons,
    Defect.ofOffenders_eq_none_iff, StateSet.toList_ofList_eq_nil_iff, repetitions_eq_nil_iff,
    undeclared_eq_nil_iff, List.flatMap_eq_nil_iff, undeclaredUses_eq_nil_iff,
    keysWhere_eq_nil_iff, isForeign_eq_false_iff, Transition.hasRepeatedTarget_eq_false_iff]
  constructor
  · rintro ⟨hs, ⟨hsd, -⟩, hi, his, has, ht, hf, hm, hr, -⟩
    exact
      { states_ne_nil := by simpa using hs
        nodup_states := hsd
        initial_ne_nil := by simpa using hi
        initial_subset := his
        accepting_subset := has
        source_mem := fun t h => (ht t h).1
        targets_subset := fun t h => (ht t h).2
        symbol_mem := hf
        targets_ne_nil := by simpa using hm
        nodup_targets := hr }
  · intro h
    exact ⟨by simpa using h.states_ne_nil, ⟨h.nodup_states, by simp⟩,
      by simpa using h.initial_ne_nil, h.initial_subset, h.accepting_subset,
      fun t ht => ⟨h.source_mem t ht, h.targets_subset t ht⟩, h.symbol_mem,
      by simpa using h.targets_ne_nil, h.nodup_targets, by simp⟩

lemma Automaton.validate_eq_ok_iff (m : Automaton) : m.validate = .ok () ↔ m.Sound := by
  rw [← defect?_eq_none_iff, validate]
  cases m.defect? <;> simp

/-! ### One transition for a source and symbol -/

/-- A sound automaton in which a source and symbol have one transition at most. -/
structure Automaton.WellFormed (m : Automaton) : Prop extends m.Sound where
  nodup_keys : (m.transitions.map fun t => (t.source, t.symbol)).Nodup

namespace Specification

/-- A line whose source and symbol were seen is the first one to repeat them. -/
lemma firstRepeated_cons_of_mem {seen : List (String × String)} {n : Node Rule}
    (hn : ((transitionOf n).source, (transitionOf n).symbol) ∈ seen) (lines : List (Node Rule)) :
    firstRepeated seen (n :: lines) = some n := by
  rw [firstRepeated, if_pos]
  simpa using hn

/-- Behind any other line its source and symbol have been seen as well. -/
lemma firstRepeated_cons_of_not_mem {seen : List (String × String)} {n : Node Rule}
    (hn : ((transitionOf n).source, (transitionOf n).symbol) ∉ seen) (lines : List (Node Rule)) :
    firstRepeated seen (n :: lines) =
      firstRepeated (((transitionOf n).source, (transitionOf n).symbol) :: seen) lines := by
  rw [firstRepeated, if_neg]
  simpa using hn

/-- Lines without a repeated one have pairwise different sources and symbols. -/
lemma firstRepeated_eq_none_iff (seen : List (String × String)) (lines : List (Node Rule)) :
    firstRepeated seen lines = none ↔
      (lines.map fun n => ((transitionOf n).source, (transitionOf n).symbol)).Nodup ∧
        ∀ n ∈ lines, ((transitionOf n).source, (transitionOf n).symbol) ∉ seen := by
  induction lines generalizing seen with
  | nil => simp [firstRepeated]
  | cons n lines ih =>
    by_cases hn : ((transitionOf n).source, (transitionOf n).symbol) ∈ seen
    · simp [firstRepeated_cons_of_mem hn, hn]
    · rw [firstRepeated_cons_of_not_mem hn, ih]
      simp only [List.map_cons, List.nodup_cons, List.mem_map, List.mem_cons, not_or, not_exists,
        not_and]
      constructor
      · rintro ⟨hl, h⟩
        refine ⟨⟨fun k hk e => (h k hk).1 e, hl⟩, ?_⟩
        rintro k (rfl | hk)
        · exact hn
        · exact (h k hk).2
      · rintro ⟨⟨hne, hl⟩, h⟩
        exact ⟨hl, fun k hk => ⟨hne k hk, h k (.inr hk)⟩⟩

/-- The transitions of a syntax tree come from its transition lines. -/
lemma transitions_automatonOf_sublist (n : Node Rule) :
    (automatonOf n).transitions.Sublist ((transitionLines n).map transitionOf) := by
  unfold automatonOf transitionLines
  generalize n.children = sections
  suffices h : ∀ m : Automaton, (sections.foldl withSection m).transitions = m.transitions ∨
      (sections.foldl withSection m).transitions.Sublist
        (((sections.filter (·.rule = .transitions)).flatMap (·.children)).map transitionOf) by
    rcases h .empty with h | h
    · rw [h]; exact List.nil_sublist _
    · exact h
  induction sections with
  | nil => exact fun m => .inl rfl
  | cons s sections ih =>
    intro m
    rw [List.foldl_cons]
    by_cases hs : s.rule = .transitions
    · have hm : (withSection m s).transitions = s.children.map transitionOf := by
        simp [withSection, hs]
      rw [List.filter_cons_of_pos (by simpa using hs), List.flatMap_cons, List.map_append]
      rcases ih (withSection m s) with h | h
      · rw [h, hm]
        exact .inr (List.sublist_append_left _ _)
      · exact .inr (h.trans (List.sublist_append_right _ _))
    · have hm : (withSection m s).transitions = m.transitions := by
        rw [withSection]
        split <;> simp_all
      rw [List.filter_cons_of_neg (by simpa using hs), ← hm]
      exact ih _

/-- What is read comes from a syntax tree without repeated lines. -/
lemma exists_nodes_of_read {text : List Char} {m : Automaton} (h : read text = .ok m) :
    ∃ n ns, nodesOf .automaton text = .ok (n :: ns) ∧
      firstRepeated [] (transitionLines n) = none ∧ automatonOf n = m := by
  rw [read] at h
  cases hn : nodesOf .automaton text with
  | error e =>
    rw [hn] at h
    cases h
  | ok nodes =>
    rw [hn] at h
    cases nodes with
    | nil => cases h
    | cons n ns =>
      replace h : declared text n = .ok m := h
      rw [declared] at h
      split at h
      · cases h
      · next hr => exact ⟨n, ns, rfl, hr, Except.ok.inj h⟩

/-- What a text declares has one transition for a source and symbol at most. -/
lemma nodup_keys_of_read {text : List Char} {m : Automaton} (h : read text = .ok m) :
    (m.transitions.map fun t => (t.source, t.symbol)).Nodup := by
  obtain ⟨n, ns, -, hr, rfl⟩ := exists_nodes_of_read h
  have lines := ((firstRepeated_eq_none_iff _ _).1 hr).1
  have := (transitions_automatonOf_sublist n).map fun t => (t.source, t.symbol)
  rw [List.map_map] at this
  exact lines.sublist this

/-- Reading ends well on texts of admissible size that declare a sound automaton. -/
theorem parse_eq_ok_iff (text : String) (m : Automaton) :
    parse text = .ok m ↔
      text.utf8ByteSize ≤ maxSpecificationSize ∧ read text.toList = .ok m ∧ m.Sound := by
  rw [parse]
  by_cases hsize : maxSpecificationSize < text.utf8ByteSize
  · simp [hsize, Nat.not_le.2 hsize]
  · rw [if_neg hsize]
    cases hr : read text.toList with
    | error e => exact ⟨(nomatch ·), (nomatch ·.2.1)⟩
    | ok m' =>
      show ((do m'.validate; return m') : Except Error Automaton) = .ok m ↔ _
      cases hv : m'.validate with
      | error e =>
        refine ⟨(nomatch ·), fun ⟨_, hm, hs⟩ => ?_⟩
        obtain rfl := Except.ok.inj hm
        rw [m'.validate_eq_ok_iff.2 hs] at hv
        nomatch hv
      | ok u =>
        have hs := m'.validate_eq_ok_iff.1 hv
        constructor
        · intro h
          obtain rfl := Except.ok.inj h
          exact ⟨Nat.le_of_not_lt hsize, rfl, hs⟩
        · rintro ⟨-, hm, -⟩
          obtain rfl := Except.ok.inj hm
          rfl

/-- Every automaton that is read from a specification is well formed. -/
theorem wellFormed_of_parse {text : String} {m : Automaton} (h : parse text = .ok m) :
    m.WellFormed := by
  obtain ⟨-, hr, hs⟩ := (parse_eq_ok_iff text m).1 h
  exact { hs with nodup_keys := nodup_keys_of_read hr }

end Specification

end Automata
