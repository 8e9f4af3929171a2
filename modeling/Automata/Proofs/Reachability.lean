import Automata.Proofs.Edges
import Automata.Proofs.Search

/-!
# The search for unreachable states

The search follows the transitions of any symbol from all initial states. Whatever the automaton, it
ends, and it has visited what chains of transitions lead to by then, whether that is declared or not.
So the states that it leaves out are the ones to which no chain leads.
-/

namespace Automata

open Relation (ReflTransGen)

variable {m : Automaton} {p q : String}

/-! ### What the search finds -/

/-- Some transition leads from `p` to `q`, whatever its symbol. -/
def Automaton.Joins (m : Automaton) (p q : String) : Prop :=
  ∃ x, m.HasEdge p x q

lemma Automaton.mem_successorsOf : q ∈ m.successorsOf p ↔ m.Joins p q := by
  simp only [successorsOf, List.mem_flatMap, List.mem_filter, beq_iff_eq, Joins, HasEdge]
  constructor
  · rintro ⟨t, ⟨ht, hp⟩, hq⟩
    exact ⟨t.symbol, t, ht, hp, rfl, hq⟩
  · rintro ⟨x, t, ht, hp, -, hq⟩
    exact ⟨t, ⟨ht, hp⟩, hq⟩

/-- The search goes from label to label as transitions do. -/
lemma Automaton.reaches_successors_iff :
    m.successors.Reaches p q ↔ ReflTransGen m.Joins p q := by
  constructor
  · intro h
    induction h with
    | refl => exact .refl
    | @step q r us _ hus hr ih =>
      obtain rfl : m.successorsOf q = us := Except.ok.inj hus
      exact ih.tail (mem_successorsOf.1 hr)
  · intro h
    induction h with
    | refl => exact .refl
    | tail _ hjoins ih => exact .step ih rfl (mem_successorsOf.2 hjoins)

lemma Automaton.explore_successors (m : Automaton) :
    m.successors.explore m.initial ∅ = .ok m.reachable := by
  rw [reachable]
  cases m.successors.explore m.initial ∅ with
  | error e => nomatch e
  | ok visited => rfl

lemma Automaton.mem_reachable :
    q ∈ m.reachable ↔ ∃ p ∈ m.initial, m.successors.Reaches p q := by
  have h := Successors.finds_explore (Successors.frontier_empty (σ := m.successors) m.initial)
  rw [explore_successors] at h
  rw [h.2 q]
  simp

lemma Automaton.mem_unreachable :
    q ∈ m.unreachable ↔ q ∈ m.states ∧ ∀ p ∈ m.initial, ¬ m.successors.Reaches p q := by
  simp [unreachable, mem_reachable]

/-! ### How long the search takes -/

/-- A target belongs to one source, however many lines the source has. -/
lemma sum_length_targets_le (ts : List Transition) (labels : Finset String) :
    ∑ s ∈ labels, ((ts.filter (·.source == s)).flatMap (·.targets)).length ≤
      (ts.flatMap (·.targets)).length := by
  induction ts with
  | nil => simp
  | cons t ts ih =>
    have hsplit : ∀ s, (((t :: ts).filter (·.source == s)).flatMap (·.targets)).length =
        (if t.source = s then t.targets.length else 0) +
          ((ts.filter (·.source == s)).flatMap (·.targets)).length := by
      intro s
      by_cases hs : t.source = s <;> simp [hs]
    have hhead : ∑ s ∈ labels, (if t.source = s then t.targets.length else 0) ≤
        t.targets.length := by
      rw [Finset.sum_ite_eq]
      split <;> omega
    simp only [hsplit, Finset.sum_add_distrib, List.flatMap_cons, List.length_append]
    exact Nat.add_le_add hhead ih

lemma Automaton.pending_successors_le (m : Automaton) :
    m.successors.pending ∅ m.successors.sources.dedup ≤ m.transitionCount := by
  have hfilter : m.successors.sources.dedup.filter (· ∉ (∅ : Std.TreeSet String)) =
      m.successors.sources.dedup := List.filter_eq_self.2 fun s _ => by simp
  rw [Successors.pending, hfilter, ← List.sum_toFinset _ (List.nodup_dedup _)]
  exact sum_length_targets_le m.transitions _

/-! ### The search is exact -/

open Classical in
/-- For every automaton, sound or not, the search takes no more labels from its queue than there are
initial states and targets. It has then visited just the labels that chains of transitions lead to from
initial states, and reports all other entries of the list of states, in their order. -/
theorem Automaton.unreachable_exact (m : Automaton) :
    (∃ n ≤ m.initial.length + m.transitionCount,
      m.successors.EndsAfter m.initial ∅ n (.ok m.reachable)) ∧
    (∀ q, q ∈ m.reachable ↔ ∃ p ∈ m.initial, ReflTransGen m.Joins p q) ∧
    m.unreachable = m.states.filter fun q => ¬ ∃ p ∈ m.initial, ReflTransGen m.Joins p q := by
  have hmem : ∀ q, q ∈ m.reachable ↔ ∃ p ∈ m.initial, ReflTransGen m.Joins p q := fun q => by
    simp only [mem_reachable, reaches_successors_iff]
  refine ⟨?_, hmem, ?_⟩
  · obtain ⟨n, hn, hends⟩ := Successors.exists_endsAfter_of_subset (σ := m.successors)
      (List.subset_dedup _) m.initial ∅
    rw [explore_successors] at hends
    exact ⟨n, hn.trans (Nat.add_le_add_left m.pending_successors_le _), hends⟩
  · exact List.filter_congr fun q _ => by simp only [hmem]

-- A chain may lead through a label that is no state, such as `x`.
example : Automaton.unreachable ⟨["s0", "s1", "s2", "s1"], ["s0"], [], [],
    [⟨"s0", "a", ["x"]⟩, ⟨"x", "b", ["s1"]⟩]⟩ = ["s2"] := by
  cbv

end Automata
