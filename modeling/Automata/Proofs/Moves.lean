import Automata.Proofs.Edges
import Automata.Proofs.WellFormed

/-!
# Moves along edges

A move follows one edge. It reads a symbol that equals the label of the edge, and along an empty edge
it may also read nothing or read any one symbol unseen. `Automaton.Moves` strings moves together, and
`Automaton.Attains` says which states the moves from a start lead to while they read an input.
-/

namespace Automata

variable {m : Automaton} {p q r a : String} {u v w : List String}

/-! ### Moves -/

/-- A move from `p` to `q`, with the symbols that it reads. -/
inductive Automaton.Move (m : Automaton) : String → List String → String → Prop
  | reading {p x q : String} (h : m.HasEdge p x q) : Move m p [x] q
  | silent {p q : String} (h : m.HasEdge p epsilon q) : Move m p [] q
  | skipping {p q : String} (a : String) (h : m.HasEdge p epsilon q) : Move m p [a] q

/-- Moves in a row from `p`, with all that they read. -/
inductive Automaton.Moves (m : Automaton) (p : String) : List String → String → Prop
  | refl : Moves m p [] p
  | tail {u v : List String} {q r : String} (h : Moves m p u q) (h' : m.Move q v r) :
      Moves m p (u ++ v) r

lemma Automaton.move_nil_iff : m.Move p [] q ↔ m.HasEdge p epsilon q :=
  ⟨fun h => by cases h with | silent h => exact h, .silent⟩

lemma Automaton.move_singleton_iff :
    m.Move p [a] q ↔ m.HasEdge p a q ∨ m.HasEdge p epsilon q := by
  constructor
  · intro h
    cases h with
    | reading h => exact .inl h
    | skipping a h => exact .inr h
  · rintro (h | h)
    · exact .reading h
    · exact .skipping a h

lemma Automaton.Move.length_le_one (h : m.Move p w q) : w.length ≤ 1 := by
  cases h <;> simp

lemma Automaton.Moves.single (h : m.Move p w q) : m.Moves p w q :=
  .tail (u := []) .refl h

lemma Automaton.Moves.trans (h : m.Moves p u q) (h' : m.Moves q v r) : m.Moves p (u ++ v) r := by
  induction h' with
  | refl => simpa using h
  | tail _ hm ih => rw [← List.append_assoc]; exact .tail ih hm

/-- The last symbol is read by one move, and only silent moves come after it. -/
lemma Automaton.moves_concat_iff :
    m.Moves p (w ++ [a]) r ↔
      ∃ q q', m.Moves p w q ∧ m.Move q [a] q' ∧ m.Moves q' [] r := by
  constructor
  · intro h
    generalize hw : w ++ [a] = w' at h
    induction h with
    | refl => simp at hw
    | @tail u v q r h hm ih =>
      match v, hm.length_le_one with
      | [], _ =>
        obtain ⟨q₁, q₂, h₁, h₂, h₃⟩ := ih (by simpa using hw)
        exact ⟨q₁, q₂, h₁, h₂, h₃.trans (.single hm)⟩
      | [x], _ =>
        obtain ⟨rfl, hx⟩ := List.append_inj' hw rfl
        obtain rfl := List.singleton_inj.1 hx
        exact ⟨q, r, h, hm, .refl⟩
  · rintro ⟨q, q', h₁, h₂, h₃⟩
    simpa using (h₁.tail h₂).trans h₃

/-- Moves stay among the states. -/
lemma Automaton.HasEdge.mem_states (hm : m.Sound) (h : m.HasEdge p a q) : q ∈ m.states := by
  obtain ⟨t, ht, -, -, hq⟩ := h
  exact hm.targets_subset t ht hq

lemma Automaton.Moves.mem_states (hm : m.Sound) (hp : p ∈ m.states) (h : m.Moves p w q) :
    q ∈ m.states := by
  cases h with
  | refl => exact hp
  | tail _ h => cases h <;> exact HasEdge.mem_states hm ‹_›

/-! ### Starts -/

/-- The states in which runs begin: a deterministic automaton has just the first initial state. -/
def Automaton.starts (m : Automaton) : List String :=
  match m.classify with
  | .deterministic => m.initial.take 1
  | .nonDeterministic => m.initial

lemma Automaton.starts_subset (m : Automaton) : m.starts ⊆ m.initial := by
  rw [starts]
  split
  · exact List.take_subset 1 _
  · exact List.Subset.refl _

lemma Automaton.exists_mem_starts (hm : m.Sound) : ∃ p, p ∈ m.starts := by
  obtain ⟨p, l, hi⟩ := List.exists_cons_of_ne_nil hm.initial_ne_nil
  refine ⟨p, ?_⟩
  rw [starts]
  split <;> simp [hi]

/-- Moves that read `w` lead from a start to `q`. -/
def Automaton.Attains (m : Automaton) (w : List String) (q : String) : Prop :=
  ∃ p ∈ m.starts, m.Moves p w q

lemma Automaton.attains_concat_iff :
    m.Attains (w ++ [a]) r ↔ ∃ q q', m.Attains w q ∧ m.Move q [a] q' ∧ m.Moves q' [] r := by
  simp only [Attains, moves_concat_iff]
  constructor
  · rintro ⟨p, hp, q, q', h₁, h₂, h₃⟩
    exact ⟨q, q', ⟨p, hp, h₁⟩, h₂, h₃⟩
  · rintro ⟨q, q', ⟨p, hp, h₁⟩, h₂, h₃⟩
    exact ⟨p, hp, q, q', h₁, h₂, h₃⟩

lemma Automaton.Attains.mem_states (hm : m.Sound) (h : m.Attains w q) : q ∈ m.states := by
  obtain ⟨p, hp, h⟩ := h
  exact h.mem_states hm (hm.initial_subset (m.starts_subset hp))

/-- Whoever reads an input has read its beginnings. -/
lemma Automaton.Attains.take (h : m.Attains w q) (k : Nat) : ∃ q', m.Attains (w.take k) q' := by
  induction w using List.reverseRecOn generalizing q with
  | nil => exact ⟨q, by simpa using h⟩
  | append_singleton w a ih =>
    obtain ⟨q', -, h', -⟩ := attains_concat_iff.1 h
    by_cases hk : k ≤ w.length
    · rw [List.take_append_of_le_length hk]
      exact ih h'
    · rw [List.take_of_length_le (by simp; omega)]
      exact ⟨q, h⟩

/-! ### Deterministic automata -/

lemma Automaton.hasBranching_iff (m : Automaton) :
    m.hasBranching = true ↔
      ∃ t ∈ m.transitions, t.symbol ∈ m.alphabet ∧ 1 < t.targets.length := by
  simp [hasBranching]

lemma Automaton.hasEpsilon_iff (m : Automaton) :
    m.hasEpsilon = true ↔ ∃ t ∈ m.transitions, t.symbol = epsilon ∧ t.targets ≠ [] := by
  simp [hasEpsilon, Transition.isEpsilon]

lemma Automaton.not_hasEdge_epsilon (hd : m.classify = .deterministic) :
    ¬ m.HasEdge p epsilon q := by
  rintro ⟨t, ht, -, hx, hq⟩
  have hnone := ((m.classify_eq_deterministic_iff).1 hd).2
  rw [Bool.eq_false_iff, Ne, hasEpsilon_iff] at hnone
  exact hnone ⟨t, ht, hx, List.ne_nil_of_mem hq⟩

lemma Automaton.moves_nil_iff_eq (hd : m.classify = .deterministic) : m.Moves p [] q ↔ q = p := by
  constructor
  · intro h
    generalize hw : ([] : List String) = w at h
    cases h with
    | refl => rfl
    | tail _ h =>
      obtain ⟨-, rfl⟩ := List.nil_eq_append_iff.1 hw
      exact absurd (move_nil_iff.1 h) (not_hasEdge_epsilon hd)
  · rintro rfl
    exact .refl

lemma Automaton.attains_concat_iff_hasEdge (hd : m.classify = .deterministic) :
    m.Attains (w ++ [a]) r ↔ ∃ q, m.Attains w q ∧ m.HasEdge q a r := by
  simp only [attains_concat_iff, move_singleton_iff, not_hasEdge_epsilon hd, or_false,
    moves_nil_iff_eq hd]
  constructor
  · rintro ⟨q, q', h, h', rfl⟩
    exact ⟨q, h, h'⟩
  · rintro ⟨q, h, h'⟩
    exact ⟨q, r, h, h', rfl⟩

/-- A state and symbol have one successor at most. -/
lemma Automaton.HasEdge.unique (hm : m.WellFormed) (hd : m.classify = .deterministic)
    {q' : String} (h : m.HasEdge p a q) (h' : m.HasEdge p a q') :
    q = q' := by
  have heps : ¬ m.HasEdge p epsilon q := not_hasEdge_epsilon hd
  obtain ⟨t, ht, hp, ha, hq⟩ := h
  obtain ⟨t', ht', hp', ha', hq'⟩ := h'
  obtain rfl : t = t' := List.inj_on_of_nodup_map hm.nodup_keys ht ht' (by simp [hp, hp', ha, ha'])
  have hlen : t.targets.length ≤ 1 := by
    have hnone := ((m.classify_eq_deterministic_iff).1 hd).1
    rw [Bool.eq_false_iff, Ne, hasBranching_iff] at hnone
    rcases hm.symbol_mem t ht with hx | hx
    · exact absurd ⟨t, ht, hp, hx, hq⟩ heps
    · exact Nat.le_of_not_lt fun hlt => hnone ⟨t, ht, hx, hlt⟩
  match hts : t.targets with
  | [] => simp [hts] at hq
  | [x] =>
    rw [hts] at hq hq'
    rw [List.mem_singleton.1 hq, List.mem_singleton.1 hq']
  | _ :: _ :: _ => simp [hts] at hlen

/-- One state at most is attained. -/
lemma Automaton.Attains.unique (hm : m.WellFormed) (hd : m.classify = .deterministic)
    {q' : String} (h : m.Attains w q) (h' : m.Attains w q') : q = q' := by
  induction w using List.reverseRecOn generalizing q q' with
  | nil =>
    obtain ⟨p, hp, h⟩ := h
    obtain ⟨p', hp', h'⟩ := h'
    rw [moves_nil_iff_eq hd] at h h'
    rw [h, h']
    rw [starts] at hp hp'
    rw [hd] at hp hp'
    match hi : m.initial with
    | [] => simp [hi] at hp
    | x :: _ =>
      simp only [hi, List.take_succ_cons, List.take_zero, List.mem_singleton] at hp hp'
      rw [hp, hp']
  | append_singleton w a ih =>
    obtain ⟨s, hs, h⟩ := (attains_concat_iff_hasEdge hd).1 h
    obtain ⟨s', hs', h'⟩ := (attains_concat_iff_hasEdge hd).1 h'
    obtain rfl := ih hs hs'
    exact h.unique hm hd h'

end Automata
