import Automata.Proofs.Runs

/-!
# The language of an automaton

What an automaton says about an input is read off its paths: `Automaton.Spells` asks for a path from
a start to an accepting state whose labels spell the input, empty moves left out. The verdict of a run
is read off moves instead, and the two differ where a move reads a symbol along an empty edge. They
agree on all inputs exactly for the automata without a live empty edge.
-/

namespace Automata

variable {m : Automaton} {p q r x : String} {xs ys w : List String}

/-! ### Paths -/

/-- A path from `p` along edges, with the labels of the edges. -/
inductive Automaton.Path (m : Automaton) : String → List String → String → Prop
  | nil (p : String) : Path m p [] p
  | cons {p x q r : String} {xs : List String} (h : m.HasEdge p x q) (h' : Path m q xs r) :
      Path m p (x :: xs) r

lemma Automaton.Path.concat (h : m.Path p xs q) (h' : m.HasEdge q x r) :
    m.Path p (xs ++ [x]) r := by
  induction h with
  | nil p => exact .cons h' (.nil r)
  | cons h _ ih => exact .cons h (ih h')

/-- Every label on a path is the symbol of a transition. -/
lemma Automaton.Path.exists_transition (h : m.Path p xs q) (hx : x ∈ xs) :
    ∃ t ∈ m.transitions, t.symbol = x := by
  induction h with
  | nil p => nomatch hx
  | cons h _ ih =>
    rcases List.mem_cons.1 hx with rfl | hx
    · obtain ⟨t, ht, -, hx, -⟩ := h
      exact ⟨t, ht, hx⟩
    · exact ih hx

/-! ### Spelling -/

/-- What the labels of a path spell: empty moves are left out. -/
def spelling (labels : List String) : List String :=
  labels.filter (· ≠ epsilon)

@[simp] lemma spelling_epsilon_cons (xs : List String) : spelling (epsilon :: xs) = spelling xs := by
  simp [spelling]

lemma spelling_cons_of_ne (h : x ≠ epsilon) (xs : List String) :
    spelling (x :: xs) = x :: spelling xs := by
  simp [spelling, h]

lemma spelling_of_not_mem (h : epsilon ∉ xs) : spelling xs = xs := by
  refine List.filter_eq_self.2 fun x hx => ?_
  simp only [decide_eq_true_eq]
  rintro rfl
  exact h hx

lemma epsilon_not_mem_spelling (xs : List String) : epsilon ∉ spelling xs := by
  simp [spelling]

lemma mem_of_mem_spelling (h : x ∈ spelling xs) : x ∈ xs :=
  List.mem_of_mem_filter h

/-- Some path from a start to an accepting state spells `w`. -/
def Automaton.Spells (m : Automaton) (w : List String) : Prop :=
  ∃ p ∈ m.starts, ∃ q ∈ m.accepting, ∃ labels, m.Path p labels q ∧ spelling labels = w

/-- Moves along a path can read what the path spells. -/
lemma Automaton.Path.moves (h : m.Path p xs q) : m.Moves p (spelling xs) q := by
  induction h with
  | nil p => exact .refl
  | @cons p x q r xs h _ ih =>
    by_cases hx : x = epsilon
    · subst hx
      rw [spelling_epsilon_cons]
      exact (Moves.single (.silent h)).trans ih
    · rw [spelling_cons_of_ne hx]
      exact (Moves.single (.reading h)).trans ih

lemma Automaton.Spells.accepts (h : m.Spells w) : m.Accepts w := by
  obtain ⟨p, hp, q, hq, labels, hpath, rfl⟩ := h
  exact ⟨q, hq, p, hp, hpath.moves⟩

/-! ### Live empty edges -/

/-- An empty edge lies on a path from a start to an accepting state. -/
def Automaton.HasLiveEmptyEdge (m : Automaton) : Prop :=
  ∃ p q, m.HasEdge p epsilon q ∧ (∃ s ∈ m.starts, ∃ xs, m.Path s xs p) ∧
    ∃ f ∈ m.accepting, ∃ ys, m.Path q ys f

/-- Where no empty edge is live, moves to an accepting state spell what they read. -/
lemma Automaton.Moves.path (hlive : ¬ m.HasLiveEmptyEdge) {s f : String} (hs : s ∈ m.starts)
    (hf : f ∈ m.accepting) (h : m.Moves s w q) (hq : m.Path q ys f) : m.Path s w q := by
  induction h generalizing ys with
  | refl => exact .nil s
  | @tail u v p q _ hmove ih =>
    have dead : m.HasEdge p epsilon q → False := fun hedge =>
      hlive ⟨p, q, hedge, ⟨s, hs, u, ih (.cons hedge hq)⟩, f, hf, ys, hq⟩
    cases hmove with
    | reading h => exact (ih (.cons h hq)).concat h
    | silent h => exact (dead h).elim
    | skipping a h => exact (dead h).elim

lemma Automaton.Accepts.spells (hlive : ¬ m.HasLiveEmptyEdge) (hw : epsilon ∉ w)
    (h : m.Accepts w) : m.Spells w := by
  obtain ⟨f, hf, s, hs, hmoves⟩ := h
  exact ⟨s, hs, f, hf, w, hmoves.path hlive hs hf (.nil f), spelling_of_not_mem hw⟩

lemma exists_not_mem (l : List String) : ∃ z, z ∉ l := by
  have : Infinite String := .of_injective String.ofList fun _ _ h => String.ofList_injective h
  obtain ⟨z, hz⟩ := Infinite.exists_notMem_finset l.toFinset
  exact ⟨z, by simpa using hz⟩

/-- Along a live empty edge any symbol at all can be read, also one that no transition knows. -/
lemma Automaton.HasLiveEmptyEdge.exists_accepts (h : m.HasLiveEmptyEdge) :
    ∃ w, epsilon ∉ w ∧ m.Accepts w ∧ ¬ m.Spells w := by
  obtain ⟨p, q, hedge, ⟨s, hs, xs, hxs⟩, f, hf, ys, hys⟩ := h
  obtain ⟨z, hz⟩ := exists_not_mem (epsilon :: m.transitions.map (·.symbol))
  rw [List.mem_cons, not_or] at hz
  refine ⟨spelling xs ++ z :: spelling ys, ?_, ?_, ?_⟩
  · simp only [List.mem_append, List.mem_cons, epsilon_not_mem_spelling, Ne.symm hz.1, or_self,
      not_false_eq_true]
  · exact ⟨f, hf, s, hs, hxs.moves.trans ((Moves.single (.skipping z hedge)).trans hys.moves)⟩
  · rintro ⟨_, -, _, -, labels, hpath, hlabels⟩
    have hmem : z ∈ spelling labels := by rw [hlabels]; simp
    obtain ⟨t, ht, hsym⟩ := hpath.exists_transition (mem_of_mem_spelling hmem)
    exact hz.2 (List.mem_map.2 ⟨t, ht, hsym⟩)

/-! ### Verdicts -/

/-- Every input that a path spells is accepted, and the automata that accept nothing else are those
without a live empty edge. -/
theorem Automaton.accepts_iff_spells_iff {text : String}
    (h : Specification.parse text = .ok m) :
    (∀ w, epsilon ∉ w → m.Spells w → m.accepts w = .ok true) ∧
      ((∀ w, epsilon ∉ w → (m.accepts w = .ok true ↔ m.Spells w)) ↔ ¬ m.HasLiveEmptyEdge) := by
  have hm := Specification.wellFormed_of_parse h
  simp only [accepts_eq_ok_true_iff hm]
  constructor
  · intro w _ hw
    exact hw.accepts
  · constructor
    · intro hall hlive
      obtain ⟨w, hw, hacc, hsp⟩ := hlive.exists_accepts
      exact hsp ((hall w hw).1 hacc)
    · intro hlive w hw
      exact ⟨Accepts.spells hlive hw, Spells.accepts⟩

/-- The automaton of one empty move and one `a` accepts more than its paths spell. -/
theorem Automaton.not_accepts_iff_spells_emptyThenA :
    ¬ ∀ w, epsilon ∉ w → (emptyThenA.accepts w = .ok true ↔ emptyThenA.Spells w) := by
  intro hall
  have live : emptyThenA.HasLiveEmptyEdge :=
    ⟨"s0", "s1", hasEdge_epsilon_emptyThenA, ⟨"s0", by decide, [], .nil "s0"⟩,
      "s2", by decide, ["a"], .cons hasEdge_a_emptyThenA (.nil "s2")⟩
  exact (accepts_iff_spells_iff Specification.parse_emptyThenA).2.1 hall live

/-- It accepts `z` before `a`, though no transition knows the symbol `z`. -/
theorem Automaton.accepts_unknown_symbol :
    emptyThenA.accepts ["z", "a"] = .ok true ∧ ¬ emptyThenA.Spells ["z", "a"] := by
  refine ⟨by cbv, ?_⟩
  rintro ⟨_, -, _, -, labels, hpath, hlabels⟩
  have hz : "z" ∈ spelling labels := by rw [hlabels]; simp
  obtain ⟨t, ht, hsym⟩ := hpath.exists_transition (mem_of_mem_spelling hz)
  have : ∀ t ∈ emptyThenA.transitions, t.symbol ≠ "z" := by decide
  exact this t ht hsym

end Automata
