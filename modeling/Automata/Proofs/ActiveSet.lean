import Automata.Proofs.Closure
import Automata.Proofs.Moves

/-!
# Active sets

On a sound automaton every query of the simulator has an answer, and the answers are sets of states
that moves lead to: closing follows silent moves, and advancing reads one symbol more. The two
strategies come together in `Automaton.advance_attains`.
-/

namespace Automata

variable {m : Automaton} {p q r a : String} {w : List String} {A B : StateSet}

/-! ### Edges of an automaton -/

lemma Automaton.mem_destinations_iff (m : Automaton) (P : String → Bool) :
    q ∈ ((m.edgesFrom p).filter fun e => P e.weight).map (·.destination) ↔
      ∃ x, P x = true ∧ m.HasEdge p x q := by
  simp only [List.mem_map, List.mem_filter, mem_edgesFrom]
  constructor
  · rintro ⟨e, ⟨he, hx⟩, rfl⟩
    exact ⟨e.weight, hx, he⟩
  · rintro ⟨x, hx, h⟩
    exact ⟨⟨q, x⟩, ⟨h, hx⟩, rfl⟩

lemma Automaton.hasEmptyEdge_simulator :
    m.simulator.graph.HasEmptyEdge p q ↔ m.HasEdge p epsilon q := by
  constructor
  · rintro ⟨es, hes, hq⟩
    have hp : m.Registered p := mem_vertices_simulator.1 (Graph.mem_vertices_of_edges? hes)
    obtain rfl : m.edgesFrom p = es :=
      Option.some.inj ((Graph.edges?_ofAutomaton_of_registered hp).symm.trans hes)
    exact mem_edgesFrom.1 hq
  · intro h
    exact ⟨_, Graph.edges?_ofAutomaton_of_registered h.registered, mem_edgesFrom.2 h⟩

/-- Empty edges lead along silent moves. -/
lemma Automaton.reflTransGen_iff_moves :
    Relation.ReflTransGen m.simulator.graph.HasEmptyEdge p q ↔ m.Moves p [] q := by
  constructor
  · intro h
    induction h with
    | refl => exact .refl
    | tail _ hedge ih => exact ih.tail (.silent (hasEmptyEdge_simulator.1 hedge))
  · intro h
    generalize hw : ([] : List String) = w at h
    induction h with
    | refl => exact .refl
    | tail h h' ih =>
      obtain ⟨rfl, rfl⟩ := List.nil_eq_append_iff.1 hw
      exact (ih rfl).tail (hasEmptyEdge_simulator.2 (move_nil_iff.1 h'))

lemma Automaton.step_simulator (hp : m.Registered p) (a : String) :
    m.simulator.step p a = .ok (m.follow? p a) := by
  rw [Simulator.step, edges_simulator hp]
  rfl

lemma Automaton.destinations_simulator (hp : m.Registered p) (a : String) :
    ∃ ts, m.simulator.destinations p a = .ok ts ∧ ∀ q, q ∈ ts ↔ m.Move p [a] q := by
  refine ⟨_, by rw [Simulator.destinations, edges_simulator hp]; rfl, ?_⟩
  intro q
  rw [mem_destinations_iff m (fun x => x == a || x == epsilon), move_singleton_iff]
  simp [or_and_right, exists_or]

/-! ### Answers -/

/-- The answer to a query that visits certain labels: the set of them if they all are registered, and
else an error that names one that is not. -/
def Automaton.Answers (m : Automaton) (V : String → Prop) : Except Error StateSet → Prop
  | .ok B => (∀ q, q ∈ B ↔ V q) ∧ ∀ q, V q → m.Registered q
  | .error e => ∃ q, V q ∧ ¬ m.Registered q ∧ e = .unknownState q

variable {V V' : String → Prop} {r' : Except Error StateSet}

lemma Automaton.Answers.congr (h : m.Answers V r') (hV : ∀ q, V q ↔ V' q) : m.Answers V' r' := by
  obtain rfl : V = V' := funext fun q => propext (hV q)
  exact h

lemma Automaton.Answers.exists_ok (h : m.Answers V r') (hV : ∀ q, V q → m.Registered q) :
    ∃ B, r' = .ok B ∧ ∀ q, q ∈ B ↔ V q := by
  cases r' with
  | ok B => exact ⟨B, rfl, h.1⟩
  | error e =>
    obtain ⟨q, hq, hnot, -⟩ := h
    exact absurd (hV q hq) hnot

/-- Nothing is visited. -/
lemma Automaton.answers_empty (hV : ∀ q, ¬ V q) : m.Answers V (.ok ∅) :=
  ⟨fun q => iff_of_false (StateSet.not_mem_empty q) (hV q), fun q hq => absurd hq (hV q)⟩

/-- One label is visited, whose edges are asked for. -/
lemma Automaton.answers_singleton (hV : ∀ q, V q ↔ q = p) :
    m.Answers V (do let _ ← m.simulator.edges p; return StateSet.singleton p) := by
  by_cases hp : m.Registered p
  · rw [edges_simulator hp]
    refine ⟨fun q => ?_, fun q hq => by rwa [(hV q).1 hq]⟩
    rw [StateSet.mem_singleton, hV]
  · rw [edges_simulator_of_not_registered hp]
    exact ⟨p, (hV p).2 rfl, hp, rfl⟩

/-- Closing a set visits what silent moves lead to from its members. -/
theorem Automaton.close_answers (m : Automaton) (A : StateSet) :
    m.Answers (fun q => ∃ p ∈ A, m.Moves p [] q) (m.simulator.close A) := by
  have leads_iff : ∀ q, m.simulator.graph.Leads A q ↔ ∃ p ∈ A, m.Moves p [] q := by
    simp only [Graph.Leads, reflTransGen_iff_moves, implies_true]
  rcases m.simulator.close_cases A with ⟨B, hB, hmem, hvertices⟩ | ⟨l, hl, hleads, hnot⟩
  · rw [hB]
    refine ⟨fun q => (hmem q).trans (leads_iff q), fun q hq => ?_⟩
    exact mem_vertices_simulator.1 (hvertices q ((hmem q).2 ((leads_iff q).2 hq)))
  · rw [hl]
    exact ⟨l, (leads_iff l).1 hleads, fun hr => hnot (mem_vertices_simulator.2 hr), rfl⟩

lemma Automaton.close_simulator (hm : m.Sound) (hA : ∀ p ∈ A, p ∈ m.states) :
    ∃ B, m.simulator.close A = .ok B ∧ ∀ q, q ∈ B ↔ ∃ p ∈ A, m.Moves p [] q := by
  refine (m.close_answers A).exists_ok ?_
  rintro q ⟨p, hp, hpq⟩
  exact .inl (hpq.mem_states hm (hA p hp))

/-! ### Advancing -/

/-- What is made of an answer is an answer only if there was one. -/
lemma exists_of_bind_eq_ok {α β ε : Type} {x : Except ε α} {f : α → Except ε β} {y : β}
    (h : x >>= f = .ok y) : ∃ a, x = .ok a ∧ f a = .ok y := by
  cases x with
  | error e => nomatch h
  | ok a => exact ⟨a, rfl, h⟩

/-- Answers for all members of a list hold together what the answers for each one hold. -/
lemma mapM_flatten {α β ε : Type} {f : α → Except ε (List β)} {P : α → β → Prop} {l : List α}
    (h : ∀ x ∈ l, ∃ ys, f x = .ok ys ∧ ∀ y, y ∈ ys ↔ P x y) :
    ∃ parts, l.mapM f = .ok parts ∧ ∀ y, y ∈ parts.flatten ↔ ∃ x ∈ l, P x y := by
  induction l with
  | nil => exact ⟨[], rfl, by simp⟩
  | cons x l ih =>
    obtain ⟨ys, hys, hx⟩ := h x List.mem_cons_self
    obtain ⟨parts, hparts, hl⟩ := ih fun z hz => h z (List.mem_cons_of_mem x hz)
    refine ⟨ys :: parts, by rw [List.mapM_cons, hys, hparts]; rfl, ?_⟩
    intro y
    rw [List.flatten_cons, List.mem_append, hx, hl]
    simp

/-- Advancing from all members of a set visits what moves that read the symbol lead to. -/
theorem Automaton.advanceAll_answers (hA : ∀ p ∈ A, m.Registered p) (a : String) :
    m.Answers (fun r => ∃ p ∈ A, ∃ q, m.Move p [a] q ∧ m.Moves q [] r)
      (m.simulator.advanceAll A a) := by
  obtain ⟨parts, hparts, hflat⟩ :=
    mapM_flatten fun p (hp : p ∈ A.toList) => destinations_simulator (hA p hp) a
  have hnext : ∀ q, q ∈ StateSet.ofList parts.flatten ↔ ∃ p ∈ A, m.Move p [a] q := by
    intro q
    rw [StateSet.mem_ofList, hflat]
    rfl
  rw [Simulator.advanceAll]
  rw [hparts]
  show m.Answers _ (if (StateSet.ofList parts.flatten).isEmpty then
    Except.ok (StateSet.ofList parts.flatten) else
    m.simulator.close (StateSet.ofList parts.flatten))
  by_cases he : (StateSet.ofList parts.flatten).isEmpty = true
  · rw [if_pos he]
    rw [StateSet.isEmpty_iff.1 he] at hnext ⊢
    refine answers_empty ?_
    rintro r ⟨p, hp, q, h, -⟩
    exact absurd ((hnext q).2 ⟨p, hp, h⟩) (StateSet.not_mem_empty q)
  · rw [if_neg he]
    refine (m.close_answers _).congr fun r => ?_
    simp only [hnext]
    constructor
    · rintro ⟨q, ⟨p, hp, h⟩, h'⟩
      exact ⟨p, hp, q, h, h'⟩
    · rintro ⟨p, hp, q, h, h'⟩
      exact ⟨q, ⟨p, hp, h⟩, h'⟩

lemma Automaton.advanceAll_simulator (hm : m.Sound) (hA : ∀ p ∈ A, p ∈ m.states) (a : String) :
    ∃ B, m.simulator.advanceAll A a = .ok B ∧
      ∀ r, r ∈ B ↔ ∃ p ∈ A, ∃ q, m.Move p [a] q ∧ m.Moves q [] r := by
  refine (advanceAll_answers (fun p hp => .inl (hA p hp)) a).exists_ok ?_
  rintro r ⟨p, hp, q, h, h'⟩
  exact .inl (((Moves.single h).trans h').mem_states hm (hA p hp))

lemma StateSet.mem_of_first? {A : StateSet} (h : A.first? = some p) : p ∈ A :=
  List.mem_of_mem_head? (Option.mem_def.2 h)

lemma StateSet.exists_first? {A : StateSet} (h : p ∈ A) : ∃ q, A.first? = some q := by
  rw [first?]
  cases hl : A.toList with
  | nil => rw [← StateSet.mem_toList, hl] at h; nomatch h
  | cons q l => exact ⟨q, rfl⟩

lemma StateSet.exists_mem_iff {A : StateSet} : (∃ q, q ∈ A) ↔ A.isEmpty = false := by
  simp only [← mem_toList, isEmpty, List.isEmpty_eq_false_iff_exists_mem]

/-- Advancing from the least member of a set visits what its first edge with the symbol leads to. -/
theorem Automaton.advanceOne_answers (hA : ∀ p ∈ A, m.Registered p) (a : String) :
    m.Answers (fun q => ∃ p, A.first? = some p ∧ m.follow? p a = some q)
      (m.simulator.advanceOne A a) := by
  rw [Simulator.advanceOne]
  cases hfirst : A.first? with
  | none => exact answers_empty (by simp)
  | some p =>
    simp only [step_simulator (hA p (StateSet.mem_of_first? hfirst))]
    cases hfollow : m.follow? p a with
    | none => exact answers_empty (by simp [hfollow])
    | some q => exact answers_singleton (by simp [hfollow, eq_comm])

lemma Automaton.advanceOne_simulator (hm : m.Sound) (hA : ∀ p ∈ A, p ∈ m.states) (a : String) :
    ∃ B, m.simulator.advanceOne A a = .ok B ∧ (∀ q ∈ B, ∃ p ∈ A, m.HasEdge p a q) ∧
      (∀ p q, A.first? = some p → m.HasEdge p a q → ∃ q', q' ∈ B) := by
  obtain ⟨B, hB, hmem⟩ :=
    (advanceOne_answers (fun p hp => .inl (hA p hp)) a).exists_ok
      fun q ⟨p, _, hq⟩ => .inl ((hasEdge_of_follow? hq).mem_states hm)
  refine ⟨B, hB, fun q hq => ?_, fun p q hp h => ?_⟩
  · obtain ⟨p, hp, hq⟩ := (hmem q).1 hq
    exact ⟨p, StateSet.mem_of_first? hp, hasEdge_of_follow? hq⟩
  · obtain ⟨q', hq'⟩ := exists_follow? h
    exact ⟨q', (hmem q').2 ⟨p, hp, hq'⟩⟩

/-! ### The active set of a run -/

/-- The active set before any input consists of the states that are attained without reading. -/
theorem Automaton.start_attains (hm : m.WellFormed) :
    ∃ A, m.simulator.start = .ok A ∧ ∀ q, q ∈ A ↔ m.Attains [] q := by
  rw [Simulator.start]
  rw [determinism_simulator, initial_simulator]
  cases hd : m.classify with
  | deterministic =>
    cases hi : m.initial with
    | nil => exact absurd hi hm.initial_ne_nil
    | cons p l =>
      refine ⟨.singleton p, ?_, fun q => ?_⟩
      · show (do let _ ← m.simulator.edges p; return StateSet.singleton p) = _
        rw [edges_simulator (.inl (hm.initial_subset (hi ▸ List.mem_cons_self)))]
        rfl
      · simp [Attains, starts, hd, hi, moves_nil_iff_eq hd]
  | nonDeterministic =>
    obtain ⟨A, hA, hmem⟩ := close_simulator hm.toSound (A := .ofList m.initial)
      fun p hp => hm.initial_subset (StateSet.mem_ofList.1 hp)
    refine ⟨A, hA, ?_⟩
    intro q
    simp [hmem, Attains, starts, hd]

/-- Advancing from set to set reads one symbol more, be the automaton deterministic or not. -/
lemma Automaton.advanceAll_attains (hm : m.WellFormed) (hA : ∀ q, q ∈ A ↔ m.Attains w q)
    (a : String) :
    ∃ B, m.simulator.advanceAll A a = .ok B ∧ ∀ q, q ∈ B ↔ m.Attains (w ++ [a]) q := by
  have hstates : ∀ p ∈ A, p ∈ m.states := fun p hp => ((hA p).1 hp).mem_states hm.toSound
  obtain ⟨B, hB, hmem⟩ := advanceAll_simulator hm.toSound hstates a
  refine ⟨B, hB, ?_⟩
  intro r
  simp only [hmem, attains_concat_iff, hA]
  constructor
  · rintro ⟨p, hp, q, h, h'⟩
    exact ⟨p, q, hp, h, h'⟩
  · rintro ⟨p, q, hp, h, h'⟩
    exact ⟨p, hp, q, h, h'⟩

/-- Advancing reads one symbol more, by either strategy. -/
theorem Automaton.advance_attains (hm : m.WellFormed) (hA : ∀ q, q ∈ A ↔ m.Attains w q)
    (a : String) :
    ∃ B, m.simulator.advance A a = .ok B ∧ ∀ q, q ∈ B ↔ m.Attains (w ++ [a]) q := by
  have hstates : ∀ p ∈ A, p ∈ m.states := fun p hp => ((hA p).1 hp).mem_states hm.toSound
  rw [Simulator.advance]
  rw [determinism_simulator]
  cases hd : m.classify with
  | deterministic =>
    obtain ⟨B, hB, hback, hforth⟩ := advanceOne_simulator hm.toSound hstates a
    refine ⟨B, hB, ?_⟩
    intro r
    rw [attains_concat_iff_hasEdge hd]
    constructor
    · intro hr
      obtain ⟨p, hp, h⟩ := hback r hr
      exact ⟨p, (hA p).1 hp, h⟩
    · rintro ⟨p, hp, h⟩
      -- the least member of the active set is its only one, and so is the one it leads to
      obtain ⟨p', hp'⟩ := StateSet.exists_first? ((hA p).2 hp)
      obtain rfl := hp.unique hm hd ((hA p').1 (StateSet.mem_of_first? hp'))
      obtain ⟨r', hr'⟩ := hforth p r hp' h
      obtain ⟨p', hp', h'⟩ := hback r' hr'
      obtain rfl := hp.unique hm hd ((hA p').1 hp')
      rwa [h.unique hm hd h']
  | nonDeterministic => exact advanceAll_attains hm hA a

end Automata
