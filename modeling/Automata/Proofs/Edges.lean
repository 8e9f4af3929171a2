import Automata.Simulator
import Mathlib

/-!
# The edges of an automaton

`Automaton.HasEdge` is the transition relation read as a set of labelled edges, and
`Automaton.edgesFrom` lists the edges of a state in the order of their declaration. The graph that a
simulator moves on holds just these lists.
-/

namespace Automata

/-! ### Edges of transitions -/

/-- Some transition leads from `p` to `q` on `x`. -/
def Automaton.HasEdge (m : Automaton) (p x q : String) : Prop :=
  ∃ t ∈ m.transitions, t.source = p ∧ t.symbol = x ∧ q ∈ t.targets

/-- The edges that `t` gives its source: one for every target. -/
def Transition.edges (t : Transition) : List Edge :=
  t.targets.map (⟨·, t.symbol⟩)

/-- The edges that leave `p`, as the transitions declare them. -/
def Automaton.edgesFrom (m : Automaton) (p : String) : List Edge :=
  (m.transitions.filter (·.source = p)).flatMap Transition.edges

lemma Automaton.mem_edgesFrom {m : Automaton} {p : String} {e : Edge} :
    e ∈ m.edgesFrom p ↔ m.HasEdge p e.weight e.destination := by
  simp only [edgesFrom, List.mem_flatMap, List.mem_filter, Transition.edges, List.mem_map,
    decide_eq_true_eq, HasEdge]
  constructor
  · rintro ⟨t, ⟨ht, hp⟩, q, hq, rfl⟩
    exact ⟨t, ht, hp, rfl, hq⟩
  · rintro ⟨t, ht, hp, hx, hq⟩
    exact ⟨t, ⟨ht, hp⟩, e.destination, hq, by rw [hx]⟩

/-- Where the first edge of `p` with the symbol leads. -/
def Automaton.follow? (m : Automaton) (p a : String) : Option String :=
  ((m.edgesFrom p).find? (·.weight == a)).map (·.destination)

lemma Automaton.hasEdge_of_follow? {m : Automaton} {p a q : String} (h : m.follow? p a = some q) :
    m.HasEdge p a q := by
  obtain ⟨e, he, rfl⟩ := Option.map_eq_some_iff.1 h
  obtain rfl : e.weight = a := by simpa using List.find?_some he
  exact mem_edgesFrom.1 (List.mem_of_find?_eq_some he)

lemma Automaton.exists_follow? {m : Automaton} {p a q : String} (h : m.HasEdge p a q) :
    ∃ q', m.follow? p a = some q' := by
  rw [follow?]
  cases hfind : (m.edgesFrom p).find? (·.weight == a) with
  | some e => exact ⟨e.destination, rfl⟩
  | none =>
    have hnone := List.find?_eq_none.1 hfind ⟨q, a⟩ (mem_edgesFrom.2 h)
    simp at hnone

/-- What the graph of `m` has as a vertex: a state, or the source of a transition that leads
anywhere. -/
def Automaton.Registered (m : Automaton) (p : String) : Prop :=
  p ∈ m.states ∨ ∃ t ∈ m.transitions, t.source = p ∧ t.targets ≠ []

lemma Automaton.HasEdge.registered {m : Automaton} {p x q : String} (h : m.HasEdge p x q) :
    m.Registered p := by
  obtain ⟨t, ht, hp, -, hq⟩ := h
  exact .inr ⟨t, ht, hp, List.ne_nil_of_mem hq⟩

lemma Automaton.edgesFrom_ne_nil_iff {m : Automaton} {p : String} :
    m.edgesFrom p ≠ [] ↔ ∃ t ∈ m.transitions, t.source = p ∧ t.targets ≠ [] := by
  simp [edgesFrom, Transition.edges, List.flatMap_eq_nil_iff]

/-! ### Edges of the graph -/

/-- What becomes of the edges of a vertex when `es` are appended; nothing is entered for no edges. -/
def Graph.appendEdges (old : Option (List Edge)) (es : List Edge) : Option (List Edge) :=
  if es = [] then old else some (old.getD [] ++ es)

@[simp] lemma Graph.appendEdges_nil (old : Option (List Edge)) : appendEdges old [] = old := rfl

@[simp] lemma Graph.appendEdges_some (old es : List Edge) :
    appendEdges (some old) es = some (old ++ es) := by
  by_cases h : es = [] <;> simp [appendEdges, h]

lemma Graph.appendEdges_append (old : Option (List Edge)) (es fs : List Edge) :
    appendEdges (appendEdges old es) fs = appendEdges old (es ++ fs) := by
  by_cases he : es = []
  · simp [he]
  · by_cases hf : fs = [] <;> simp [appendEdges, he, hf]

lemma Graph.edges?_addEdge_eq (g : Graph) (p q x v : String) :
    (g.addEdge p q x).edges? v = appendEdges (g.edges? v) (if p = v then [⟨q, x⟩] else []) := by
  rw [edges?_addEdge]
  by_cases h : v = p
  · simp [h, appendEdges]
  · rw [if_neg h, if_neg (Ne.symm h), appendEdges_nil]

lemma Graph.edges?_foldl_targets (g : Graph) (p x v : String) (targets : List String) :
    (targets.foldl (fun g q => g.addEdge p q x) g).edges? v =
      appendEdges (g.edges? v) (if p = v then targets.map (⟨·, x⟩) else []) := by
  induction targets generalizing g with
  | nil => simp
  | cons q targets ih =>
    rw [List.foldl_cons, ih, edges?_addEdge_eq, appendEdges_append]
    by_cases h : p = v <;> simp [h]

lemma Graph.edges?_foldl_transitions (g : Graph) (v : String) (ts : List Transition) :
    (ts.foldl (fun g t => t.targets.foldl (fun g q => g.addEdge t.source q t.symbol) g) g).edges? v =
      appendEdges (g.edges? v) ((ts.filter (·.source = v)).flatMap Transition.edges) := by
  induction ts generalizing g with
  | nil => simp
  | cons t ts ih =>
    rw [List.foldl_cons, ih, edges?_foldl_targets, appendEdges_append]
    by_cases h : t.source = v <;> simp [h, Transition.edges]

lemma Graph.edges?_foldl_addVertex (g : Graph) (v : String) (states : List String) :
    (states.foldl addVertex g).edges? v = if v ∈ states then some [] else g.edges? v := by
  induction states generalizing g with
  | nil => simp
  | cons q states ih =>
    rw [List.foldl_cons, ih, edges?_addVertex]
    by_cases h : v = q <;> simp [h]

/-- A vertex is a declared state or has edges, and its edges are those of the transitions. -/
theorem Graph.edges?_ofAutomaton (m : Automaton) (v : String) :
    (ofAutomaton m).edges? v =
      appendEdges (if v ∈ m.states then some [] else none) (m.edgesFrom v) := by
  rw [ofAutomaton, edges?_foldl_transitions, edges?_foldl_addVertex]
  rfl

/-- What is registered is a vertex, and nothing else is one. -/
lemma Graph.edges?_ofAutomaton_of_registered {m : Automaton} {v : String} (hv : m.Registered v) :
    (ofAutomaton m).edges? v = some (m.edgesFrom v) := by
  rw [edges?_ofAutomaton]
  by_cases hs : v ∈ m.states
  · rw [if_pos hs, appendEdges_some, List.nil_append]
  · have hne : m.edgesFrom v ≠ [] := Automaton.edgesFrom_ne_nil_iff.2 (hv.resolve_left hs)
    rw [if_neg hs, appendEdges, if_neg hne]
    rfl

lemma Graph.edges?_ofAutomaton_of_not_registered {m : Automaton} {v : String}
    (hv : ¬ m.Registered v) : (ofAutomaton m).edges? v = none := by
  rw [Automaton.Registered, not_or, ← Automaton.edgesFrom_ne_nil_iff, not_not] at hv
  rw [edges?_ofAutomaton, if_neg hv.1, hv.2, appendEdges_nil]

lemma Graph.mem_vertices_of_edges? {g : Graph} {v : String} {es : List Edge}
    (h : g.edges? v = some es) : v ∈ g.vertices := by
  by_contra hv
  rw [edges?_eq_none_iff.2 hv] at h
  nomatch h

lemma Graph.mem_vertices_ofAutomaton {m : Automaton} {v : String} :
    v ∈ (ofAutomaton m).vertices ↔ m.Registered v := by
  constructor
  · intro hv
    by_contra hnot
    exact edges?_eq_none_iff.1 (edges?_ofAutomaton_of_not_registered hnot) hv
  · intro hv
    exact mem_vertices_of_edges? (edges?_ofAutomaton_of_registered hv)

/-! ### The simulator -/

/-- The simulator of an automaton that has an initial state. -/
def Automaton.simulator (m : Automaton) : Simulator :=
  ⟨Graph.ofAutomaton m, (Graph.ofAutomaton m).index, m.initial, m.accepting, m.classify⟩

lemma Simulator.ofAutomaton_eq_ok {m : Automaton} (h : m.initial ≠ []) :
    ofAutomaton m = .ok m.simulator := by
  rw [ofAutomaton]
  rw [if_neg (by simpa using h)]
  rfl

@[simp] lemma Automaton.initial_simulator (m : Automaton) : m.simulator.initial = m.initial := rfl

@[simp] lemma Automaton.determinism_simulator (m : Automaton) :
    m.simulator.determinism = m.classify := rfl

lemma Automaton.isAccepting_simulator (m : Automaton) (q : String) :
    m.simulator.isAccepting q = true ↔ q ∈ m.accepting := by
  simp [Simulator.isAccepting, simulator]

lemma Automaton.mem_vertices_simulator {m : Automaton} {p : String} :
    p ∈ m.simulator.graph.vertices ↔ m.Registered p :=
  Graph.mem_vertices_ofAutomaton

lemma Automaton.edges_simulator {m : Automaton} {p : String} (hp : m.Registered p) :
    m.simulator.edges p = .ok (m.edgesFrom p) := by
  have h : m.simulator.graph.edges? p = some (m.edgesFrom p) :=
    Graph.edges?_ofAutomaton_of_registered hp
  rw [Simulator.edges_eq, h]

lemma Automaton.edges_simulator_of_not_registered {m : Automaton} {p : String}
    (hp : ¬ m.Registered p) : m.simulator.edges p = .error (.unknownState p) := by
  have h : m.simulator.graph.edges? p = none := Graph.edges?_ofAutomaton_of_not_registered hp
  rw [Simulator.edges_eq, h]

end Automata
