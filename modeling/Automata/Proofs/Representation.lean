import Automata.Proofs.ActiveSet

/-!
# The graph and the transitions

The graph of an automaton is made by entering the states and then the targets of every transition, one
after the other. Here its vertices, its edges and their number are read off the automaton, sound or
not. Where a source and symbol have one transition, moving along edges finds what looking up the
transition finds.
-/

namespace Automata

variable {m : Automaton} {g : Graph} {p q x a v : String}

/-! ### Vertices -/

/-- `labels` with `label` at the end, unless it is there. -/
def Graph.enter (labels : List String) (label : String) : List String :=
  if label ∈ labels then labels else labels ++ [label]

/-- Entering labels one after the other puts the new ones at the end, each where it occurs first. -/
lemma Graph.foldl_enter (labels more : List String) :
    more.foldl enter labels = labels ++ (more.filter (· ∉ labels)).eraseDups := by
  induction more generalizing labels with
  | nil => simp
  | cons label more ih =>
    rw [List.foldl_cons, ih, enter]
    by_cases h : label ∈ labels
    · rw [if_pos h, List.filter_cons_of_neg (by simpa using h)]
    · have hfilter : more.filter (· ∉ labels ++ [label]) =
          (more.filter (· ∉ labels)).filter (fun l => !l == label) := by
        rw [List.filter_filter]
        refine List.filter_congr fun l _ => ?_
        by_cases hl : l = label <;> simp [hl]
      rw [if_neg h, List.filter_cons_of_pos (by simpa using h), List.eraseDups_cons, hfilter,
        List.append_assoc, List.singleton_append]

lemma Graph.vertices_foldl_addVertex (g : Graph) (labels : List String) :
    (labels.foldl addVertex g).vertices = labels.foldl enter g.vertices := by
  induction labels generalizing g with
  | nil => rfl
  | cons label labels ih =>
    rw [List.foldl_cons, List.foldl_cons, ih, vertices_addVertex]
    rfl

/-- However many edges are appended to `p`, it is entered once, and not at all for none. -/
lemma Graph.vertices_foldl_targets (g : Graph) (p x : String) (targets : List String) :
    (targets.foldl (fun g q => g.addEdge p q x) g).vertices =
      if targets = [] then g.vertices else enter g.vertices p := by
  induction targets generalizing g with
  | nil => rfl
  | cons q targets ih =>
    have hq : (g.addEdge p q x).vertices = enter g.vertices p := vertices_addEdge g p q x
    have hp : p ∈ enter g.vertices p := by
      rw [enter]
      split <;> simp [*]
    rw [List.foldl_cons, ih, hq, if_neg (List.cons_ne_nil q targets)]
    split
    · rfl
    · rw [enter, if_pos hp]

/-- The sources of the transitions that lead anywhere. -/
def Automaton.sources (m : Automaton) : List String :=
  (m.transitions.filter (·.targets ≠ [])).map (·.source)

lemma Graph.vertices_foldl_transitions (g : Graph) (ts : List Transition) :
    (ts.foldl (fun g t => t.targets.foldl (fun g q => g.addEdge t.source q t.symbol) g) g).vertices =
      ((ts.filter (·.targets ≠ [])).map (·.source)).foldl enter g.vertices := by
  induction ts generalizing g with
  | nil => rfl
  | cons t ts ih =>
    rw [List.foldl_cons, ih, vertices_foldl_targets]
    by_cases h : t.targets = []
    · rw [if_pos h, List.filter_cons_of_neg (by simpa using h)]
    · rw [if_neg h, List.filter_cons_of_pos (by simpa using h), List.map_cons, List.foldl_cons]

/-- The vertices are the states and then the other sources, each where it is declared first. -/
theorem Graph.vertices_ofAutomaton (m : Automaton) :
    (ofAutomaton m).vertices =
      m.states.eraseDups ++ (m.sources.filter (· ∉ m.states)).eraseDups := by
  have hstates : (m.states.foldl addVertex empty).vertices = m.states.eraseDups := by
    rw [vertices_foldl_addVertex, foldl_enter]
    simp [vertices, empty]
  rw [ofAutomaton, vertices_foldl_transitions, hstates, foldl_enter]
  simp only [List.mem_eraseDups, Automaton.sources]

/-! ### The number of edges -/

lemma Graph.edgeCount_addEdge (g : Graph) (p q x : String) :
    (g.addEdge p q x).edgeCount = g.edgeCount + 1 := by
  rw [edgeCount, edgeCount, addEdge]
  simp only
  induction g.adjacency with
  | nil => rfl
  | cons row rows ih =>
    rw [updateRow]
    split
    · simp only [List.flatMap_cons, List.length_append, List.length_singleton]
      omega
    · simp only [List.flatMap_cons, List.length_append, ih]
      omega

lemma Graph.edgeCount_foldl_targets (g : Graph) (p x : String) (targets : List String) :
    (targets.foldl (fun g q => g.addEdge p q x) g).edgeCount = g.edgeCount + targets.length := by
  induction targets generalizing g with
  | nil => rfl
  | cons q targets ih =>
    rw [List.foldl_cons, ih, edgeCount_addEdge, List.length_cons]
    omega

lemma Graph.edgeCount_foldl_transitions (g : Graph) (ts : List Transition) :
    (ts.foldl (fun g t => t.targets.foldl (fun g q => g.addEdge t.source q t.symbol) g) g).edgeCount =
      g.edgeCount + (ts.flatMap (·.targets)).length := by
  induction ts generalizing g with
  | nil => rfl
  | cons t ts ih =>
    rw [List.foldl_cons, ih, edgeCount_foldl_targets, List.flatMap_cons, List.length_append]
    omega

/-- Entering vertices can only take edges away. -/
lemma Graph.edgeCount_addVertex_le (g : Graph) (v : String) :
    (g.addVertex v).edgeCount ≤ g.edgeCount := by
  rw [edgeCount, edgeCount, addVertex, setEdges]
  simp only
  induction g.adjacency with
  | nil => rfl
  | cons row rows ih =>
    rw [updateRow]
    split <;> simp only [List.flatMap_cons, List.length_append, List.length_nil] <;> omega

lemma Graph.edgeCount_foldl_addVertex_le (g : Graph) (labels : List String) :
    (labels.foldl addVertex g).edgeCount ≤ g.edgeCount := by
  induction labels generalizing g with
  | nil => exact Nat.le_refl _
  | cons label labels ih => exact (ih (g.addVertex label)).trans (g.edgeCount_addVertex_le label)

/-- There is an edge for every target of every transition. -/
theorem Graph.edgeCount_ofAutomaton (m : Automaton) :
    (ofAutomaton m).edgeCount = m.transitionCount := by
  have hstates : (m.states.foldl addVertex empty).edgeCount = 0 :=
    Nat.le_zero.1 (empty.edgeCount_foldl_addVertex_le m.states)
  rw [ofAutomaton, edgeCount_foldl_transitions, hstates, Nat.zero_add, Automaton.transitionCount]

/-! ### Looking up a transition -/

/-- Among entries with different keys the first one with a key is the only one. -/
lemma filter_eq_toList_find? {α β : Type} [DecidableEq β] {key : α → β} {l : List α}
    (h : (l.map key).Nodup) (k : β) :
    l.filter (key · = k) = (l.find? (key · = k)).toList := by
  induction l with
  | nil => rfl
  | cons y l ih =>
    rw [List.map_cons, List.nodup_cons] at h
    by_cases hy : key y = k
    · have hrest : l.filter (key · = k) = [] := by
        refine List.filter_eq_nil_iff.2 fun z hz => ?_
        simp only [decide_eq_true_eq]
        rintro rfl
        exact h.1 (hy ▸ List.mem_map_of_mem hz)
      rw [List.filter_cons_of_pos (by simpa using hy), List.find?_cons_of_pos (by simpa using hy), hrest]
      rfl
    · rw [List.filter_cons_of_neg (by simpa using hy), List.find?_cons_of_neg (by simpa using hy)]
      exact ih h.2

/-- The edges with a symbol are those of the transitions with this source and symbol. -/
lemma Automaton.filter_edgesFrom (m : Automaton) (p a : String) :
    (m.edgesFrom p).filter (·.weight == a) =
      (m.transitions.filter fun t => (t.source, t.symbol) = (p, a)).flatMap Transition.edges := by
  rw [edgesFrom]
  induction m.transitions with
  | nil => rfl
  | cons t ts ih =>
    by_cases hp : t.source = p
    · rw [List.filter_cons_of_pos (by simpa using hp), List.flatMap_cons, List.filter_append, ih]
      by_cases ha : t.symbol = a
      · have hall : t.edges.filter (·.weight == a) = t.edges :=
          List.filter_eq_self.2 fun e he => by
            obtain ⟨q, -, rfl⟩ := List.mem_map.1 he
            simpa using ha
        rw [hall, List.filter_cons_of_pos (by simp [hp, ha]), List.flatMap_cons]
      · have hnone : t.edges.filter (·.weight == a) = [] :=
          List.filter_eq_nil_iff.2 fun e he => by
            obtain ⟨q, -, rfl⟩ := List.mem_map.1 he
            simpa using ha
        rw [hnone, List.filter_cons_of_neg (by simp [ha]), List.nil_append]
    · rw [List.filter_cons_of_neg (by simpa using hp), List.filter_cons_of_neg (by simp [hp]), ih]

/-- Where a source and symbol have one transition, the edges with the symbol lead to the targets that
are looked up. -/
lemma Automaton.destinations_edgesFrom
    (hkeys : (m.transitions.map fun t => (t.source, t.symbol)).Nodup) (p a : String) :
    ((m.edgesFrom p).filter (·.weight == a)).map (·.destination) = (m.targets? p a).getD [] := by
  have hfind : m.transitions.find? (fun t => t.source == p && t.symbol == a) =
      m.transitions.find? (fun t => (t.source, t.symbol) = (p, a)) := by
    congr
    funext t
    simp [Bool.beq_eq_decide_eq]
  rw [filter_edgesFrom, filter_eq_toList_find? hkeys, targets?, hfind]
  cases m.transitions.find? (fun t => (t.source, t.symbol) = (p, a)) with
  | none => rfl
  | some t => simp [Transition.edges, Function.comp_def]

lemma Automaton.follow?_eq_head?
    (hkeys : (m.transitions.map fun t => (t.source, t.symbol)).Nodup) (p a : String) :
    m.follow? p a = (m.targets? p a).bind List.head? := by
  have hhead : m.follow? p a = ((m.targets? p a).getD []).head? := by
    rw [follow?, ← List.head?_filter, ← List.head?_map, destinations_edgesFrom hkeys]
  rw [hhead]
  cases m.targets? p a <;> rfl

lemma Automaton.mem_targets?_iff
    (hkeys : (m.transitions.map fun t => (t.source, t.symbol)).Nodup) :
    q ∈ (m.targets? p a).getD [] ↔ m.HasEdge p a q := by
  rw [← destinations_edgesFrom hkeys, mem_destinations_iff m (· == a)]
  simp

/-! ### The graph is the automaton -/

/-- The graph of any automaton with an initial state, sound or not: its vertices are the states in the
order of their first declaration, then the undeclared sources of transitions that lead anywhere; each
vertex has the edges that are declared, in their order; and there are as many edges as the automaton
counts. If a source and symbol have one transition, single steps and sets of next states are what
looking up the transition gives. -/
theorem Automaton.graph_represents (hi : m.initial ≠ []) :
    ∃ s, Simulator.ofAutomaton m = .ok s ∧
      s.graph.vertices = m.states.eraseDups ++ (m.sources.filter (· ∉ m.states)).eraseDups ∧
      (∀ v ∈ s.graph.vertices, s.graph.edges? v = some ((m.transitions.filter (·.source = v)).flatMap
        fun t => t.targets.map fun q => ⟨q, t.symbol⟩)) ∧
      s.graph.edgeCount = m.transitionCount ∧
      ((m.transitions.map fun t => (t.source, t.symbol)).Nodup → ∀ v ∈ s.graph.vertices, ∀ a,
        s.step v a = .ok ((m.targets? v a).bind List.head?) ∧
          s.nextStates v a =
            .ok (.ofList ((m.targets? v a).getD [] ++ (m.targets? v epsilon).getD []))) := by
  refine ⟨m.simulator, Simulator.ofAutomaton_eq_ok hi, Graph.vertices_ofAutomaton m, fun v hv => ?_,
    Graph.edgeCount_ofAutomaton m, fun hkeys v hv a => ⟨?_, ?_⟩⟩
  · exact Graph.edges?_ofAutomaton_of_registered (mem_vertices_simulator.1 hv)
  · rw [step_simulator (mem_vertices_simulator.1 hv), follow?_eq_head? hkeys]
  · obtain ⟨ts, hts, hmem⟩ := destinations_simulator (mem_vertices_simulator.1 hv) a
    rw [Simulator.nextStates, hts]
    show Except.ok (StateSet.ofList ts) = _
    congr 1
    apply StateSet.ext
    intro q
    rw [StateSet.mem_ofList, hmem, move_singleton_iff, StateSet.mem_ofList, List.mem_append,
      mem_targets?_iff hkeys, mem_targets?_iff hkeys]

/-- A state that is declared twice, a transition without targets, and two undeclared sources, one of
them with two transitions around those of a state. -/
def Automaton.untidy : Automaton :=
  ⟨["s1", "s0", "s1"], ["s0"], [], ["a"],
    [⟨"q2", "a", ["s0", "s1"]⟩, ⟨"s0", "a", ["s1", "s0"]⟩, ⟨"q0", "a", []⟩, ⟨"q1", "b", ["q0"]⟩,
      ⟨"q2", "$", ["q0", "s0"]⟩]⟩

/-- Its graph has two states and two undeclared sources, and moving is looking up. -/
theorem Automaton.graph_represents_untidy :
    ∃ s, Simulator.ofAutomaton untidy = .ok s ∧ s.graph.vertices = ["s1", "s0", "q2", "q1"] ∧
      s.graph.edges? "q2" = some [⟨"s0", "a"⟩, ⟨"s1", "a"⟩, ⟨"q0", "$"⟩, ⟨"s0", "$"⟩] ∧
      s.graph.edgeCount = 7 ∧ s.step "q2" "a" = .ok (some "s0") ∧
      s.nextStates "q2" "a" = .ok (.ofList ["q0", "s0", "s1"]) := by
  obtain ⟨s, hs, hvertices, hedges, hcount, hlookup⟩ := graph_represents (m := untidy) (by decide)
  have hvertices : s.graph.vertices = ["s1", "s0", "q2", "q1"] := hvertices.trans (by decide)
  have hq2 : "q2" ∈ s.graph.vertices := by
    rw [hvertices]
    decide
  obtain ⟨hstep, hnext⟩ := hlookup (by decide) "q2" hq2 "a"
  exact ⟨s, hs, hvertices, (hedges "q2" hq2).trans (by decide), hcount.trans (by decide),
    hstep.trans rfl, hnext.trans rfl⟩

end Automata
