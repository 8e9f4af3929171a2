import Automata.Dot
import Automata.Proofs.Histories
import Automata.Proofs.Reachability
import Automata.Proofs.Representation

/-!
# What a drawing shows

The edges of a vertex are filed by destination, and under a destination each symbol is written once.
Here the files are read off the transitions, sound or not: a drawing has one line for each vertex, one
for each pair of labels that some transition joins, and one entry arrow.
-/

namespace Automata

variable {m : Automaton} {p q x : String} {e : Edge}

/-! ### Entering labels -/

/-- Dropping repetitions is entering one label after the other. -/
lemma Graph.eraseDups_eq_foldl_enter (labels : List String) :
    labels.eraseDups = labels.foldl enter [] := by
  rw [foldl_enter]
  simp

lemma Graph.eraseDups_concat (labels : List String) (label : String) :
    (labels ++ [label]).eraseDups = enter labels.eraseDups label := by
  rw [eraseDups_eq_foldl_enter, eraseDups_eq_foldl_enter, List.foldl_append]
  rfl

lemma Graph.nodup_enter {labels : List String} (h : labels.Nodup) (label : String) :
    (enter labels label).Nodup := by
  rw [enter]
  split
  · exact h
  · next hnew =>
    refine List.nodup_append.2 ⟨h, List.nodup_singleton label, ?_⟩
    rintro a ha b hb rfl
    exact hnew (List.mem_singleton.1 hb ▸ ha)

lemma Graph.nodup_eraseDups (labels : List String) : labels.eraseDups.Nodup := by
  induction labels using List.reverseRecOn with
  | nil => exact List.nodup_nil
  | append_singleton labels label ih =>
    rw [eraseDups_concat]
    exact nodup_enter ih label

lemma Graph.eraseDups_of_nodup {labels : List String} (h : labels.Nodup) :
    labels.eraseDups = labels := by
  induction labels with
  | nil => rfl
  | cons label labels ih =>
    obtain ⟨hnew, h⟩ := List.nodup_cons.1 h
    have hfilter : labels.filter (fun l => !l == label) = labels :=
      List.filter_eq_self.2 fun l hl => by
        simpa using fun heq : l = label => hnew (heq ▸ hl)
    rw [List.eraseDups_cons, hfilter, ih h]

/-- A label that is entered again and again is entered once. -/
lemma Graph.foldl_enter_replicate (labels : List String) (label : String) (n : ℕ) :
    (List.replicate n label).foldl enter labels = if n = 0 then labels else enter labels label := by
  have again : ∀ labels : List String, enter (enter labels label) label = enter labels label := by
    intro labels
    have hmem : label ∈ enter labels label := by
      rw [enter]
      split <;> simp [*]
    rw [enter, if_pos hmem]
  induction n generalizing labels with
  | zero => rfl
  | succ n ih =>
    rw [List.replicate_succ, List.foldl_cons, ih, again, ite_self, if_neg n.succ_ne_zero]

/-! ### Edges by destination -/

/-- Filing an edge enters its destination, and enters its symbol among those of the destination. -/
lemma Dot.fileEdge_map (symbols : String → List String) {labels : List String}
    (hlabels : labels.Nodup) (hnew : e.destination ∉ labels → symbols e.destination = []) :
    fileEdge e (labels.map fun d => (d, symbols d)) =
      (Graph.enter labels e.destination).map fun d =>
        (d, if d = e.destination then Graph.enter (symbols d) e.weight else symbols d) := by
  induction labels with
  | nil => simp [fileEdge, Graph.enter, hnew]
  | cons d labels ih =>
    rw [List.nodup_cons] at hlabels
    rw [List.map_cons, fileEdge]
    by_cases hd : d = e.destination
    · subst hd
      have hrest : ∀ d ∈ labels, d ≠ e.destination := fun d hd he => hlabels.1 (he ▸ hd)
      have hkeep : labels.map (fun d => (d, symbols d)) = labels.map fun d =>
          (d, if d = e.destination then Graph.enter (symbols d) e.weight else symbols d) :=
        List.map_congr_left fun d hd => by rw [if_neg (hrest d hd)]
      rw [if_pos rfl, hkeep, Graph.enter, if_pos List.mem_cons_self, List.map_cons, if_pos rfl]
      simp [Graph.enter]
    · have henter : Graph.enter (d :: labels) e.destination =
          d :: Graph.enter labels e.destination := by
        by_cases hmem : e.destination ∈ labels <;> simp [Graph.enter, hmem, Ne.symm hd]
      have hnew' : e.destination ∉ labels → symbols e.destination = [] := fun h =>
        hnew (by simp [h, Ne.symm hd])
      rw [if_neg hd, ih hlabels.2 hnew', henter, List.map_cons, if_neg hd]

/-- Destinations are listed where they occur first, and under each the symbols where they occur first. -/
theorem Dot.byDestination_eq (es : List Edge) :
    byDestination es = (es.map (·.destination)).eraseDups.map fun d =>
      (d, ((es.filter (·.destination = d)).map (·.weight)).eraseDups) := by
  induction es using List.reverseRecOn with
  | nil => rfl
  | append_singleton es e ih =>
    have hnew : e.destination ∉ (es.map (·.destination)).eraseDups →
        ((es.filter (·.destination = e.destination)).map (·.weight)).eraseDups = [] := by
      intro h
      rw [List.mem_eraseDups] at h
      have hnone : es.filter (·.destination = e.destination) = [] :=
        List.filter_eq_nil_iff.2 fun e' he' heq =>
          h (List.mem_map.2 ⟨e', he', by simpa using heq⟩)
      rw [hnone]
      rfl
    rw [byDestination] at ih ⊢
    rw [List.foldl_append, ih, List.foldl_cons, List.foldl_nil,
      fileEdge_map _ (Graph.nodup_eraseDups _) hnew, List.map_append, List.map_singleton,
      Graph.eraseDups_concat]
    refine List.map_congr_left fun d _ => ?_
    by_cases hd : d = e.destination
    · rw [if_pos hd, List.filter_append, List.filter_cons_of_pos (by simpa using hd.symm),
        List.filter_nil, List.map_append, List.map_singleton, Graph.eraseDups_concat]
    · rw [if_neg hd, List.filter_append, List.filter_cons_of_neg (by simpa using Ne.symm hd),
        List.filter_nil, List.append_nil]

/-! ### Edges of an automaton -/

/-- The symbols on which transitions lead from `p` to `q`, in the order of their first declaration. -/
def Automaton.symbolsBetween (m : Automaton) (p q : String) : List String :=
  ((m.transitions.filter fun t => t.source = p ∧ q ∈ t.targets).map (·.symbol)).eraseDups

lemma Automaton.mem_symbolsBetween : x ∈ m.symbolsBetween p q ↔ m.HasEdge p x q := by
  simp only [symbolsBetween, List.mem_eraseDups, List.mem_map, List.mem_filter, decide_eq_true_eq,
    HasEdge]
  constructor
  · rintro ⟨t, ⟨ht, hp, hq⟩, hx⟩
    exact ⟨t, ht, hp, hx, hq⟩
  · rintro ⟨t, ht, hp, hx, hq⟩
    exact ⟨t, ⟨ht, hp, hq⟩, hx⟩

lemma Automaton.map_destination_edgesFrom (m : Automaton) (p : String) :
    (m.edgesFrom p).map (·.destination) = m.successorsOf p := by
  simp only [edgesFrom, successorsOf, List.map_flatMap, Transition.edges, List.map_map,
    Function.comp_def, List.map_id', beq_eq_decide]

/-- A transition that names a target more than once has one symbol for it. -/
lemma Automaton.eraseDups_weights_edgesFrom (m : Automaton) (p q : String) :
    (((m.edgesFrom p).filter (·.destination = q)).map (·.weight)).eraseDups =
      m.symbolsBetween p q := by
  rw [edgesFrom, symbolsBetween, Graph.eraseDups_eq_foldl_enter, Graph.eraseDups_eq_foldl_enter]
  generalize ([] : List String) = labels
  induction m.transitions generalizing labels with
  | nil => rfl
  | cons t ts ih =>
    by_cases hp : t.source = p
    · have hedges : (t.edges.filter (·.destination = q)).map (·.weight) =
          List.replicate (t.targets.count q) t.symbol := by
        simp [Transition.edges, List.filter_map, Function.comp_def, List.filter_eq]
      rw [List.filter_cons_of_pos (by simpa using hp), List.flatMap_cons, List.filter_append,
        List.map_append, List.foldl_append, hedges, Graph.foldl_enter_replicate, ih]
      by_cases hq : q ∈ t.targets
      · rw [if_neg (List.count_pos_iff.2 hq).ne', List.filter_cons_of_pos (by simp [hp, hq]),
          List.map_cons, List.foldl_cons]
      · rw [if_pos (List.count_eq_zero.2 hq), List.filter_cons_of_neg (by simp [hq])]
    · rw [List.filter_cons_of_neg (by simpa using hp), List.filter_cons_of_neg (by simp [hp]), ih]

/-- The pairs of labels that transitions join: by the source in the order of the graph, then by the
other label in the order of its first declaration. -/
def Automaton.pairs (m : Automaton) : List (String × String) :=
  (Graph.ofAutomaton m).vertices.flatMap fun p => (m.successorsOf p).eraseDups.map (p, ·)

lemma Automaton.mem_pairs : (p, q) ∈ m.pairs ↔ m.Joins p q := by
  simp only [pairs, List.mem_flatMap, List.mem_map, List.mem_eraseDups, mem_successorsOf,
    Graph.mem_vertices_ofAutomaton, Prod.mk.injEq]
  constructor
  · rintro ⟨p, -, q, hjoins, rfl, rfl⟩
    exact hjoins
  · rintro hjoins
    obtain ⟨x, hedge⟩ := id hjoins
    exact ⟨p, hedge.registered, q, hjoins, rfl, rfl⟩

lemma Automaton.nodup_pairs (m : Automaton) : m.pairs.Nodup := by
  refine List.nodup_flatMap.2 ⟨fun p _ => ?_, ?_⟩
  · exact (Graph.nodup_eraseDups _).map fun _ _ h => (Prod.mk.inj h).2
  · refine (Graph.ofAutomaton m).nodup.imp fun hne pair hpair hpair' => ?_
    obtain ⟨_, -, rfl⟩ := List.mem_map.1 hpair
    obtain ⟨_, -, heq⟩ := List.mem_map.1 hpair'
    exact hne (Prod.mk.inj heq).1.symm

/-! ### The statements of a drawing -/

lemma Graph.adjacency_ofAutomaton (m : Automaton) :
    (ofAutomaton m).adjacency = (ofAutomaton m).vertices.map fun v => (v, m.edgesFrom v) := by
  rw [vertices, List.map_map]
  conv_lhs => rw [← List.map_id (ofAutomaton m).adjacency]
  refine List.map_congr_left fun row hrow => Prod.ext rfl ?_
  have hedges := edges?_of_mem_adjacency hrow
  have hv : m.Registered row.1 := mem_vertices_ofAutomaton.1 (mem_vertices_of_edges? hedges)
  exact Option.some.inj (hedges.symm.trans (edges?_ofAutomaton_of_registered hv))

lemma Dot.rowStatements_edgesFrom (m : Automaton) (p : String) :
    rowStatements (p, m.edgesFrom p) =
      (m.successorsOf p).eraseDups.map fun q => .edges p q (m.symbolsBetween p q) := by
  rw [rowStatements, byDestination_eq, Automaton.map_destination_edgesFrom, List.map_map]
  refine List.map_congr_left fun q _ => ?_
  rw [Function.comp, Automaton.eraseDups_weights_edgesFrom]

/-- The statements for any automaton: its vertices, the pairs that transitions join, and its entry. -/
theorem Dot.statements_simulator (m : Automaton) :
    statements m.simulator =
      (Graph.ofAutomaton m).vertices.map (fun v => .vertex v (m.isAccepting v)) ++
        m.pairs.map (fun (p, q) => .edges p q (m.symbolsBetween p q)) ++
        entryStatements m.initial := by
  have hedges : (Graph.ofAutomaton m).adjacency.flatMap rowStatements =
      m.pairs.map fun (p, q) => .edges p q (m.symbolsBetween p q) := by
    rw [Graph.adjacency_ofAutomaton, List.flatMap_map, Automaton.pairs, List.map_flatMap]
    refine List.flatMap_congr fun p _ => ?_
    rw [rowStatements_edgesFrom, List.map_map]
    rfl
  rw [← hedges]
  rfl

lemma Automaton.toDot_eq (hi : m.initial ≠ []) : m.toDot = .ok (Dot.render m.simulator) := by
  rw [toDot, Simulator.ofAutomaton_eq_ok hi]
  rfl

open Dot in
/-- The drawing of any automaton with an initial state, sound or not. It has one line for every vertex,
in the order of the graph, with a double border for accepting labels; one line for every pair of labels
that some transition joins, with all symbols on which transitions lead from the one to the other, each
once and in the order of their first declaration; and one entry arrow, to the first initial state. -/
theorem Automaton.toDot_draws (hi : m.initial ≠ []) :
    ∃ s first, Simulator.ofAutomaton m = .ok s ∧ m.initial.head? = some first ∧
      s.graph.vertices.Nodup ∧
      m.pairs.Nodup ∧ (∀ p q, (p, q) ∈ m.pairs ↔ m.Joins p q) ∧
      (∀ p q, (m.symbolsBetween p q).Nodup ∧ ∀ x, x ∈ m.symbolsBetween p q ↔ m.HasEdge p x q) ∧
      m.toDot = .ok ("digraph G \x7b\n" ++
        String.join (s.graph.vertices.map fun v => "  " ++ quote v ++ " [shape=circle" ++
          (if v ∈ m.accepting then ", peripheries=2" else "") ++ "];\n") ++
        String.join (m.pairs.map fun (p, q) => "  " ++ quote p ++ " -> " ++ quote q ++ " [label=" ++
          quote (",".intercalate (m.symbolsBetween p q)) ++ "];\n") ++
        "  \"\" [shape=none];\n" ++
        "  \"\" -> " ++ quote first ++ " [dir=forward, arrowhead=normal];\n" ++ "\x7d") := by
  obtain ⟨first, rest, hinitial⟩ := List.exists_cons_of_ne_nil hi
  refine ⟨m.simulator, first, Simulator.ofAutomaton_eq_ok hi, by rw [hinitial]; rfl,
    (Graph.ofAutomaton m).nodup, m.nodup_pairs, fun p q => mem_pairs,
    fun p q => ⟨Graph.nodup_eraseDups _, fun x => mem_symbolsBetween⟩, ?_⟩
  rw [toDot_eq hi, render, statements_simulator, hinitial]
  simp only [entryStatements, List.map_append, List.map_map, String.join_append, List.map_cons,
    List.map_nil, String.join_cons, String.join_nil, Statement.render, Function.comp_def,
    String.append_assoc, String.empty_append, isAccepting, List.contains_iff_mem]
  rfl

/-- Parallel edges with others between them, a line that is repeated, an accepting label and a source
that are no states. -/
def Automaton.entangled : Automaton :=
  ⟨["s0", "s1"], ["s1", "s0"], ["s1", "q"], ["a", "b"],
    [⟨"s0", "b", ["s1", "s0"]⟩, ⟨"q", "a", ["s0"]⟩, ⟨"s0", "a", ["s1"]⟩, ⟨"s0", "b", ["s1"]⟩,
      ⟨"s1", "$", ["s0"]⟩]⟩

/-- Its drawing has three lines for vertices and four for pairs. -/
theorem Automaton.toDot_draws_entangled :
    entangled.pairs = [("s0", "s1"), ("s0", "s0"), ("s1", "s0"), ("q", "s0")] ∧
      entangled.toDot = .ok ("digraph G \x7b\n" ++
        "  \"s0\" [shape=circle];\n" ++
        "  \"s1\" [shape=circle, peripheries=2];\n" ++
        "  \"q\" [shape=circle, peripheries=2];\n" ++
        "  \"s0\" -> \"s1\" [label=\"b,a\"];\n" ++
        "  \"s0\" -> \"s0\" [label=\"b\"];\n" ++
        "  \"s1\" -> \"s0\" [label=\"$\"];\n" ++
        "  \"q\" -> \"s0\" [label=\"a\"];\n" ++
        "  \"\" [shape=none];\n" ++
        "  \"\" -> \"s1\" [dir=forward, arrowhead=normal];\n" ++ "\x7d") := by
  obtain ⟨s, first, hs, hfirst, -, -, -, -, htext⟩ := toDot_draws (m := entangled) (by decide)
  obtain rfl := Except.ok.inj ((Simulator.ofAutomaton_eq_ok (by decide)).symm.trans hs)
  obtain rfl := Option.some.inj ((show entangled.initial.head? = some "s1" from rfl).symm.trans hfirst)
  have hpairs : entangled.pairs = [("s0", "s1"), ("s0", "s0"), ("s1", "s0"), ("q", "s0")] := by
    decide
  refine ⟨hpairs, htext.trans ?_⟩
  rw [hpairs]
  exact congrArg Except.ok (by decide +kernel)

end Automata
