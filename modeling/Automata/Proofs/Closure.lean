import Automata.Proofs.Edges
import Automata.Proofs.Histories
import Automata.Proofs.Search

/-!
# Closing under empty moves

Closing is said here without a search: `Graph.Leads` follows empty edges from the members of a set. In
any graph, with cycles, loops and edges to labels that are no vertices, closing finds exactly the labels
that are led to if all of them are vertices, and else an error names one that is not. Where closing
succeeds it is a closure operator that distributes over unions.
-/

namespace Automata

variable {s : Simulator} {g : Graph} {A A' B B' C : StateSet} {p q l : String}

/-! ### Unions -/

instance : Union StateSet :=
  ⟨fun A B => .ofList (A.toList ++ B.toList)⟩

instance : HasSubset StateSet :=
  ⟨fun A B => ∀ q ∈ A, q ∈ B⟩

@[simp] lemma StateSet.mem_union : q ∈ A ∪ B ↔ q ∈ A ∨ q ∈ B := by
  show q ∈ StateSet.ofList (A.toList ++ B.toList) ↔ _
  simp

/-! ### Where empty edges lead -/

/-- The graph has an empty edge from `p` to `q`. -/
def Graph.HasEmptyEdge (g : Graph) (p q : String) : Prop :=
  ∃ es, g.edges? p = some es ∧ ⟨q, epsilon⟩ ∈ es

/-- Empty edges lead from a member of `A` to `q`; to the members themselves they always do. -/
def Graph.Leads (g : Graph) (A : StateSet) (q : String) : Prop :=
  ∃ p ∈ A, Relation.ReflTransGen g.HasEmptyEdge p q

lemma Graph.Leads.mono (h : g.Leads A q) (hA : A ⊆ A') : g.Leads A' q := by
  obtain ⟨p, hp, hpq⟩ := h
  exact ⟨p, hA p hp, hpq⟩

lemma Graph.leads_union_iff : g.Leads (A ∪ A') q ↔ g.Leads A q ∨ g.Leads A' q := by
  simp only [Leads, StateSet.mem_union, or_and_right, exists_or]

/-! ### The search for empty edges -/

lemma Simulator.exists_edges (hp : p ∈ s.graph.vertices) : ∃ es, s.graph.edges? p = some es := by
  cases h : s.graph.edges? p with
  | some es => exact ⟨es, rfl⟩
  | none => exact absurd hp (Graph.edges?_eq_none_iff.1 h)

lemma Simulator.next_emptyMoves_of_edges {es : List Edge} (h : s.graph.edges? p = some es) :
    s.emptyMoves.next p = .ok ((es.filter (·.weight == epsilon)).map (·.destination)) := by
  show (s.edges p).map _ = _
  rw [edges_eq, h]
  rfl

lemma Simulator.next_emptyMoves_of_not_mem (hp : p ∉ s.graph.vertices) :
    s.emptyMoves.next p = .error (.unknownState p) := by
  show (s.edges p).map _ = _
  rw [edges_eq, Graph.edges?_eq_none_iff.2 hp]
  rfl

/-- The search has an answer for the vertices. -/
lemma Simulator.next_emptyMoves_eq_ok_iff :
    (∃ ts, s.emptyMoves.next p = .ok ts) ↔ p ∈ s.graph.vertices := by
  constructor
  · rintro ⟨ts, hts⟩
    by_contra hp
    rw [next_emptyMoves_of_not_mem hp] at hts
    nomatch hts
  · intro hp
    obtain ⟨es, hes⟩ := exists_edges hp
    exact ⟨_, next_emptyMoves_of_edges hes⟩

lemma Simulator.hasEmptyEdge_iff :
    s.graph.HasEmptyEdge p q ↔ ∃ ts, s.emptyMoves.next p = .ok ts ∧ q ∈ ts := by
  constructor
  · rintro ⟨es, hes, hq⟩
    refine ⟨_, next_emptyMoves_of_edges hes, ?_⟩
    exact List.mem_map.2 ⟨⟨q, epsilon⟩, List.mem_filter.2 ⟨hq, by simp⟩, rfl⟩
  · rintro ⟨ts, hts, hq⟩
    obtain ⟨es, hes⟩ := exists_edges (next_emptyMoves_eq_ok_iff.1 ⟨ts, hts⟩)
    obtain rfl := Except.ok.inj ((next_emptyMoves_of_edges hes).symm.trans hts)
    obtain ⟨e, he, rfl⟩ := List.mem_map.1 hq
    obtain ⟨he, hweight⟩ := List.mem_filter.1 he
    refine ⟨es, hes, ?_⟩
    rwa [← show e.weight = epsilon by simpa using hweight]

/-- The search follows empty edges. -/
lemma Simulator.reaches_emptyMoves_iff :
    s.emptyMoves.Reaches p q ↔ Relation.ReflTransGen s.graph.HasEmptyEdge p q := by
  constructor
  · intro h
    induction h with
    | refl => exact .refl
    | step _ hus hu ih => exact ih.tail (hasEmptyEdge_iff.2 ⟨_, hus, hu⟩)
  · intro h
    induction h with
    | refl => exact .refl
    | tail _ hedge ih =>
      obtain ⟨ts, hts, hmem⟩ := hasEmptyEdge_iff.1 hedge
      exact .step ih hts hmem

/-- What the search still has to put into its queue is no more than the edges of the graph. -/
lemma Simulator.pending_emptyMoves_le (s : Simulator) (visited : Std.TreeSet String) :
    s.emptyMoves.pending visited s.graph.vertices ≤ s.graph.edgeCount := by
  have hdegree : ∀ v ∈ s.graph.vertices,
      s.emptyMoves.degree v ≤ ((s.graph.edges? v).getD []).length := by
    intro v hv
    obtain ⟨es, hes⟩ := exists_edges hv
    rw [Successors.degree_eq (next_emptyMoves_of_edges hes), hes, List.length_map]
    exact List.length_filter_le _ es
  rw [Graph.edgeCount_eq_sum]
  calc s.emptyMoves.pending visited s.graph.vertices
      ≤ (s.graph.vertices.map s.emptyMoves.degree).sum :=
        (List.filter_sublist.map _).sum_le_sum fun _ _ => Nat.zero_le _
    _ ≤ _ := List.sum_le_sum hdegree

/-! ### What closing finds -/

/-- Closing finds what empty edges lead to, all of it vertices, or fails at a label that is led to and
is no vertex. -/
theorem Simulator.close_cases (s : Simulator) (A : StateSet) :
    (∃ B, s.close A = .ok B ∧ (∀ q, q ∈ B ↔ s.graph.Leads A q) ∧ ∀ q ∈ B, q ∈ s.graph.vertices) ∨
      ∃ l, s.close A = .error (.unknownState l) ∧ s.graph.Leads A l ∧ l ∉ s.graph.vertices := by
  have hf : s.emptyMoves.Finds A.toList ∅
      (A.toList.foldlM (fun visited p => s.emptyMoves.explore [p] visited) ∅) :=
    Successors.finds_foldlM A.toList (Successors.frontier_empty [])
  rw [close]
  cases hfound : A.toList.foldlM (fun visited p => s.emptyMoves.explore [p] visited) ∅ with
  | ok visited =>
    rw [hfound] at hf
    obtain ⟨hfrontier, hmem⟩ := hf
    refine .inl ⟨.ofTree visited, rfl, fun q => ?_, fun q hq => ?_⟩
    · simp [hmem, Graph.Leads, reaches_emptyMoves_iff]
    · obtain ⟨ts, hts, -⟩ := hfrontier q (StateSet.mem_ofTree.1 hq)
      exact next_emptyMoves_eq_ok_iff.1 ⟨ts, hts⟩
  | error e =>
    rw [hfound] at hf
    obtain ⟨p, hp, l, hpl, he⟩ := hf
    have hl : l ∉ s.graph.vertices := by
      intro hl
      obtain ⟨ts, hts⟩ := next_emptyMoves_eq_ok_iff.2 hl
      rw [hts] at he
      nomatch he
    rw [next_emptyMoves_of_not_mem hl] at he
    obtain rfl := Except.error.inj he
    exact .inr ⟨l, rfl, ⟨p, hp, reaches_emptyMoves_iff.1 hpl⟩, hl⟩

lemma Simulator.mem_close_iff (h : s.close A = .ok B) : q ∈ B ↔ s.graph.Leads A q := by
  rcases s.close_cases A with ⟨B', hB', hmem, -⟩ | ⟨l, hl, -⟩
  · obtain rfl := Except.ok.inj (h.symm.trans hB')
    exact hmem q
  · nomatch h.symm.trans hl

lemma Simulator.mem_vertices_of_close (h : s.close A = .ok B) (hq : q ∈ B) :
    q ∈ s.graph.vertices := by
  rcases s.close_cases A with ⟨B', hB', -, hvertices⟩ | ⟨l, hl, -⟩
  · obtain rfl := Except.ok.inj (h.symm.trans hB')
    exact hvertices q hq
  · nomatch h.symm.trans hl

/-- Closing succeeds exactly if all labels that are led to are vertices. -/
lemma Simulator.exists_close_iff :
    (∃ B, s.close A = .ok B) ↔ ∀ q, s.graph.Leads A q → q ∈ s.graph.vertices := by
  constructor
  · rintro ⟨B, hB⟩ q hq
    exact mem_vertices_of_close hB ((mem_close_iff hB).2 hq)
  · intro h
    rcases s.close_cases A with ⟨B, hB, -⟩ | ⟨l, -, hleads, hl⟩
    · exact ⟨B, hB⟩
    · exact absurd (h l hleads) hl

lemma Simulator.exists_close_error (hq : s.graph.Leads A q) (hnot : q ∉ s.graph.vertices) :
    ∃ l, s.close A = .error (.unknownState l) ∧ s.graph.Leads A l ∧ l ∉ s.graph.vertices := by
  refine (s.close_cases A).resolve_left ?_
  rintro ⟨B, hB, -⟩
  exact hnot (exists_close_iff.1 ⟨B, hB⟩ q hq)

/-- The closure of a state is the closure of the set of that state alone. -/
lemma Simulator.epsilonClosure_eq_close (s : Simulator) (p : String) :
    s.epsilonClosure p = s.close (.singleton p) := by
  show (s.emptyMoves.explore [p] ∅).map StateSet.ofTree =
    ([p].foldlM (fun visited state => s.emptyMoves.explore [state] visited) ∅).map StateSet.ofTree
  rw [List.foldlM_cons]
  cases s.emptyMoves.explore [p] ∅ <;> rfl

/-! ### Laws of closing -/

lemma Simulator.subset_of_close (h : s.close A = .ok B) : A ⊆ B :=
  fun p hp => (mem_close_iff h).2 ⟨p, hp, .refl⟩

/-- Closing a closed set changes nothing. -/
lemma Simulator.close_of_close (h : s.close A = .ok B) : s.close B = .ok B := by
  have hclosed : ∀ q, s.graph.Leads B q ↔ q ∈ B := by
    intro q
    constructor
    · rintro ⟨p, hp, hpq⟩
      obtain ⟨p', hp', hp'p⟩ := (mem_close_iff h).1 hp
      exact (mem_close_iff h).2 ⟨p', hp', hp'p.trans hpq⟩
    · exact fun hq => ⟨q, hq, .refl⟩
  obtain ⟨C, hC⟩ := exists_close_iff.2 fun q hq => mem_vertices_of_close h ((hclosed q).1 hq)
  rw [hC]
  congr 1
  exact StateSet.ext fun q => (mem_close_iff hC).trans (hclosed q)

/-- What closes a set closes each subset, and finds no more there. -/
lemma Simulator.close_mono (h : s.close A' = .ok B') (hA : A ⊆ A') :
    ∃ B, s.close A = .ok B ∧ B ⊆ B' := by
  obtain ⟨B, hB⟩ := exists_close_iff.2 fun q (hq : s.graph.Leads A q) =>
    exists_close_iff.1 ⟨B', h⟩ q (hq.mono hA)
  refine ⟨B, hB, ?_⟩
  intro q hq
  exact (mem_close_iff h).2 (((mem_close_iff hB).1 hq).mono hA)

/-- The closure of a union is the union of the closures. -/
lemma Simulator.close_union_iff :
    s.close (A ∪ A') = .ok C ↔
      ∃ B B', s.close A = .ok B ∧ s.close A' = .ok B' ∧ C = B ∪ B' := by
  have members : ∀ {B B' C}, s.close A = .ok B → s.close A' = .ok B' →
      s.close (A ∪ A') = .ok C → C = B ∪ B' := by
    intro B B' C hB hB' hC
    apply StateSet.ext
    intro q
    rw [mem_close_iff hC, Graph.leads_union_iff, StateSet.mem_union, mem_close_iff hB,
      mem_close_iff hB']
  constructor
  · intro hC
    obtain ⟨B, hB, -⟩ := close_mono hC fun q (hq : q ∈ A) => StateSet.mem_union.2 (.inl hq)
    obtain ⟨B', hB', -⟩ := close_mono hC fun q (hq : q ∈ A') => StateSet.mem_union.2 (.inr hq)
    exact ⟨B, B', hB, hB', members hB hB' hC⟩
  · rintro ⟨B, B', hB, hB', rfl⟩
    obtain ⟨C, hC⟩ := exists_close_iff.2 fun q (hq : s.graph.Leads (A ∪ A') q) =>
      (Graph.leads_union_iff.1 hq).elim (exists_close_iff.1 ⟨B, hB⟩ q)
        (exists_close_iff.1 ⟨B', hB'⟩ q)
    rw [hC, members hB hB' hC]

/-! ### Member by member -/

/-- Adds the closure of `p` to `B`, unless `p` was found before. -/
def Simulator.extend (s : Simulator) (B : StateSet) (p : String) : Except Error StateSet :=
  if p ∈ B then .ok B else (s.epsilonClosure p).map (B ∪ ·)

/-- Searching on from what was visited comes to the same as a search of its own for every member that
has not been found. -/
lemma Simulator.foldlM_explore_eq {visited : Std.TreeSet String}
    (h : s.emptyMoves.Frontier [] visited) (labels : List String) :
    (labels.foldlM (fun visited p => s.emptyMoves.explore [p] visited) visited).map StateSet.ofTree =
      labels.foldlM s.extend (.ofTree visited) := by
  induction labels generalizing visited with
  | nil => rfl
  | cons p labels ih =>
    rw [List.foldlM_cons, List.foldlM_cons, extend]
    by_cases hp : p ∈ visited
    · rw [if_pos (StateSet.mem_ofTree.2 hp), s.emptyMoves.explore_cons_of_mem [] hp,
        Successors.explore_nil]
      exact ih h
    · rw [if_neg (by simpa using hp), epsilonClosure]
      have hfinds : s.emptyMoves.Finds [p] visited (s.emptyMoves.explore [p] visited) :=
        Successors.finds_explore h.append
      have halike := Successors.explore_endAlike h [p] ∅ [p] visited (by simp) rfl
      cases hfresh : s.emptyMoves.explore [p] ∅ with
      | error e =>
        cases hfound : s.emptyMoves.explore [p] visited with
        | ok found => simp [hfresh, hfound, Successors.EndAlike] at halike
        | error e' =>
          rw [hfresh, hfound] at halike
          obtain rfl : e = e' := halike
          rfl
      | ok fresh =>
        cases hfound : s.emptyMoves.explore [p] visited with
        | error e' => simp [hfresh, hfound, Successors.EndAlike] at halike
        | ok found =>
          rw [hfresh, hfound] at halike
          rw [hfound] at hfinds
          have hunion : StateSet.ofTree visited ∪ StateSet.ofTree fresh = .ofTree found := by
            apply StateSet.ext
            intro q
            simpa using (halike q).symm
          show (labels.foldlM (fun visited p => s.emptyMoves.explore [p] visited) found).map
              StateSet.ofTree = labels.foldlM s.extend (.ofTree visited ∪ .ofTree fresh)
          rw [hunion]
          exact ih hfinds.1

/-- Closing a set adds up the closures of its members, except for members that are found on the way. -/
theorem Simulator.close_eq_foldlM (s : Simulator) (A : StateSet) :
    s.close A = A.toList.foldlM s.extend ∅ := by
  have hempty : StateSet.ofTree ∅ = ∅ := StateSet.ext fun q => by simp
  rw [← hempty, ← foldlM_explore_eq (Successors.frontier_empty [])]
  rfl

/-! ### Closing is exact -/

/-- In any simulator every search for empty edges ends, one label from its queue for each edge at the
latest, whatever has been visited before; closing makes one for each member that has not been found.
What it finds is what empty edges lead to, if all of it are vertices; else the error names a label
that is led to and is no vertex. Where closing succeeds it is extensive, idempotent and monotone, and it
distributes over unions. -/
theorem Simulator.close_exact (s : Simulator) :
    (∀ p visited, ∃ n ≤ 1 + s.graph.edgeCount,
      s.emptyMoves.EndsAfter [p] visited n (s.emptyMoves.explore [p] visited)) ∧
    (∀ p, s.epsilonClosure p = s.close (.singleton p)) ∧
    (∀ A, s.close A = A.toList.foldlM s.extend ∅) ∧
    (∀ A, (∀ q, s.graph.Leads A q → q ∈ s.graph.vertices) →
      ∃ B, s.close A = .ok B ∧ ∀ q, q ∈ B ↔ s.graph.Leads A q) ∧
    (∀ A, (∃ q, s.graph.Leads A q ∧ q ∉ s.graph.vertices) →
      ∃ l, s.close A = .error (.unknownState l) ∧ s.graph.Leads A l ∧ l ∉ s.graph.vertices) ∧
    (∀ A B, s.close A = .ok B → A ⊆ B ∧ s.close B = .ok B) ∧
    (∀ A A' B', s.close A' = .ok B' → A ⊆ A' → ∃ B, s.close A = .ok B ∧ B ⊆ B') ∧
    ∀ A A' C, s.close (A ∪ A') = .ok C ↔
      ∃ B B', s.close A = .ok B ∧ s.close A' = .ok B' ∧ C = B ∪ B' := by
  refine ⟨fun p visited => ?_, s.epsilonClosure_eq_close, s.close_eq_foldlM, fun A hA => ?_, ?_,
    fun A B hB => ⟨subset_of_close hB, close_of_close hB⟩,
    fun A A' B' => close_mono, fun A A' C => close_union_iff⟩
  · obtain ⟨n, hn, hends⟩ := s.emptyMoves.exists_endsAfter [p] visited
    exact ⟨n, hn.trans (Nat.add_le_add_left (s.pending_emptyMoves_le visited) 1), hends⟩
  · obtain ⟨B, hB⟩ := exists_close_iff.2 hA
    exact ⟨B, hB, fun q => mem_close_iff hB⟩
  · rintro A ⟨q, hq, hnot⟩
    exact exists_close_error hq hnot

/-- A loop and a cycle of empty moves, and an empty move to a label that is no vertex. -/
def Automaton.emptyCycle : Automaton :=
  ⟨["s0", "s1", "s2"], ["s0"], [], [],
    [⟨"s0", "$", ["s0", "s1"]⟩, ⟨"s1", "$", ["s0"]⟩, ⟨"s2", "$", ["s1", "s9"]⟩]⟩

/-- The cycle is closed from one of its states, and nothing can be closed that leads out of the graph. -/
theorem Simulator.close_exact_emptyCycle :
    (∃ B, Automaton.emptyCycle.simulator.close (.singleton "s1") = .ok B ∧
      ∀ q, q ∈ B ↔ q = "s0" ∨ q = "s1") ∧
      ∃ l, Automaton.emptyCycle.simulator.close (.ofList ["s1", "s2"]) = .error (.unknownState l) ∧
        l ∉ ["s0", "s1", "s2"] := by
  obtain ⟨-, -, -, hok, herror, -⟩ := close_exact Automaton.emptyCycle.simulator
  have hs0 : Automaton.emptyCycle.simulator.graph.edges? "s0" =
      some [⟨"s0", epsilon⟩, ⟨"s1", epsilon⟩] := by decide
  have hs1 : Automaton.emptyCycle.simulator.graph.edges? "s1" = some [⟨"s0", epsilon⟩] := by decide
  have hs2 : Automaton.emptyCycle.simulator.graph.edges? "s2" =
      some [⟨"s1", epsilon⟩, ⟨"s9", epsilon⟩] := by decide
  have hleads : ∀ q, Automaton.emptyCycle.simulator.graph.Leads (.singleton "s1") q ↔
      q = "s0" ∨ q = "s1" := by
    intro q
    constructor
    · rintro ⟨p, hp, hpq⟩
      obtain rfl := StateSet.mem_singleton.1 hp
      induction hpq with
      | refl => exact .inr rfl
      | tail _ hedge ih =>
        obtain ⟨es, hes, hq⟩ := hedge
        rcases ih with rfl | rfl
        · obtain rfl := Option.some.inj (hs0.symm.trans hes)
          simpa using hq
        · obtain rfl := Option.some.inj (hs1.symm.trans hes)
          exact .inl (by simpa using hq)
    · rintro (rfl | rfl)
      · exact ⟨"s1", by simp, .single ⟨_, hs1, by simp⟩⟩
      · exact ⟨"s1", by simp, .refl⟩
  constructor
  · obtain ⟨B, hB, hmem⟩ := hok (.singleton "s1") fun q hq => by
      rcases (hleads q).1 hq with rfl | rfl <;> decide
    exact ⟨B, hB, fun q => (hmem q).trans (hleads q)⟩
  · obtain ⟨l, hl, -, hnot⟩ := herror (.ofList ["s1", "s2"])
      ⟨"s9", ⟨"s2", by simp, .single ⟨_, hs2, by simp⟩⟩, by decide⟩
    exact ⟨l, hl, hnot⟩

end Automata
