import Automata.Graph
import Mathlib

/-!
# Histories of graphs

A graph is what operations have made of the empty one. `Graph.ofHistory` carries the operations out;
here the vertices and the edges are read off the list of operations instead. A label is a vertex if it
was entered and not removed later. Its edges are those that were added and not taken away later, and
its place among the vertices is that of the operation that entered it.
-/

namespace Automata

namespace Graph

/-! ### Operations -/

/-- A change to a graph. -/
inductive Operation where
  | addVertex (label : String)
  | addEdge (source destination weight : String)
  | removeEdge (source destination : String)
  | removeVertex (label : String)
  deriving DecidableEq

/-- The graph after a change. -/
def apply (g : Graph) : Operation → Graph
  | .addVertex label => g.addVertex label
  | .addEdge source destination weight => g.addEdge source destination weight
  | .removeEdge source destination => g.removeEdge source destination
  | .removeVertex label => g.removeVertex label

/-- What operations make of the empty graph. -/
def ofHistory (ops : List Operation) : Graph :=
  ops.foldl apply empty

/-- `op` sees to it that `v` is a vertex. -/
def Operation.Enters (op : Operation) (v : String) : Prop :=
  op = .addVertex v ∨ ∃ d w, op = .addEdge v d w

/-- `op` takes all edges from `v` to `d` away. -/
def Operation.Clears (op : Operation) (v d : String) : Prop :=
  op = .addVertex v ∨ op = .removeVertex v ∨ op = .removeEdge v d

instance (op : Operation) (v d : String) : Decidable (op.Clears v d) :=
  inferInstanceAs (Decidable (_ ∨ _ ∨ _))

variable {g : Graph} {ops : List Operation} {op : Operation} {u v d : String} {i j : Nat}

lemma Operation.Enters.ne_removeVertex (h : op.Enters u) : op ≠ .removeVertex v := by
  rcases h with rfl | ⟨d, w, rfl⟩ <;> simp

/-! ### What a history says -/

/-- The operation at `i` enters `v`, and none after it removes `v`. -/
def Entered (ops : List Operation) (v : String) (i : Nat) : Prop :=
  ∃ op ∈ ops[i]?, op.Enters v ∧ .removeVertex v ∉ ops.drop (i + 1)

/-- Some operation enters `v`, and none after it removes `v`. -/
def Registered (ops : List Operation) (v : String) : Prop :=
  ∃ i, Entered ops v i

/-- The operation at `i` enters `v` when it is no vertex, and none after it removes `v`. -/
def FirstEntered (ops : List Operation) (v : String) (i : Nat) : Prop :=
  Entered ops v i ∧ ¬ Registered (ops.take i) v

/-- The edges that are added to `v` and not taken away later, in the order in which they are added. -/
def edgesLeft (v : String) : List Operation → List Edge
  | [] => []
  | .addEdge s d w :: later =>
    if s = v ∧ ∀ op ∈ later, ¬ op.Clears v d then ⟨d, w⟩ :: edgesLeft v later
    else edgesLeft v later
  | _ :: later => edgesLeft v later

/-! ### One operation more in the history -/

lemma ofHistory_concat (ops : List Operation) (op : Operation) :
    ofHistory (ops ++ [op]) = (ofHistory ops).apply op := by
  rw [ofHistory, List.foldl_append]
  rfl

lemma Entered.lt_length (h : Entered ops v i) : i < ops.length := by
  obtain ⟨op, hop, -⟩ := h
  exact (List.getElem?_eq_some_iff.1 hop).1

lemma entered_concat_iff :
    Entered (ops ++ [op]) v i ↔
      i = ops.length ∧ op.Enters v ∨ Entered ops v i ∧ op ≠ .removeVertex v := by
  rcases Nat.lt_trichotomy i ops.length with hi | rfl | hi
  · have hget : (ops ++ [op])[i]? = ops[i]? := List.getElem?_append_left hi
    have hdrop : (ops ++ [op]).drop (i + 1) = ops.drop (i + 1) ++ [op] :=
      List.drop_append_of_le_length hi
    simp only [Entered, hget, hdrop, List.mem_append, List.mem_singleton, not_or, hi.ne, false_and,
      false_or, @eq_comm _ _ op]
    constructor
    · rintro ⟨op', hop', henters, hnot, hne⟩
      exact ⟨⟨op', hop', henters, hnot⟩, hne⟩
    · rintro ⟨⟨op', hop', henters, hnot⟩, hne⟩
      exact ⟨op', hop', henters, hnot, hne⟩
  · simp [Entered]
  · have not_lt : ¬ i < (ops ++ [op]).length := by
      simp only [List.length_append, List.length_singleton]
      omega
    constructor
    · exact fun h => absurd h.lt_length not_lt
    · rintro (⟨rfl, -⟩ | ⟨h, -⟩)
      · exact absurd hi (Nat.lt_irrefl _)
      · exact absurd h.lt_length (Nat.lt_asymm hi)

lemma registered_concat_iff :
    Registered (ops ++ [op]) v ↔ op.Enters v ∨ Registered ops v ∧ op ≠ .removeVertex v := by
  simp only [Registered, entered_concat_iff, exists_or, exists_and_right]
  simp

lemma firstEntered_concat_iff :
    FirstEntered (ops ++ [op]) v i ↔
      i = ops.length ∧ op.Enters v ∧ ¬ Registered ops v ∨
        FirstEntered ops v i ∧ op ≠ .removeVertex v := by
  rw [FirstEntered, entered_concat_iff]
  constructor
  · rintro ⟨⟨rfl, henters⟩ | ⟨h, hne⟩, hfresh⟩
    · rw [List.take_left] at hfresh
      exact .inl ⟨rfl, henters, hfresh⟩
    · rw [List.take_append_of_le_length h.lt_length.le] at hfresh
      exact .inr ⟨⟨h, hfresh⟩, hne⟩
  · rintro (⟨rfl, henters, hfresh⟩ | ⟨⟨h, hfresh⟩, hne⟩)
    · rw [List.take_left]
      exact ⟨.inl ⟨rfl, henters⟩, hfresh⟩
    · rw [List.take_append_of_le_length h.lt_length.le]
      exact ⟨.inr ⟨h, hne⟩, hfresh⟩

/-- One operation more takes some edges away and adds its own. -/
lemma edgesLeft_concat :
    edgesLeft v (ops ++ [op]) =
      (edgesLeft v ops).filter (fun e => ¬ op.Clears v e.destination) ++ edgesLeft v [op] := by
  induction ops with
  | nil => rfl
  | cons first ops ih =>
    cases first with
    | addEdge s d w =>
      rw [List.cons_append, edgesLeft, edgesLeft, ih]
      by_cases hkept : s = v ∧ ∀ op ∈ ops, ¬ op.Clears v d
      · by_cases hclears : op.Clears v d
        · rw [if_neg (by simp [hclears]), if_pos hkept, List.filter_cons_of_neg (by simpa)]
        · have hkept' : s = v ∧ ∀ op' ∈ ops ++ [op], ¬ op'.Clears v d := by
            refine ⟨hkept.1, ?_⟩
            simp only [List.mem_append, List.mem_singleton]
            rintro op' (h | rfl)
            · exact hkept.2 op' h
            · exact hclears
          rw [if_pos hkept', if_pos hkept, List.filter_cons_of_pos (by simpa), List.cons_append]
      · rw [if_neg hkept, if_neg]
        rintro ⟨hs, h⟩
        exact hkept ⟨hs, fun op' hop' => h op' (List.mem_append_left _ hop')⟩
    | _ => exact ih

/-! ### When a vertex was entered -/

lemma FirstEntered.registered (h : FirstEntered ops v i) : Registered ops v :=
  ⟨i, h.1⟩

/-- No operation that enters `v` comes before the first one, unless `v` is removed in between. -/
lemma FirstEntered.le (h : FirstEntered ops v i) (h' : Entered ops v j) : i ≤ j := by
  by_contra hlt
  have hji : j < i := Nat.lt_of_not_le hlt
  obtain ⟨op, hop, henters, hnot⟩ := h'
  refine h.2 ⟨j, op, ?_, henters, ?_⟩
  · rwa [List.getElem?_take_of_lt hji]
  · rw [List.drop_take]
    exact fun hmem => hnot (List.mem_of_mem_take hmem)

lemma FirstEntered.unique (h : FirstEntered ops v i) (h' : FirstEntered ops v j) : i = j :=
  Nat.le_antisymm (h.le h'.1) (h'.le h.1)

lemma Registered.exists_firstEntered (h : Registered ops v) : ∃ i, FirstEntered ops v i := by
  induction ops using List.reverseRecOn with
  | nil =>
    obtain ⟨i, h⟩ := h
    exact absurd h.lt_length (Nat.not_lt_zero i)
  | append_singleton ops op ih =>
    simp only [firstEntered_concat_iff]
    by_cases hold : Registered ops v
    · obtain ⟨i, hi⟩ := ih hold
      refine ⟨i, .inr ⟨hi, ?_⟩⟩
      rcases registered_concat_iff.1 h with henters | ⟨-, hne⟩
      · exact henters.ne_removeVertex
      · exact hne
    · have henters : op.Enters v := (registered_concat_iff.1 h).resolve_right fun h => hold h.1
      exact ⟨ops.length, .inl ⟨rfl, henters, hold⟩⟩

/-! ### Vertices -/

lemma vertices_apply_of_enters (h : op.Enters v) :
    (g.apply op).vertices = if v ∈ g.vertices then g.vertices else g.vertices ++ [v] := by
  rcases h with rfl | ⟨d, w, rfl⟩
  · exact vertices_addVertex g v
  · exact vertices_addEdge g v d w

/-- An operation that enters nothing leaves the vertices in their order. -/
lemma vertices_apply_of_not_enters (h : ∀ v, ¬ op.Enters v) :
    (g.apply op).vertices = g.vertices.filter (op ≠ .removeVertex ·) := by
  cases op with
  | addVertex v => exact absurd (.inl rfl) (h v)
  | addEdge v d w => exact absurd (.inr ⟨d, w, rfl⟩) (h v)
  | removeEdge s d => simp [apply]
  | removeVertex v =>
    rw [apply, vertices_removeVertex]
    refine List.filter_congr fun u _ => ?_
    simp [bne, Bool.beq_eq_decide_eq, eq_comm]

lemma mem_vertices_apply :
    v ∈ (g.apply op).vertices ↔ op.Enters v ∨ v ∈ g.vertices ∧ op ≠ .removeVertex v := by
  by_cases h : ∃ u, op.Enters u
  · obtain ⟨u, hu⟩ := h
    have enters_iff : op.Enters v ↔ v = u := by
      rcases hu with rfl | ⟨d, w, rfl⟩ <;> simp [Operation.Enters, eq_comm]
    rw [vertices_apply_of_enters hu, enters_iff]
    have hne : op ≠ .removeVertex v := hu.ne_removeVertex
    split
    · next hmem =>
      constructor
      · exact fun hv => .inr ⟨hv, hne⟩
      · rintro (rfl | ⟨hv, -⟩) <;> assumption
    · simp [hne, or_comm]
  · have h : ∀ u, ¬ op.Enters u := not_exists.1 h
    rw [vertices_apply_of_not_enters h]
    simp [h v]

lemma mem_vertices_ofHistory : v ∈ (ofHistory ops).vertices ↔ Registered ops v := by
  induction ops using List.reverseRecOn with
  | nil => simp [ofHistory, empty, vertices, Registered, Entered]
  | append_singleton ops op ih =>
    rw [ofHistory_concat, mem_vertices_apply, registered_concat_iff, ih]

/-- Vertices stand in the order in which they were entered. -/
lemma pairwise_vertices_ofHistory (ops : List Operation) :
    (ofHistory ops).vertices.Pairwise fun u v =>
      ∀ i j, FirstEntered ops u i → FirstEntered ops v j → i < j := by
  induction ops using List.reverseRecOn with
  | nil => exact .nil
  | append_singleton ops op ih =>
    -- What was a vertex before and is one now was entered when it was entered before.
    have old : ∀ {v i}, v ∈ (ofHistory ops).vertices → FirstEntered (ops ++ [op]) v i →
        FirstEntered ops v i := by
      intro v i hv h
      rcases firstEntered_concat_iff.1 h with ⟨-, -, hnot⟩ | ⟨h, -⟩
      · exact absurd (mem_vertices_ofHistory.1 hv) hnot
      · exact h
    have kept : (ofHistory ops).vertices.Pairwise fun u v =>
        ∀ i j, FirstEntered (ops ++ [op]) u i → FirstEntered (ops ++ [op]) v j → i < j :=
      ih.imp_of_mem fun hu hv h i j hi hj => h i j (old hu hi) (old hv hj)
    rw [ofHistory_concat]
    by_cases h : ∃ w, op.Enters w
    · obtain ⟨w, hw⟩ := h
      rw [vertices_apply_of_enters hw]
      split
      · exact kept
      · next hnot =>
        refine List.pairwise_append.2 ⟨kept, List.pairwise_singleton _ _, ?_⟩
        intro u hu v hv i j hi hj
        obtain rfl := List.mem_singleton.1 hv
        rcases firstEntered_concat_iff.1 hj with ⟨rfl, -, -⟩ | ⟨hj, -⟩
        · exact (old hu hi).1.lt_length
        · exact absurd (mem_vertices_ofHistory.2 hj.registered) hnot
    · rw [vertices_apply_of_not_enters (not_exists.1 h)]
      exact kept.sublist List.filter_sublist

/-! ### Edges -/

lemma getD_edges?_apply :
    ((g.apply op).edges? v).getD [] =
      ((g.edges? v).getD []).filter (fun e => ¬ op.Clears v e.destination) ++ edgesLeft v [op] := by
  cases op with
  | addVertex u =>
    rw [apply, edges?_addVertex]
    rcases eq_or_ne v u with rfl | h
    · simp [Operation.Clears, edgesLeft]
    · simp [h, Operation.Clears, edgesLeft, h.symm]
  | addEdge s d w =>
    rw [apply, edges?_addEdge]
    rcases eq_or_ne v s with rfl | h
    · simp [Operation.Clears, edgesLeft]
    · simp [h, Operation.Clears, edgesLeft, h.symm]
  | removeEdge s d =>
    rw [apply, edges?_removeEdge]
    rcases eq_or_ne v s with rfl | h
    · cases g.edges? v <;> simp [Operation.Clears, edgesLeft, bne, beq_eq_decide, eq_comm]
    · simp [h, Operation.Clears, edgesLeft, h.symm]
  | removeVertex u =>
    rw [apply, edges?_removeVertex]
    rcases eq_or_ne v u with rfl | h
    · simp [Operation.Clears, edgesLeft]
    · simp [h, Operation.Clears, edgesLeft, h.symm]

lemma getD_edges?_ofHistory (ops : List Operation) (v : String) :
    ((ofHistory ops).edges? v).getD [] = edgesLeft v ops := by
  induction ops using List.reverseRecOn with
  | nil => rfl
  | append_singleton ops op ih => rw [ofHistory_concat, getD_edges?_apply, ih, edgesLeft_concat]

lemma edges?_ofHistory_eq_some_iff {es : List Edge} :
    (ofHistory ops).edges? v = some es ↔ Registered ops v ∧ es = edgesLeft v ops := by
  rw [← mem_vertices_ofHistory, ← getD_edges?_ofHistory]
  have hnone : (ofHistory ops).edges? v = none ↔ v ∉ (ofHistory ops).vertices :=
    edges?_eq_none_iff
  cases h : (ofHistory ops).edges? v with
  | none => simp [hnone.1 h]
  | some es' =>
    have hmem : v ∈ (ofHistory ops).vertices := by
      by_contra hnot
      rw [hnone.2 hnot] at h
      nomatch h
    simp [hmem, eq_comm]

lemma edges?_of_mem_adjacency {es : List Edge} (h : (v, es) ∈ g.adjacency) :
    g.edges? v = some es := by
  rw [edges?]
  have hnodup := g.nodup
  generalize g.adjacency = rows at h hnodup
  induction rows with
  | nil => exact absurd h List.not_mem_nil
  | cons row rows ih =>
    obtain ⟨u, es'⟩ := row
    rw [List.map_cons, List.nodup_cons] at hnodup
    rw [lookup_row]
    rcases List.mem_cons.1 h with heq | hmem
    · obtain ⟨rfl, rfl⟩ := Prod.mk.inj heq
      rw [if_pos rfl]
    · have hne : v ≠ u := by
        rintro rfl
        exact hnodup.1 (List.mem_map.2 ⟨_, hmem, rfl⟩)
      rw [if_neg hne]
      exact ih hmem hnodup.2

/-- The number of edges is what the vertices have together. -/
lemma edgeCount_eq_sum (g : Graph) :
    g.edgeCount = (g.vertices.map fun v => ((g.edges? v).getD []).length).sum := by
  rw [edgeCount, List.length_flatMap, vertices, List.map_map]
  congr 1
  refine List.map_congr_left fun row hrow => ?_
  rw [Function.comp, edges?_of_mem_adjacency hrow, Option.getD_some]

/-! ### Removing a vertex edge by edge -/

lemma filter_mapRow (f : List Edge → List Edge) (v : String) (rows : List (String × List Edge)) :
    (mapRow f v rows).filter (·.1 != v) = rows.filter (·.1 != v) := by
  induction rows with
  | nil => rfl
  | cons row rows ih =>
    rw [mapRow] at ih ⊢
    rw [List.map_cons]
    by_cases h : row.1 = v
    · rw [if_pos h, List.filter_cons_of_neg (by simpa using h),
        List.filter_cons_of_neg (by simpa using h), ih]
    · rw [if_neg h, List.filter_cons_of_pos (by simpa using h),
        List.filter_cons_of_pos (by simpa using h), ih]

lemma removeVertex_removeEdge (g : Graph) (v d : String) :
    (g.removeEdge v d).removeVertex v = g.removeVertex v := by
  simp only [removeVertex, removeEdge, filter_mapRow]

/-- Dropping the edges of a vertex one destination after the other beforehand makes no difference to
its removal. -/
theorem removeVertex_foldl_removeEdge (g : Graph) (v : String) (destinations : List String) :
    (destinations.foldl (fun g d => g.removeEdge v d) g).removeVertex v = g.removeVertex v := by
  induction destinations generalizing g with
  | nil => rfl
  | cons d destinations ih => rw [List.foldl_cons, ih, removeVertex_removeEdge]

/-! ### The graph of a history -/

/-- A label has edges exactly if it was entered and not removed later, and they are the ones that were
added and not taken away later. All such labels are vertices, each once, in the order in which they
were entered, and the edges are counted vertex by vertex. -/
theorem edges_vertices_ofHistory (ops : List Operation) :
    (∀ v es, (ofHistory ops).edges? v = some es ↔ Registered ops v ∧ es = edgesLeft v ops) ∧
      (ofHistory ops).vertices.Nodup ∧
      (∀ v, v ∈ (ofHistory ops).vertices ↔ ∃ i, FirstEntered ops v i) ∧
      (ofHistory ops).vertices.Pairwise (fun u v =>
        ∀ i j, FirstEntered ops u i → FirstEntered ops v j → i < j) ∧
      (∀ v i j, FirstEntered ops v i → FirstEntered ops v j → i = j) ∧
      (ofHistory ops).edgeCount =
        ((ofHistory ops).vertices.map fun v => (edgesLeft v ops).length).sum := by
  refine ⟨fun v es => edges?_ofHistory_eq_some_iff, (ofHistory ops).nodup, fun v => ?_,
    pairwise_vertices_ofHistory ops, fun v i j => FirstEntered.unique, ?_⟩
  · rw [mem_vertices_ofHistory]
    constructor
    · exact Registered.exists_firstEntered
    · rintro ⟨i, h⟩
      exact h.registered
  · simp only [edgeCount_eq_sum, getD_edges?_ofHistory]

end Graph

end Automata
