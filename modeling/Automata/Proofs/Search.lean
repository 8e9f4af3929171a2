import Automata.Reachability
import Mathlib

/-!
# What a search finds

A search started with nothing visited returns exactly the labels that its queue leads to, or the
first label among them that has no answer. The invariant is `Successors.Frontier`: whatever a visited
label leads to has been visited as well, or waits in the queue.
-/

namespace Automata

variable {ε : Type} {σ : Successors ε}

/-! ### Reaching -/

lemma Successors.Reaches.head {s t u : String} {us : List String} (hs : σ.next s = .ok us)
    (hu : u ∈ us) (h : σ.Reaches u t) : σ.Reaches s t := by
  induction h with
  | refl => exact .step .refl hs hu
  | step _ ht hw ih => exact .step ih ht hw

/-! ### The invariant -/

/-- Every visited label has an answer, and what it leads to is visited or waits in the queue. -/
def Successors.Frontier (σ : Successors ε) (queue : List String)
    (visited : Std.TreeSet String) : Prop :=
  ∀ s ∈ visited, ∃ ts, σ.next s = .ok ts ∧ ∀ t ∈ ts, t ∈ visited ∨ t ∈ queue

@[simp] lemma Successors.frontier_empty (queue : List String) : σ.Frontier queue ∅ :=
  fun _ hs => absurd hs (by simp)

lemma Successors.Frontier.visited {s : String} {queue : List String}
    {visited : Std.TreeSet String} (h : σ.Frontier (s :: queue) visited) (hs : s ∈ visited) :
    σ.Frontier queue visited := by
  intro t ht
  obtain ⟨us, hus, hmem⟩ := h t ht
  refine ⟨us, hus, ?_⟩
  intro u hu
  rcases hmem u hu with hu | hu
  · exact .inl hu
  · rcases List.mem_cons.1 hu with rfl | hu
    · exact .inl hs
    · exact .inr hu

lemma Successors.Frontier.insert {s : String} {ts queue : List String}
    {visited : Std.TreeSet String} (h : σ.Frontier (s :: queue) visited)
    (hs : σ.next s = .ok ts) : σ.Frontier (queue ++ ts) (visited.insert s) := by
  intro t ht
  rcases Std.TreeSet.mem_insert.1 ht with hst | ht
  · obtain rfl : s = t := by simpa using hst
    exact ⟨ts, hs, fun u hu => .inr (List.mem_append_right _ hu)⟩
  · obtain ⟨us, hus, hmem⟩ := h t ht
    refine ⟨us, hus, ?_⟩
    intro u hu
    rcases hmem u hu with hu | hu
    · exact .inl (by simp [hu])
    · rcases List.mem_cons.1 hu with rfl | hu
      · exact .inl (by simp)
      · exact .inr (List.mem_append_left _ hu)

lemma Successors.Frontier.append {queue : List String} {visited : Std.TreeSet String}
    (h : σ.Frontier [] visited) : σ.Frontier queue visited := by
  intro s hs
  obtain ⟨ts, hts, hmem⟩ := h s hs
  exact ⟨ts, hts, fun t ht => .inl ((hmem t ht).resolve_right (by simp))⟩

/-- When nothing waits, what a visited label reaches has been visited and has an answer. -/
lemma Successors.Frontier.mem_of_reaches {s t : String} {visited : Std.TreeSet String}
    (h : σ.Frontier [] visited) (hs : s ∈ visited) (hr : σ.Reaches s t) : t ∈ visited := by
  induction hr with
  | refl => exact hs
  | @step t u us _ ht hu ih =>
    obtain ⟨ts, hts, hmem⟩ := h t ih
    obtain rfl : ts = us := by simpa [hts] using ht
    exact (hmem u hu).resolve_right (by simp)

/-! ### Induction along a search -/

/-- What holds of a search holds if each of its four kinds of steps keeps it. -/
theorem Successors.explore_induction (σ : Successors ε)
    {motive : List String → Std.TreeSet String → Prop}
    (nil : ∀ visited, motive [] visited)
    (skip : ∀ s queue visited, s ∈ visited → motive queue visited → motive (s :: queue) visited)
    (visit : ∀ s queue visited ts, s ∉ visited → σ.next s = .ok ts →
      motive (queue ++ ts) (visited.insert s) → motive (s :: queue) visited)
    (stop : ∀ s queue visited e, s ∉ visited → σ.next s = .error e → motive (s :: queue) visited)
    (queue : List String) (visited : Std.TreeSet String) : motive queue visited := by
  match queue with
  | [] => exact nil visited
  | s :: queue =>
    by_cases hv : s ∈ visited
    · exact skip s queue visited hv (σ.explore_induction nil skip visit stop queue visited)
    · cases hs : σ.next s with
      | error e => exact stop s queue visited e hv hs
      | ok ts =>
        exact visit s queue visited ts hv hs
          (σ.explore_induction nil skip visit stop (queue ++ ts) (visited.insert s))
termination_by (σ.unvisited visited, queue.length)
decreasing_by
  · exact Prod.Lex.right _ (by simp)
  · rcases σ.unvisited_insert hv hs with h | ⟨h, rfl⟩
    · exact Prod.Lex.left _ _ h
    · rw [h]
      exact Prod.Lex.right _ (by simp)

/-! ### Results -/

/-- The result of a search from `starts`, when `visited` had been visited before: what the starts
reach was added, or some label that they reach has no answer. -/
def Successors.Finds (σ : Successors ε) (starts : List String) (visited : Std.TreeSet String) :
    Except ε (Std.TreeSet String) → Prop
  | .ok found => σ.Frontier [] found ∧
      ∀ t, t ∈ found ↔ t ∈ visited ∨ ∃ s ∈ starts, σ.Reaches s t
  | .error e => ∃ s ∈ starts, ∃ t, σ.Reaches s t ∧ σ.next t = .error e

theorem Successors.finds_explore {queue : List String} {visited : Std.TreeSet String}
    (h : σ.Frontier queue visited) : σ.Finds queue visited (σ.explore queue visited) := by
  induction queue, visited using σ.explore_induction with
  | nil visited =>
    rw [explore_nil]
    exact ⟨h, by simp⟩
  | skip s queue visited hs ih =>
    rw [σ.explore_cons_of_mem queue hs]
    have ih := ih (h.visited hs)
    cases hr : σ.explore queue visited with
    | error e =>
      rw [hr] at ih
      obtain ⟨s', hs', t, ht⟩ := ih
      exact ⟨s', List.mem_cons_of_mem _ hs', t, ht⟩
    | ok found =>
      rw [hr] at ih
      obtain ⟨hf, hmem⟩ := ih
      refine ⟨hf, fun t => ⟨fun ht => ?_, ?_⟩⟩
      · exact ((hmem t).1 ht).imp_right fun ⟨s', hs', hr⟩ => ⟨s', List.mem_cons_of_mem _ hs', hr⟩
      · rintro (ht | ⟨s', hs', hst⟩)
        · exact (hmem t).2 (.inl ht)
        · rcases List.mem_cons.1 hs' with rfl | hs'
          · exact hf.mem_of_reaches ((hmem s').2 (.inl hs)) hst
          · exact (hmem t).2 (.inr ⟨s', hs', hst⟩)
  | visit s queue visited ts hs hts ih =>
    rw [σ.explore_cons_of_ok queue hs hts]
    have ih := ih (h.insert hts)
    -- a label that the successors of `s` reach is one that `s` reaches
    have back : ∀ {t}, (∃ s' ∈ queue ++ ts, σ.Reaches s' t) →
        ∃ s' ∈ s :: queue, σ.Reaches s' t := by
      rintro t ⟨s', hs', hr⟩
      rcases List.mem_append.1 hs' with hs' | hs'
      · exact ⟨s', List.mem_cons_of_mem _ hs', hr⟩
      · exact ⟨s, List.mem_cons_self, .head hts hs' hr⟩
    cases hr : σ.explore (queue ++ ts) (visited.insert s) with
    | error e =>
      rw [hr] at ih
      obtain ⟨s', hs', t, hst, ht⟩ := ih
      obtain ⟨s'', hs'', hr⟩ := back ⟨s', hs', hst⟩
      exact ⟨s'', hs'', t, hr, ht⟩
    | ok found =>
      rw [hr] at ih
      obtain ⟨hf, hmem⟩ := ih
      have hsf : s ∈ found := (hmem s).2 (.inl (by simp))
      refine ⟨hf, fun t => ⟨fun ht => ?_, ?_⟩⟩
      · rcases (hmem t).1 ht with ht | ht
        · rcases Std.TreeSet.mem_insert.1 ht with hst | ht
          · obtain rfl : s = t := by simpa using hst
            exact .inr ⟨s, List.mem_cons_self, .refl⟩
          · exact .inl ht
        · exact .inr (back ht)
      · rintro (ht | ⟨s', hs', hst⟩)
        · exact (hmem t).2 (.inl (by simp [ht]))
        · rcases List.mem_cons.1 hs' with rfl | hs'
          · exact hf.mem_of_reaches hsf hst
          · exact (hmem t).2 (.inr ⟨s', List.mem_append_left _ hs', hst⟩)
  | stop s queue visited e hs he =>
    rw [σ.explore_cons_of_error queue hs he]
    exact ⟨s, List.mem_cons_self, s, .refl, he⟩

/-- Searching from one start after the other finds what a search from all of them does. -/
theorem Successors.finds_foldlM (starts : List String) {visited : Std.TreeSet String}
    (h : σ.Frontier [] visited) :
    σ.Finds starts visited (starts.foldlM (fun visited s => σ.explore [s] visited) visited) := by
  induction starts generalizing visited with
  | nil => exact ⟨h, by simp⟩
  | cons s starts ih =>
    have first : σ.Finds [s] visited (σ.explore [s] visited) := finds_explore h.append
    rw [List.foldlM_cons]
    cases hr : σ.explore [s] visited with
    | error e =>
      rw [hr] at first
      obtain ⟨s', hs', t, ht⟩ := first
      exact ⟨s, List.mem_cons_self, t, List.mem_singleton.1 hs' ▸ ht⟩
    | ok found =>
      rw [hr] at first
      obtain ⟨hf, hmem⟩ := first
      have rest := ih hf
      show σ.Finds _ _ (starts.foldlM (fun visited s => σ.explore [s] visited) found)
      cases hr' : starts.foldlM (fun visited s => σ.explore [s] visited) found with
      | error e =>
        rw [hr'] at rest
        obtain ⟨s', hs', t, ht⟩ := rest
        exact ⟨s', List.mem_cons_of_mem _ hs', t, ht⟩
      | ok all =>
        rw [hr'] at rest
        exact ⟨rest.1, fun t => by rw [rest.2, hmem]; simp [or_assoc]⟩

/-! ### Searching where others have searched -/

/-- Two searches end alike: both well, the second one with what `visited` holds on top of what the
first one finds, or both with the same error. -/
def Successors.EndAlike (visited : Std.TreeSet String) :
    Except ε (Std.TreeSet String) → Except ε (Std.TreeSet String) → Prop
  | .ok found, .ok found' => ∀ t, t ∈ found' ↔ t ∈ visited ∨ t ∈ found
  | .error e, .error e' => e = e'
  | _, _ => False

lemma Successors.explore_append_of_subset {labels : List String} (queue : List String)
    {visited : Std.TreeSet String} (h : ∀ s ∈ labels, s ∈ visited) :
    σ.explore (labels ++ queue) visited = σ.explore queue visited := by
  induction labels with
  | nil => rfl
  | cons s labels ih =>
    rw [List.cons_append, σ.explore_cons_of_mem _ (h s List.mem_cons_self)]
    exact ih fun t ht => h t (List.mem_cons_of_mem s ht)

/-- What leads only to visited labels can be left out of a search: with or without it the search visits
the other labels in the same order, and stops at the same one. -/
theorem Successors.explore_endAlike {visited : Std.TreeSet String} (h : σ.Frontier [] visited)
    (queue : List String) (fresh : Std.TreeSet String) :
    ∀ queue' visited', (∀ t, t ∈ visited' ↔ t ∈ visited ∨ t ∈ fresh) →
      queue'.filter (· ∉ visited) = queue.filter (· ∉ visited) →
      EndAlike visited (σ.explore queue fresh) (σ.explore queue' visited') := by
  -- A label of the one queue that has not been visited is found behind visited ones in the other.
  have behind : ∀ {s : String} {queue queue' : List String} {visited' : Std.TreeSet String},
      s ∉ visited → (∀ t ∈ visited, t ∈ visited') →
      queue'.filter (· ∉ visited) = (s :: queue).filter (· ∉ visited) →
      ∃ rest, rest.filter (· ∉ visited) = queue.filter (· ∉ visited) ∧
        σ.explore queue' visited' = σ.explore (s :: rest) visited' := by
    intro s queue queue' visited' hs hsub hqueue
    rw [List.filter_cons_of_pos (by simpa using hs)] at hqueue
    obtain ⟨skipped, rest, rfl, hskipped, -, hrest⟩ := List.filter_eq_cons_iff.1 hqueue
    exact ⟨rest, hrest, explore_append_of_subset _ fun t ht => hsub t (by simpa using hskipped t ht)⟩
  induction queue, fresh using σ.explore_induction with
  | nil fresh =>
    intro queue' visited' hmem hqueue
    have hskipped : ∀ t ∈ queue', t ∈ visited' := fun t ht =>
      (hmem t).2 (.inl (by simpa using List.filter_eq_nil_iff.1 hqueue t ht))
    rw [← List.append_nil queue', explore_append_of_subset [] hskipped, explore_nil, explore_nil]
    exact hmem
  | skip s queue fresh hs ih =>
    intro queue' visited' hmem hqueue
    rw [σ.explore_cons_of_mem queue hs]
    by_cases hv : s ∈ visited
    · rw [List.filter_cons_of_neg (by simpa using hv)] at hqueue
      exact ih queue' visited' hmem hqueue
    · obtain ⟨rest, hrest, heq⟩ := behind hv (fun t ht => (hmem t).2 (.inl ht)) hqueue
      rw [heq, σ.explore_cons_of_mem rest ((hmem s).2 (.inr hs))]
      exact ih rest visited' hmem hrest
  | visit s queue fresh ts hs hts ih =>
    intro queue' visited' hmem hqueue
    rw [σ.explore_cons_of_ok queue hs hts]
    by_cases hv : s ∈ visited
    · obtain ⟨ts', hts', hvisited⟩ := h s hv
      obtain rfl : ts' = ts := by simpa [hts] using hts'.symm
      have hnew : ts'.filter (· ∉ visited) = [] :=
        List.filter_eq_nil_iff.2 fun t ht => by simpa using hvisited t ht
      rw [List.filter_cons_of_neg (by simpa using hv)] at hqueue
      refine ih queue' visited' (fun t => ?_) (by rw [List.filter_append, hnew, List.append_nil, hqueue])
      rw [hmem, Std.TreeSet.mem_insert]
      constructor
      · exact fun ht => ht.imp_right .inr
      · rintro (ht | hst | ht)
        · exact .inl ht
        · obtain rfl : s = t := by simpa using hst
          exact .inl hv
        · exact .inr ht
    · obtain ⟨rest, hrest, heq⟩ := behind hv (fun t ht => (hmem t).2 (.inl ht)) hqueue
      rw [heq, σ.explore_cons_of_ok rest (by rw [hmem]; exact not_or.2 ⟨hv, hs⟩) hts]
      refine ih (rest ++ ts) (visited'.insert s) (fun t => ?_) (by simp only [List.filter_append, hrest])
      rw [Std.TreeSet.mem_insert, Std.TreeSet.mem_insert, hmem, or_left_comm]
  | stop s queue fresh e hs he =>
    intro queue' visited' hmem hqueue
    have hv : s ∉ visited := by
      intro hv
      obtain ⟨ts, hts, -⟩ := h s hv
      rw [hts] at he
      nomatch he
    obtain ⟨rest, -, heq⟩ := behind hv (fun t ht => (hmem t).2 (.inl ht)) hqueue
    rw [σ.explore_cons_of_error queue hs he, heq,
      σ.explore_cons_of_error rest (by rw [hmem]; exact not_or.2 ⟨hv, hs⟩) he]
    rfl

/-! ### How long a search takes -/

/-- The search ends when `n` labels have been taken from its queue, with the result `r`. -/
inductive Successors.EndsAfter (σ : Successors ε) :
    List String → Std.TreeSet String → ℕ → Except ε (Std.TreeSet String) → Prop
  | nil (visited : Std.TreeSet String) : EndsAfter σ [] visited 0 (.ok visited)
  | skip {s queue visited n r} (hs : s ∈ visited) (h : EndsAfter σ queue visited n r) :
      EndsAfter σ (s :: queue) visited (n + 1) r
  | visit {s queue visited ts n r} (hs : s ∉ visited) (hts : σ.next s = .ok ts)
      (h : EndsAfter σ (queue ++ ts) (visited.insert s) n r) :
      EndsAfter σ (s :: queue) visited (n + 1) r
  | stop {s queue visited e} (hs : s ∉ visited) (he : σ.next s = .error e) :
      EndsAfter σ (s :: queue) visited 1 (.error e)

/-- The number of successors of `s`. -/
def Successors.degree (σ : Successors ε) (s : String) : ℕ :=
  match σ.next s with
  | .ok ts => ts.length
  | .error _ => 0

lemma Successors.degree_eq {s : String} {ts : List String} (h : σ.next s = .ok ts) :
    σ.degree s = ts.length := by
  rw [degree, h]

/-- The successors of the `labels` that are still to be visited: no search puts more into its queue. -/
def Successors.pending (σ : Successors ε) (visited : Std.TreeSet String) (labels : List String) : ℕ :=
  ((labels.filter (· ∉ visited)).map σ.degree).sum

lemma Successors.pending_cons (visited : Std.TreeSet String) (s : String) (labels : List String) :
    σ.pending visited (s :: labels) =
      (if s ∈ visited then 0 else σ.degree s) + σ.pending visited labels := by
  by_cases hs : s ∈ visited <;> simp [pending, hs]

lemma Successors.pending_insert_le (s : String) (visited : Std.TreeSet String)
    (labels : List String) : σ.pending (visited.insert s) labels ≤ σ.pending visited labels := by
  induction labels with
  | nil => rfl
  | cons t labels ih =>
    rw [pending_cons, pending_cons]
    by_cases ht : t ∈ visited.insert s
    · rw [if_pos ht]
      exact Nat.add_le_add (Nat.zero_le _) ih
    · rw [if_neg ht, if_neg fun h => ht (by simp [h])]
      exact Nat.add_le_add_left ih _

/-- A label that is visited takes its successors out of what is pending. -/
lemma Successors.pending_insert_add_degree_le {s : String} {visited : Std.TreeSet String}
    {labels : List String} (hs : s ∉ visited) (hmem : s ∈ labels) :
    σ.pending (visited.insert s) labels + σ.degree s ≤ σ.pending visited labels := by
  induction labels with
  | nil => nomatch hmem
  | cons t labels ih =>
    rw [pending_cons, pending_cons]
    rcases List.mem_cons.1 hmem with rfl | hmem
    · have := σ.pending_insert_le s visited labels
      simp only [Std.TreeSet.mem_insert_self, if_true, hs, if_false]
      omega
    · have := ih hmem
      by_cases ht : t ∈ visited
      · simp only [Std.TreeSet.mem_insert, ht, or_true, if_true]
        omega
      · simp only [ht, if_false]
        split <;> omega

/-- A search ends, at the latest when its queue and the pending successors of all sources have been
taken. -/
theorem Successors.exists_endsAfter_of_subset {labels : List String} (hlabels : σ.sources ⊆ labels)
    (queue : List String) (visited : Std.TreeSet String) :
    ∃ n ≤ queue.length + σ.pending visited labels,
      σ.EndsAfter queue visited n (σ.explore queue visited) := by
  induction queue, visited using σ.explore_induction with
  | nil visited =>
    rw [explore_nil]
    exact ⟨0, Nat.zero_le _, .nil visited⟩
  | skip s queue visited hs ih =>
    obtain ⟨n, hn, h⟩ := ih
    rw [σ.explore_cons_of_mem queue hs]
    exact ⟨n + 1, by rw [List.length_cons]; omega, .skip hs h⟩
  | visit s queue visited ts hs hts ih =>
    obtain ⟨n, hn, h⟩ := ih
    rw [σ.explore_cons_of_ok queue hs hts]
    refine ⟨n + 1, ?_, .visit hs hts h⟩
    have hpending : σ.pending (visited.insert s) labels + ts.length ≤ σ.pending visited labels := by
      by_cases hmem : s ∈ σ.sources
      · rw [← degree_eq hts]
        exact pending_insert_add_degree_le hs (hlabels hmem)
      · rw [σ.eq_nil_of_not_mem hmem hts]
        exact σ.pending_insert_le s visited _
    rw [List.length_append] at hn
    rw [List.length_cons]
    omega
  | stop s queue visited e hs he =>
    rw [σ.explore_cons_of_error queue hs he]
    exact ⟨1, by rw [List.length_cons]; omega, .stop hs he⟩

theorem Successors.exists_endsAfter (queue : List String) (visited : Std.TreeSet String) :
    ∃ n ≤ queue.length + σ.pending visited σ.sources,
      σ.EndsAfter queue visited n (σ.explore queue visited) :=
  exists_endsAfter_of_subset (List.Subset.refl _) queue visited

end Automata
