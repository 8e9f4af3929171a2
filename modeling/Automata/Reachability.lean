import Std.Data.TreeSet

/-!
# Breadth-first search

A search visits labels from a queue. Each label is visited once, its successors join the end of the
queue, and the first label without an answer ends the search. That the search ends needs only this:
all labels with successors are in one finite list.

The rounds are a way to keep a queue. What a search does label by label is said by four equations,
`explore_nil` to `explore_cons_of_error`.
-/

namespace Automata

/-- The successors of labels. Outside of `sources` no label has any. -/
structure Successors (ε : Type) where
  next : String → Except ε (List String)
  sources : List String
  eq_nil_of_not_mem : ∀ {s ts}, s ∉ sources → next s = .ok ts → ts = []

namespace Successors

variable {ε : Type} (σ : Successors ε)

/-- `t` can be reached from `s` along successors. -/
inductive Reaches (s : String) : String → Prop
  | refl : Reaches s s
  | step {t u : String} {us : List String} (h : Reaches s t) (ht : σ.next t = .ok us)
      (hu : u ∈ us) : Reaches s u

/-! ### What is left to visit -/

/-- The number of sources that are still to be visited. -/
def unvisited (visited : Std.TreeSet String) : Nat :=
  σ.sources.countP (· ∉ visited)

theorem unvisited_insert_le (s : String) (visited : Std.TreeSet String) :
    σ.unvisited (visited.insert s) ≤ σ.unvisited visited :=
  List.countP_mono_left fun x _ h => by simp_all

theorem unvisited_insert_lt {s : String} {visited : Std.TreeSet String} (hs : s ∈ σ.sources)
    (hv : s ∉ visited) : σ.unvisited (visited.insert s) < σ.unvisited visited := by
  unfold unvisited
  generalize σ.sources = l at hs
  induction l with
  | nil => simp at hs
  | cons x l ih =>
    have hle : l.countP (· ∉ visited.insert s) ≤ l.countP (· ∉ visited) :=
      List.countP_mono_left fun y _ h => by simp_all
    rw [List.countP_cons, List.countP_cons]
    by_cases hx : x = s
    · subst hx
      simpa [hv] using Nat.lt_succ_of_le hle
    · have := ih ((List.mem_cons.1 hs).resolve_left fun e => hx e.symm)
      have e : decide (x ∉ visited.insert s) = decide (x ∉ visited) := by simp [Ne.symm hx]
      rw [e]
      omega

/-- After a visit there is less to visit, unless the label has no successors. -/
theorem unvisited_insert {s : String} {ts : List String} {visited : Std.TreeSet String}
    (hv : s ∉ visited) (h : σ.next s = .ok ts) :
    σ.unvisited (visited.insert s) < σ.unvisited visited ∨
      σ.unvisited (visited.insert s) = σ.unvisited visited ∧ ts = [] := by
  by_cases hs : s ∈ σ.sources
  · exact .inl (σ.unvisited_insert_lt hs hv)
  · exact (Nat.lt_or_eq_of_le (σ.unvisited_insert_le s visited)).imp_right
      (⟨·, σ.eq_nil_of_not_mem hs h⟩)

/-! ### Rounds -/

/-- Visits the labels of this round and all that they lead to. What waits for the next round is kept
with the last one first. -/
def rounds : (round waiting : List String) → Std.TreeSet String →
    Except ε (Std.TreeSet String)
  | [], [], visited => .ok visited
  | [], w :: waiting, visited => rounds (w :: waiting).reverse [] visited
  | s :: round, waiting, visited =>
    if s ∈ visited then rounds round waiting visited
    else
      match _h : σ.next s with
      | .error e => .error e
      | .ok ts => rounds round (ts.reverse ++ waiting) (visited.insert s)
termination_by round waiting visited =>
  (σ.unvisited visited, round.length + waiting.length, waiting.length)
decreasing_by
  · exact Prod.Lex.right _ (by simpa using Prod.Lex.right _ (Nat.succ_pos _))
  · exact Prod.Lex.right _ (Prod.Lex.left _ _ (by simp))
  · next hv =>
    rcases σ.unvisited_insert hv _h with h | ⟨h, rfl⟩
    · exact Prod.Lex.left _ _ h
    · rw [h]
      exact Prod.Lex.right _ (Prod.Lex.left _ _ (by simp))

/-- What waits is visited after the round, the first one first. -/
theorem rounds_eq_append (round waiting : List String) (visited : Std.TreeSet String) :
    σ.rounds round waiting visited = σ.rounds (round ++ waiting.reverse) [] visited := by
  match round, waiting with
  | [], [] => rfl
  | [], w :: waiting => rw [rounds]; rfl
  | s :: round, waiting =>
    rw [List.cons_append, rounds, rounds]
    by_cases hv : s ∈ visited
    · rw [if_pos hv, if_pos hv, rounds_eq_append round waiting]
    · rw [if_neg hv, if_neg hv]
      cases hs : σ.next s with
      | error e => simp
      | ok ts =>
        simp only []
        rw [rounds_eq_append round, rounds_eq_append (round ++ waiting.reverse)]
        simp
termination_by (σ.unvisited visited, round.length + waiting.length, waiting.length)
decreasing_by
  · exact Prod.Lex.right _ (Prod.Lex.left _ _ (by simp))
  all_goals
    rcases σ.unvisited_insert hv hs with h | ⟨h, rfl⟩
    · exact Prod.Lex.left _ _ h
    · rw [h]
      exact Prod.Lex.right _ (Prod.Lex.left _ _ (by simp))

/-! ### The search -/

/-- Visits the queue and all that it leads to, and returns the visited labels. -/
def explore (queue : List String) (visited : Std.TreeSet String) :
    Except ε (Std.TreeSet String) :=
  σ.rounds queue [] visited

@[simp] theorem explore_nil (visited : Std.TreeSet String) :
    σ.explore [] visited = .ok visited := by
  rw [explore, rounds]

/-- A label that has been visited is left out. -/
theorem explore_cons_of_mem {s : String} (queue : List String) {visited : Std.TreeSet String}
    (hv : s ∈ visited) : σ.explore (s :: queue) visited = σ.explore queue visited := by
  rw [explore, rounds, if_pos hv, explore]

/-- The successors of a label that is visited join the end of the queue. -/
theorem explore_cons_of_ok {s : String} {ts : List String} (queue : List String)
    {visited : Std.TreeSet String} (hv : s ∉ visited) (hs : σ.next s = .ok ts) :
    σ.explore (s :: queue) visited = σ.explore (queue ++ ts) (visited.insert s) := by
  rw [explore, rounds, if_neg hv, explore]
  split <;> rename_i e <;> rw [hs] at e
  · nomatch e
  · obtain rfl := Except.ok.inj e
    rw [rounds_eq_append]
    simp

/-- A label without an answer ends the search. -/
theorem explore_cons_of_error {s : String} {e : ε} (queue : List String)
    {visited : Std.TreeSet String} (hv : s ∉ visited) (hs : σ.next s = .error e) :
    σ.explore (s :: queue) visited = .error e := by
  rw [explore, rounds, if_neg hv]
  split <;> rename_i e' <;> rw [hs] at e'
  · rw [Except.error.inj e']
  · nomatch e'

end Successors

end Automata
