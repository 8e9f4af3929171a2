import Automata.Proofs.Calls

/-!
# Failures of a query

Any automaton can be asked whether it accepts an input, be it sound or not. A query fails if there is
no state to start from, or when a run visits a label that the graph does not have as a vertex. The
labels visited are said here without the graph and without active sets: by `Automaton.Moves` for a
non-deterministic automaton, and by the first edges that are declared for a deterministic one.
-/

namespace Automata

variable {m : Automaton} {s : Simulator} {p q a l : String} {w : List String} {A : StateSet} {k : Nat}

/-! ### Acceptance without a run -/

lemma Simulator.advance_empty (s : Simulator) (a : String) : s.advance ∅ a = .ok ∅ := by
  rw [advance]
  cases s.determinism <;> rfl

lemma Simulator.foldlM_advance_empty (s : Simulator) (w : List String) :
    w.foldlM s.advance ∅ = .ok ∅ := by
  induction w with
  | nil => rfl
  | cons a w ih => rw [List.foldlM_cons, advance_empty]; exact ih

/-- A finish reports on the set to which the symbols that are still to come advance the active set. -/
theorem Run.report_finish {r : Run} (h : r.verdict = none) :
    r.finish.1.report =
      ((r.input.toList.drop r.position).foldlM r.simulator.advance r.active).map
        r.simulator.anyAccepting := by
  have drop_eq : ∀ hp : r.position < r.input.size, r.input.toList.drop r.position =
      r.input[r.position] :: r.input.toList.drop (r.position + 1) := fun hp =>
    List.drop_eq_getElem_cons (by simpa using hp)
  have hs := r.stepsTo_step
  generalize hverdict : r.step.verdict? = verdict?, hnext : r.step.next = r' at hs
  cases hs with
  | halted hv => simp [h] at hv
  | finished _ hp =>
    rw [finish_of_verdict hverdict, List.drop_of_length_le (by simpa using hp)]
    show r.finalVerdict.report = .ok (r.simulator.anyAccepting r.active)
    rw [finalVerdict]
    cases r.simulator.anyAccepting r.active <;> rfl
  | failed _ hp ha =>
    rw [finish_of_verdict hverdict, drop_eq hp, List.foldlM_cons, ha]
    rfl
  | stuck _ hp ha hempty =>
    -- Nothing comes of the empty set any more, so the rest of the input changes nothing.
    rw [finish_of_verdict hverdict, drop_eq hp, List.foldlM_cons, ha, StateSet.isEmpty_iff.1 hempty]
    show _ = (List.foldlM r.simulator.advance ∅ (r.input.toList.drop (r.position + 1))).map _
    rw [Simulator.foldlM_advance_empty]
    rfl
  | @consumed next _ hp ha _ =>
    have := remaining_next_lt hverdict
    rw [finish_of_none hverdict, report_finish (by rw [hnext, h]), hnext, drop_eq hp,
      List.foldlM_cons, ha]
    rfl
termination_by r.remaining

/-- A query looks for an accepting state in the set that all of the input advances to. -/
theorem Simulator.accepts_eq_map_activeAfter (s : Simulator) (w : List String) :
    s.accepts w = (s.activeAfter w).map s.anyAccepting := by
  rw [accepts_eq_report, activeAfter]
  cases h : s.start with
  | error e =>
    have hv : (Run.start s w).verdict = some (.failure e) := by rw [Run.start, h]
    rw [Run.finish_of_verdict_eq_some hv]
    rfl
  | ok A =>
    have hstart : Run.start s w = ⟨s, w.toArray, 0, A, none⟩ := by rw [Run.start, h]
    rw [hstart, Run.report_finish rfl]
    rfl

/-! ### Labels that are visited -/

/-- Where the first edges that are declared lead to from the first initial state. -/
def Automaton.followed? (m : Automaton) (w : List String) : Option String := do
  w.foldlM m.follow? (← m.initial.head?)

/-- `q` is visited when `w` has been consumed: by the one path of a deterministic automaton, or by moves
of a non-deterministic one from any of its initial states. -/
def Automaton.Visits (m : Automaton) (w : List String) (q : String) : Prop :=
  match m.classify with
  | .deterministic => m.followed? w = some q
  | .nonDeterministic => ∃ p ∈ m.initial, m.Moves p w q

lemma Automaton.visits_iff_followed? (hd : m.classify = .deterministic) :
    m.Visits w q ↔ m.followed? w = some q := by
  rw [Visits, hd]

lemma Automaton.visits_iff_attains (hd : m.classify = .nonDeterministic) :
    m.Visits w q ↔ m.Attains w q := by
  rw [Visits, Attains, starts, hd]

lemma Automaton.followed?_concat (m : Automaton) (w : List String) (a : String) :
    m.followed? (w ++ [a]) = (m.followed? w).bind (m.follow? · a) := by
  rw [followed?, followed?]
  cases m.initial.head? with
  | none => rfl
  | some p =>
    show (w ++ [a]).foldlM m.follow? p = (w.foldlM m.follow? p).bind (m.follow? · a)
    rw [List.foldlM_append]
    cases w.foldlM m.follow? p with
    | none => rfl
    | some q =>
      show [a].foldlM m.follow? q = m.follow? q a
      rw [List.foldlM_cons]
      cases m.follow? q a <;> rfl

/-- The active set before any input, as far as there is one. -/
theorem Automaton.start_answers (hi : m.initial ≠ []) :
    m.Answers (m.Visits []) m.simulator.start := by
  rw [Simulator.start]
  rw [determinism_simulator, initial_simulator]
  cases hd : m.classify with
  | deterministic =>
    obtain ⟨p, l, hp⟩ := List.exists_cons_of_ne_nil hi
    simp only [hp]
    refine answers_singleton fun q => ?_
    rw [visits_iff_followed? hd, followed?, hp]
    exact Option.some_inj.trans eq_comm
  | nonDeterministic =>
    refine (m.close_answers _).congr fun q => ?_
    rw [visits_iff_attains hd, Attains, starts, hd]
    simp

/-- Advancing visits what one symbol more leads to. -/
theorem Automaton.advance_answers (hA : ∀ q, q ∈ A ↔ m.Visits w q)
    (hregistered : ∀ q, m.Visits w q → m.Registered q) (a : String) :
    m.Answers (m.Visits (w ++ [a])) (m.simulator.advance A a) := by
  have hA' : ∀ p ∈ A, m.Registered p := fun p hp => hregistered p ((hA p).1 hp)
  rw [Simulator.advance]
  rw [determinism_simulator]
  cases hd : m.classify with
  | deterministic =>
    refine (advanceOne_answers hA' a).congr fun q => ?_
    rw [visits_iff_followed? hd, followed?_concat, Option.bind_eq_some_iff]
    refine exists_congr fun p => and_congr_left fun _ => ?_
    -- The path leads to one state at most, which is then the least member of the active set.
    simp only [visits_iff_followed? hd] at hA
    constructor
    · intro hp
      exact (hA p).1 (StateSet.mem_of_first? hp)
    · intro hp
      obtain ⟨p', hp'⟩ := StateSet.exists_first? ((hA p).2 hp)
      have heq : some p' = some p := ((hA p').1 (StateSet.mem_of_first? hp')).symm.trans hp
      rw [hp', heq]
  | nonDeterministic =>
    refine (advanceAll_answers hA' a).congr fun r => ?_
    simp only [visits_iff_attains hd, attains_concat_iff, hA]
    constructor
    · rintro ⟨p, hp, q, h, h'⟩
      exact ⟨p, q, hp, h, h'⟩
    · rintro ⟨p, q, hp, h, h'⟩
      exact ⟨p, hp, q, h, h'⟩

/-! ### The first failure -/

/-- `l` is not registered and is visited after `k` symbols, before which only registered labels are. -/
structure Automaton.FirstUnknown (m : Automaton) (w : List String) (k : Nat) (l : String) : Prop where
  le_length : k ≤ w.length
  visits : m.Visits (w.take k) l
  not_registered : ¬ m.Registered l
  before : ∀ j < k, ∀ q, m.Visits (w.take j) q → m.Registered q

/-- All labels that are visited on the way through `w` are registered. -/
def Automaton.AllRegistered (m : Automaton) (w : List String) : Prop :=
  ∀ k ≤ w.length, ∀ q, m.Visits (w.take k) q → m.Registered q

lemma Automaton.allRegistered_concat (h : m.AllRegistered w)
    (ha : ∀ q, m.Visits (w ++ [a]) q → m.Registered q) : m.AllRegistered (w ++ [a]) := by
  intro k hk q hq
  rw [List.length_append, List.length_singleton] at hk
  rcases Nat.lt_or_eq_of_le hk with hlt | rfl
  · rw [List.take_append_of_le_length (Nat.le_of_lt_succ hlt)] at hq
    exact h k (Nat.le_of_lt_succ hlt) q hq
  · rw [List.take_of_length_le (by simp)] at hq
    exact ha q hq

lemma Automaton.FirstUnknown.concat (h : m.FirstUnknown w k l) (a : String) :
    m.FirstUnknown (w ++ [a]) k l where
  le_length := by
    rw [List.length_append]
    exact Nat.le_add_right_of_le h.le_length
  visits := by
    rw [List.take_append_of_le_length h.le_length]
    exact h.visits
  not_registered := h.not_registered
  before j hj q hq := by
    rw [List.take_append_of_le_length (Nat.le_of_lt (Nat.lt_of_lt_of_le hj h.le_length))] at hq
    exact h.before j hj q hq

lemma Automaton.FirstUnknown.not_allRegistered (h : m.FirstUnknown w k l) :
    ¬ m.AllRegistered w :=
  fun hall => h.not_registered (hall k h.le_length l h.visits)

/-- Advancing through `w` comes to the set of the labels visited in the end, or fails at the first one
that is not registered. -/
theorem Automaton.activeAfter_answers (hi : m.initial ≠ []) (w : List String) :
    (∃ A, m.simulator.activeAfter w = .ok A ∧ (∀ q, q ∈ A ↔ m.Visits w q) ∧ m.AllRegistered w) ∨
      ∃ k l, m.simulator.activeAfter w = .error (.unknownState l) ∧ m.FirstUnknown w k l := by
  induction w using List.reverseRecOn with
  | nil =>
    have hstart : m.simulator.activeAfter [] = m.simulator.start := by
      rw [Simulator.activeAfter]
      cases m.simulator.start <;> rfl
    rw [hstart]
    have h := start_answers hi
    cases hs : m.simulator.start with
    | ok A =>
      rw [hs] at h
      refine .inl ⟨A, rfl, h.1, fun k hk q hq => h.2 q ?_⟩
      rwa [List.take_nil] at hq
    | error e =>
      rw [hs] at h
      obtain ⟨l, hl, hnot, rfl⟩ := h
      exact .inr ⟨0, l, rfl, Nat.zero_le _, hl, hnot, fun j hj => absurd hj (Nat.not_lt_zero j)⟩
  | append_singleton w a ih =>
    rcases ih with ⟨A, hw, hA, hall⟩ | ⟨k, l, hw, hfirst⟩
    · rw [Simulator.activeAfter_concat, hw]
      show (∃ B, m.simulator.advance A a = .ok B ∧ _) ∨ ∃ k l, m.simulator.advance A a = _ ∧ _
      have h := advance_answers hA (fun q hq => hall w.length (Nat.le_refl _) q (by simpa using hq)) a
      cases hB : m.simulator.advance A a with
      | ok B =>
        rw [hB] at h
        exact .inl ⟨B, rfl, h.1, allRegistered_concat hall h.2⟩
      | error e =>
        rw [hB] at h
        obtain ⟨l, hl, hnot, rfl⟩ := h
        refine .inr ⟨w.length + 1, l, rfl, by simp, ?_, hnot, fun j hj q hq => ?_⟩
        · rwa [List.take_of_length_le (by simp)]
        · rw [List.take_append_of_le_length (Nat.le_of_lt_succ hj)] at hq
          exact hall j (Nat.le_of_lt_succ hj) q hq
    · refine .inr ⟨k, l, ?_, hfirst.concat a⟩
      rw [Simulator.activeAfter_concat, hw]
      rfl

/-! ### Errors of a query -/

lemma Automaton.accepts_of_initial_eq_nil (hi : m.initial = []) (w : List String) :
    m.accepts w = .error .noInitialState := by
  rw [accepts, Simulator.ofAutomaton, if_pos (by rw [hi]; rfl)]
  rfl

/-- A query of an automaton that has an initial state comes to an answer, or fails at the first label
that is visited and is not registered. -/
theorem Automaton.accepts_cases (hi : m.initial ≠ []) (w : List String) :
    (∃ b, m.accepts w = .ok b) ∧ m.AllRegistered w ∨
      ∃ k l, m.accepts w = .error (.unknownState l) ∧ m.FirstUnknown w k l := by
  have haccepts : m.accepts w = (m.simulator.activeAfter w).map m.simulator.anyAccepting := by
    rw [accepts, Simulator.ofAutomaton_eq_ok hi]
    exact m.simulator.accepts_eq_map_activeAfter w
  rw [haccepts]
  rcases activeAfter_answers hi w with ⟨A, hA, -, hall⟩ | ⟨k, l, he, hfirst⟩
  · rw [hA]
    exact .inl ⟨⟨_, rfl⟩, hall⟩
  · rw [he]
    exact .inr ⟨k, l, rfl, hfirst⟩

/-- Whatever the automaton and the input, a query fails only for want of an initial state or at an
unregistered label. It fails at one exactly if one is visited on some prefix of the input, and names
one that is visited on the shortest such prefix; in all other cases there is an answer. -/
theorem Automaton.errors_of_accepts (m : Automaton) (w : List String) :
    (m.accepts w = .error .noInitialState ↔ m.initial = []) ∧
      (∀ e, m.accepts w = .error e → e = .noInitialState ∨ ∃ l, e = .unknownState l) ∧
      ((∃ l, m.accepts w = .error (.unknownState l)) ↔
        m.initial ≠ [] ∧ ∃ k ≤ w.length, ∃ l, m.Visits (w.take k) l ∧ ¬ m.Registered l) ∧
      (∀ l, m.accepts w = .error (.unknownState l) → ∃ k, m.FirstUnknown w k l) ∧
      ((∃ b, m.accepts w = .ok b) ↔
        m.initial ≠ [] ∧ ∀ k ≤ w.length, ∀ l, m.Visits (w.take k) l → m.Registered l) := by
  by_cases hi : m.initial = []
  · simp [accepts_of_initial_eq_nil hi, hi]
  · rcases accepts_cases hi w with ⟨⟨b, hb⟩, hall⟩ | ⟨k, l, he, hfirst⟩
    · refine ⟨by simp [hb, hi], by simp [hb], ⟨by simp [hb], ?_⟩, by simp [hb],
        fun _ => ⟨hi, hall⟩, fun _ => ⟨b, hb⟩⟩
      rintro ⟨-, k, hk, l, hl, hnot⟩
      exact absurd (hall k hk l hl) hnot
    · refine ⟨by simp [he, hi], by simp [he], ⟨fun _ => ?_, fun _ => ⟨l, he⟩⟩, ?_, ?_⟩
      · exact ⟨hi, k, hfirst.le_length, l, hfirst.visits, hfirst.not_registered⟩
      · intro l' hl'
        obtain rfl : l = l' := by simpa [he] using hl'
        exact ⟨k, hfirst⟩
      · constructor
        · rintro ⟨b, hb⟩
          rw [he] at hb
          nomatch hb
        · rintro ⟨-, hall⟩
          exact absurd hall hfirst.not_allRegistered

end Automata
