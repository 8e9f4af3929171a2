import Automata.Proofs.ActiveSet
import Automata.Run

/-!
# Runs of a well-formed automaton

`Run.StepsTo` lists the five things that a step can do. From it follows what a run keeps from step to
step: until it halts, its active set consists of the states that the consumed symbols lead to, and
the verdict it halts with says whether the whole input leads to an accepting state.
-/

namespace Automata

variable {m : Automaton} {w : List String} {r : Run} {v : Verdict}

/-! ### Starting -/

@[simp] lemma Run.simulator_start (s : Simulator) (w : List String) : (start s w).simulator = s := by
  rw [start]
  cases s.start <;> rfl

@[simp] lemma Run.input_start (s : Simulator) (w : List String) :
    (start s w).input = w.toArray := by
  rw [start]
  cases s.start <;> rfl

@[simp] lemma Run.position_start (s : Simulator) (w : List String) : (start s w).position = 0 := by
  rw [start]
  cases s.start <;> rfl

/-! ### What a step can do -/

/-- The cases of a step: the verdict that it comes to, if it does, and the run after it. -/
inductive Run.StepsTo (r : Run) : Option Verdict → Run → Prop
  | halted {v : Verdict} (h : r.verdict = some v) : StepsTo r (some v) r
  | finished (h : r.verdict = none) (hp : r.input.size ≤ r.position) :
      StepsTo r (some r.finalVerdict) (r.halt r.finalVerdict)
  | failed {e : Error} (h : r.verdict = none) (hp : r.position < r.input.size)
      (ha : r.simulator.advance r.active r.input[r.position] = .error e) :
      StepsTo r (some (.failure e)) (r.halt (.failure e))
  | stuck {next : StateSet} (h : r.verdict = none) (hp : r.position < r.input.size)
      (ha : r.simulator.advance r.active r.input[r.position] = .ok next)
      (hnext : next.isEmpty = true) :
      StepsTo r (some .reject) ({ r with active := next }.halt .reject)
  | consumed {next : StateSet} (h : r.verdict = none) (hp : r.position < r.input.size)
      (ha : r.simulator.advance r.active r.input[r.position] = .ok next)
      (hnext : next.isEmpty = false) :
      StepsTo r none { r with active := next, position := r.position + 1 }

theorem Run.stepsTo_step (r : Run) : r.StepsTo r.step.verdict? r.step.next := by
  rw [step]
  split
  · next v h => exact .halted h
  · next h =>
    split
    · next hp =>
      split
      · next e ha => exact .failed h hp ha
      · next next ha =>
        split
        · next hnext => exact .stuck h hp ha hnext
        · next hnext => exact .consumed h hp ha (by simpa using hnext)
    · next hp => exact .finished h (Nat.le_of_not_lt hp)

lemma Run.isHalted_eq_false_iff : r.isHalted = false ↔ r.verdict = none := by
  rw [isHalted, Option.isSome_eq_false_iff, Option.isNone_iff_eq_none]

/-- The verdict of a step is the one that the run after it has. -/
lemma Run.verdict_next_step (r : Run) : r.step.next.verdict = r.step.verdict? := by
  have hs := r.stepsTo_step
  generalize r.step.verdict? = verdict?, r.step.next = r' at hs ⊢
  cases hs with
  | halted h => exact h
  | consumed h => exact h
  | _ => rfl

/-- A verdict stays. -/
lemma Run.step_of_verdict (h : r.verdict = some v) : r.step.verdict? = some v ∧ r.step.next = r := by
  have hs := r.stepsTo_step
  generalize r.step.verdict? = verdict?, r.step.next = r' at hs ⊢
  cases hs with
  | halted h' => exact ⟨h'.symm.trans h, rfl⟩
  | _ h' => simp [h] at h'

/-- A step that is possible is the one that is made. -/
lemma Run.StepsTo.eq_step {verdict? : Option Verdict} {r' : Run} (h : r.StepsTo verdict? r') :
    r.step.verdict? = verdict? ∧ r.step.next = r' := by
  cases h with
  | halted h => exact step_of_verdict h
  | finished h hp =>
    rw [step]
    simp only [h, dif_neg (Nat.not_lt.2 hp)]
    exact ⟨rfl, rfl⟩
  | failed h hp ha =>
    rw [step]
    simp only [h, dif_pos hp, ha]
    exact ⟨rfl, rfl⟩
  | stuck h hp ha hnext =>
    rw [step]
    simp only [h, dif_pos hp, ha, hnext]
    exact ⟨rfl, rfl⟩
  | consumed h hp ha hnext =>
    rw [step]
    simp only [h, dif_pos hp, ha, hnext]
    exact ⟨rfl, rfl⟩

/-! ### Many steps -/

/-- The run after `k` steps. -/
def Run.after (r : Run) : Nat → Run
  | 0 => r
  | k + 1 => (r.after k).step.next

/-- Steps and finishes, in any order, lead from `r` to a run. -/
inductive Run.LeadsTo (r : Run) : Run → Prop
  | refl : LeadsTo r r
  | step {r' : Run} (h : LeadsTo r r') : LeadsTo r r'.step.next
  | finish {r' : Run} (h : LeadsTo r r') : LeadsTo r r'.finish.2

lemma Run.finish_of_verdict (h : r.step.verdict? = some v) : r.finish = (v, r.step.next) := by
  rw [finish]
  match r.step, h with
  | .halted _ _, rfl => rfl

lemma Run.finish_of_none (h : r.step.verdict? = none) : r.finish = r.step.next.finish := by
  rw [finish]
  match r.step, h with
  | .consumed _ _, _ => rfl

/-- A step without a verdict consumes a symbol. -/
lemma Run.remaining_next_lt (h : r.step.verdict? = none) :
    r.step.next.remaining < r.remaining := by
  match r.step, h with
  | .consumed _ hlt, _ => exact hlt

/-- What every step keeps is true of the verdict and the run that a finish comes to. -/
theorem Run.finish_induction {P : Run → Prop} (step : ∀ r, P r → P r.step.next) {r : Run}
    (h : P r) :
    ∃ r', P r' ∧ r'.step.verdict? = some r.finish.1 ∧ r.finish.2 = r'.step.next := by
  cases hv : r.step.verdict? with
  | some v => exact ⟨r, h, by rw [finish_of_verdict hv, hv], by rw [finish_of_verdict hv]⟩
  | none =>
    rw [finish_of_none hv]
    have := remaining_next_lt hv
    exact finish_induction step (step r h)
termination_by r.remaining

lemma Run.LeadsTo.induction {P : Run → Prop} (step : ∀ r, P r → P r.step.next) {r' : Run}
    (h : r.LeadsTo r') (hr : P r) : P r' := by
  induction h with
  | refl => exact hr
  | step _ ih => exact step _ ih
  | finish _ ih =>
    obtain ⟨r', hr', -, heq⟩ := finish_induction step ih
    rw [heq]
    exact step _ hr'

/-! ### The invariant of a run -/

/-- Whether `m` accepts the input. -/
def Automaton.accepts (m : Automaton) (input : List String) : Except Error Bool := do
  (← Simulator.ofAutomaton m).accepts input

/-- Moves that read all of `w` lead from a start to an accepting state. -/
def Automaton.Accepts (m : Automaton) (w : List String) : Prop :=
  ∃ q ∈ m.accepting, m.Attains w q

/-- The verdict says whether `P`, without failure. -/
def Verdict.Decides (P : Prop) : Verdict → Prop
  | .accept => P
  | .reject => ¬ P
  | .failure _ => False

@[simp] lemma Verdict.decides_accept (P : Prop) : accept.Decides P ↔ P := Iff.rfl

@[simp] lemma Verdict.decides_reject (P : Prop) : reject.Decides P ↔ ¬ P := Iff.rfl

@[simp] lemma Verdict.not_decides_failure (P : Prop) (e : Error) : ¬ (failure e).Decides P := id

/-- `r` is a run of `m` on `w` without a verdict, and active is what the consumed symbols lead to. -/
structure Run.Tracks (m : Automaton) (w : List String) (r : Run) : Prop where
  simulator : r.simulator = m.simulator
  input : r.input = w.toArray
  verdict : r.verdict = none
  position_le : r.position ≤ w.length
  mem_active : ∀ q, q ∈ r.active ↔ m.Attains (w.take r.position) q
  exists_attains : ∃ q, m.Attains (w.take r.position) q

lemma Run.tracks_start (hm : m.WellFormed) (w : List String) :
    (start m.simulator w).Tracks m w := by
  obtain ⟨A, hA, hmem⟩ := Automaton.start_attains hm
  have : start m.simulator w = ⟨m.simulator, w.toArray, 0, A, none⟩ := by rw [start, hA]
  rw [this]
  obtain ⟨p, hp⟩ := Automaton.exists_mem_starts hm.toSound
  exact ⟨rfl, rfl, rfl, Nat.zero_le _, by simpa using hmem, p, p, hp, by simpa using .refl⟩

lemma Run.Tracks.decides_finalVerdict (h : r.Tracks m w) (hp : w.length ≤ r.position) :
    r.finalVerdict.Decides (m.Accepts w) := by
  have key : r.simulator.anyAccepting r.active = true ↔ m.Accepts w := by
    rw [h.simulator, Simulator.anyAccepting, List.any_eq_true]
    simp only [Automaton.isAccepting_simulator, StateSet.mem_toList, h.mem_active,
      List.take_of_length_le hp]
    exact exists_congr fun q => and_comm
  rw [finalVerdict]
  split
  · next ha => exact key.1 ha
  · next ha => exact fun hacc => ha (key.2 hacc)

/-- The next symbol of a run on `w` is the next one of `w`. -/
lemma Run.getElem_input (h : r.input = w.toArray) (hp : r.position < r.input.size)
    (hlt : r.position < w.length) : r.input[r.position] = w[r.position] := by
  simp only [h, List.getElem_toArray]

/-- The set that a step advances to is the one that one symbol more leads to. -/
lemma Run.Tracks.advance (hm : m.WellFormed) (h : r.Tracks m w)
    (hp : r.position < r.input.size) :
    ∃ B, r.simulator.advance r.active r.input[r.position] = .ok B ∧
      ∀ q, q ∈ B ↔ m.Attains (w.take (r.position + 1)) q := by
  have hlt : r.position < w.length := by simpa [h.input] using hp
  rw [h.simulator, getElem_input h.input hp hlt, List.take_succ_eq_append_getElem hlt]
  exact Automaton.advance_attains hm h.mem_active _

/-- A step halts at the end of the input or when no state can be attained, else it goes on. -/
theorem Run.Tracks.step (hm : m.WellFormed) (h : r.Tracks m w) :
    (∃ v, r.step.verdict? = some v ∧ v.Decides (m.Accepts w) ∧
      ¬ (r.position < w.length ∧ ∃ q, m.Attains (w.take (r.position + 1)) q)) ∨
    (r.step.verdict? = none ∧ r.step.next.Tracks m w ∧
      r.step.next.position = r.position + 1) := by
  have hsize : r.input.size = w.length := by rw [h.input, List.size_toArray]
  have hs := r.stepsTo_step
  generalize r.step.verdict? = verdict?, r.step.next = r' at hs ⊢
  cases hs with
  | halted hv => simp [h.verdict] at hv
  | finished _ hp =>
    rw [hsize] at hp
    exact .inl ⟨_, rfl, h.decides_finalVerdict hp, fun ⟨hlt, _⟩ => absurd hp (Nat.not_le.2 hlt)⟩
  | failed _ hp ha =>
    obtain ⟨B, hB, -⟩ := h.advance hm hp
    rw [hB] at ha
    nomatch ha
  | stuck _ hp ha hnext =>
    obtain ⟨B, hB, hmem⟩ := h.advance hm hp
    obtain rfl := Except.ok.inj (hB.symm.trans ha)
    have unattained : ¬ ∃ q, m.Attains (w.take (r.position + 1)) q := by
      simp only [← hmem, StateSet.exists_mem_iff, hnext]
      simp
    refine .inl ⟨_, rfl, ?_, fun h => unattained h.2⟩
    rintro ⟨q, -, hq⟩
    exact unattained (hq.take _)
  | consumed hv hp ha hnext =>
    obtain ⟨B, hB, hmem⟩ := h.advance hm hp
    obtain rfl := Except.ok.inj (hB.symm.trans ha)
    have attained : ∃ q, m.Attains (w.take (r.position + 1)) q := by
      simp only [← hmem, StateSet.exists_mem_iff, hnext]
    exact .inr ⟨rfl, ⟨h.simulator, h.input, hv, by rw [← hsize]; exact hp, hmem, attained⟩, rfl⟩

/-! ### Whole runs -/

/-- `r` tracks the input or has come to a verdict that decides it. -/
def Run.Settles (m : Automaton) (w : List String) (r : Run) : Prop :=
  r.Tracks m w ∨ ∃ v, r.verdict = some v ∧ v.Decides (m.Accepts w)

lemma Run.Settles.step (hm : m.WellFormed) (h : r.Settles m w) : r.step.next.Settles m w := by
  rcases h with h | ⟨v, hv, hdec⟩
  · rcases h.step hm with ⟨v, hv, hdec, -⟩ | ⟨-, h', -⟩
    · exact .inr ⟨v, by rw [verdict_next_step, hv], hdec⟩
    · exact .inl h'
  · rw [(step_of_verdict hv).2]
    exact .inr ⟨v, hv, hdec⟩

lemma Run.Settles.after (hm : m.WellFormed) (h : r.Settles m w) (k : Nat) :
    (r.after k).Settles m w := by
  induction k with
  | zero => exact h
  | succ k ih => exact ih.step hm

lemma Run.Settles.decides (h : r.Settles m w) (hv : r.verdict = some v) :
    v.Decides (m.Accepts w) := by
  rcases h with h | ⟨v', hv', hdec⟩
  · simp [h.verdict] at hv
  · rw [hv] at hv'
    rwa [Option.some.inj hv']

lemma Run.Settles.decides_step (hm : m.WellFormed) (h : r.Settles m w)
    (hv : r.step.verdict? = some v) : v.Decides (m.Accepts w) :=
  (h.step hm).decides (by rw [verdict_next_step, hv])

/-- A finish comes to a verdict that decides the input. -/
theorem Run.Settles.decides_finish (hm : m.WellFormed) (h : r.Settles m w) :
    r.finish.1.Decides (m.Accepts w) := by
  obtain ⟨r', h', hv, -⟩ := finish_induction (fun _ => Settles.step hm) h
  exact h'.decides_step hm hv

/-- Whatever steps and finishes are made, a run tracks its input until a verdict decides it. -/
theorem Run.LeadsTo.settles (hm : m.WellFormed) (h : (start m.simulator w).LeadsTo r) :
    r.Settles m w :=
  h.induction (fun _ => Settles.step hm) (.inl (tracks_start hm w))

/-- A run is at the `k`-th symbol after `k` steps unless it has halted. -/
lemma Run.tracks_after (hm : m.WellFormed) {k : Nat}
    (h : ((start m.simulator w).after k).verdict = none) :
    ((start m.simulator w).after k).Tracks m w ∧ ((start m.simulator w).after k).position = k := by
  induction k with
  | zero => exact ⟨tracks_start hm w, by simp only [after, start]; split <;> rfl⟩
  | succ k ih =>
    rw [after] at h ⊢
    generalize (start m.simulator w).after k = r at h ih ⊢
    rw [verdict_next_step] at h
    have hr : r.verdict = none := by
      cases hv : r.verdict with
      | none => rfl
      | some v => rw [(step_of_verdict hv).1] at h; nomatch h
    obtain ⟨htracks, hpos⟩ := ih hr
    rcases htracks.step hm with ⟨v, hv, -⟩ | ⟨-, h', hpos'⟩
    · rw [hv] at h
      nomatch h
    · exact ⟨h', by rw [hpos', hpos]⟩

/-- A run gets through `k` symbols exactly if they lead to some state. -/
theorem Run.verdict_after_eq_none_iff (hm : m.WellFormed) (k : Nat) :
    ((start m.simulator w).after k).verdict = none ↔
      k ≤ w.length ∧ ∃ q, m.Attains (w.take k) q := by
  constructor
  · intro h
    obtain ⟨htracks, hpos⟩ := tracks_after hm h
    exact hpos ▸ ⟨htracks.position_le, htracks.exists_attains⟩
  · induction k with
    | zero => exact fun _ => (tracks_start hm w).verdict
    | succ k ih =>
      rintro ⟨hk, q, hq⟩
      have hk' : ∃ q', m.Attains (w.take k) q' := by
        have := hq.take k
        rwa [List.take_take, Nat.min_eq_left (Nat.le_succ k)] at this
      obtain ⟨htracks, hpos⟩ := tracks_after hm (ih ⟨Nat.le_of_succ_le hk, hk'⟩)
      rcases htracks.step hm with ⟨v, -, -, hstop⟩ | ⟨hv, -⟩
      · rw [hpos] at hstop
        exact absurd ⟨hk, q, hq⟩ hstop
      · rw [after, verdict_next_step, hv]

/-- The simulator accepts what leads to an accepting state, rejects all else and never fails. -/
theorem Automaton.accepts_simulator (hm : m.WellFormed) (w : List String) :
    (m.simulator.accepts w = .ok true ↔ m.Accepts w) ∧
      (m.simulator.accepts w = .ok false ↔ ¬ m.Accepts w) := by
  have h := Run.Settles.decides_finish hm (.inl (Run.tracks_start hm w))
  rw [Simulator.accepts]
  cases hv : (Run.start m.simulator w).finish.1 with
  | accept =>
    have h : m.Accepts w := by simpa [hv] using h
    simp [h]
  | reject =>
    have h : ¬ m.Accepts w := by simpa [hv] using h
    simp [h]
  | failure e => simp [hv] at h

lemma Automaton.accepts_eq_ok_true_iff (hm : m.WellFormed) (w : List String) :
    m.accepts w = .ok true ↔ m.Accepts w := by
  rw [accepts, Simulator.ofAutomaton_eq_ok hm.initial_ne_nil]
  exact (accepts_simulator hm w).1

/-! ### Runs on specifications -/

/-- Until it halts, a run is in the states that moves lead to while they read the symbols consumed so
far; and it accepts what moves to an accepting state read in full, and rejects all else. -/
theorem Automaton.run_attains {text : String} (h : Specification.parse text = .ok m)
    (w : List String) :
    ∃ s, Simulator.ofAutomaton m = .ok s ∧
      (∀ k, ((Run.start s w).after k).isHalted = false →
        ((Run.start s w).after k).position = k ∧
          ∀ q, q ∈ ((Run.start s w).after k).active ↔ m.Attains (w.take k) q) ∧
      (∀ k, ((Run.start s w).after k).isHalted = false ↔
        k ≤ w.length ∧ ∃ q, m.Attains (w.take k) q) ∧
      (s.accepts w = .ok true ↔ ∃ q ∈ m.accepting, m.Attains w q) ∧
      (s.accepts w = .ok false ↔ ¬ ∃ q ∈ m.accepting, m.Attains w q) := by
  have hm := Specification.wellFormed_of_parse h
  have halted : ∀ k, ((Run.start m.simulator w).after k).isHalted = false ↔
      ((Run.start m.simulator w).after k).verdict = none := by
    intro k
    rw [Run.isHalted, Option.isSome_eq_false_iff, Option.isNone_iff_eq_none]
  refine ⟨m.simulator, Simulator.ofAutomaton_eq_ok hm.initial_ne_nil, fun k hk => ?_, fun k => ?_,
    accepts_simulator hm w⟩
  · obtain ⟨htracks, hpos⟩ := Run.tracks_after hm ((halted k).1 hk)
    refine ⟨hpos, ?_⟩
    intro q
    rw [htracks.mem_active, hpos]
  · rw [halted, Run.verdict_after_eq_none_iff hm]

/-- An empty move, and then a move that reads `a`. -/
def Automaton.emptyThenA : Automaton :=
  ⟨["s0", "s1", "s2"], ["s0"], ["s2"], ["a"], [⟨"s0", "$", ["s1"]⟩, ⟨"s1", "a", ["s2"]⟩]⟩

lemma Specification.parse_emptyThenA :
    parse ("#states\ns0\ns1\ns2\n#initial\ns0\n#accepting\ns2\n#alphabet\na\n" ++
      "#transitions\ns0:>s1\ns1:a>s2") = .ok .emptyThenA := by
  cbv

lemma Automaton.hasEdge_epsilon_emptyThenA : emptyThenA.HasEdge "s0" epsilon "s1" :=
  ⟨⟨"s0", "$", ["s1"]⟩, by decide, rfl, rfl, by decide⟩

lemma Automaton.hasEdge_a_emptyThenA : emptyThenA.HasEdge "s1" "a" "s2" :=
  ⟨⟨"s1", "a", ["s2"]⟩, by decide, rfl, rfl, by decide⟩

/-- The empty edge reads the unknown symbol `z`. -/
theorem Automaton.run_attains_skipping :
    ∃ s, Simulator.ofAutomaton emptyThenA = .ok s ∧ s.accepts ["z", "a"] = .ok true := by
  obtain ⟨s, hs, -, -, haccepts, -⟩ :=
    run_attains Specification.parse_emptyThenA ["z", "a"]
  have moves : emptyThenA.Moves "s0" ["z", "a"] "s2" :=
    (Moves.single (.skipping "z" hasEdge_epsilon_emptyThenA)).tail
      (.reading hasEdge_a_emptyThenA)
  exact ⟨s, hs, haccepts.2 ⟨"s2", by decide, "s0", by decide, moves⟩⟩

end Automata
