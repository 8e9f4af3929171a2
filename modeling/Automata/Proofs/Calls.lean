import Automata.Proofs.Runs

/-!
# Calls of a run

A run is asked to step and to finish in any order. Nothing is assumed here of its simulator, whose
moves may fail. `Run.Lawful` says what can be told of a run from the calls made so far and from its
input, and `Run.lawful_callAll` that it is true after all calls.
-/

namespace Automata

variable {s : Simulator} {w u : List String} {r : Run} {v : Verdict}

/-! ### Calls and answers -/

/-- What can be asked of a run. -/
inductive Run.Call
  | step
  | finish

/-- The run after a call. -/
def Run.call (r : Run) : Call → Run
  | .step => r.step.next
  | .finish => r.finish.2

/-- The answer to a call: a verdict, or none if one more symbol was consumed. -/
def Run.answer (r : Run) : Call → Option Verdict
  | .step => r.step.verdict?
  | .finish => some r.finish.1

/-- The run after calls in a row. -/
def Run.callAll (r : Run) (calls : List Call) : Run :=
  calls.foldl call r

/-- The answers to calls in a row. -/
def Run.answers (r : Run) : List Call → List (Option Verdict)
  | [] => []
  | c :: calls => r.answer c :: (r.call c).answers calls

lemma Run.verdict_finish (r : Run) : r.finish.2.verdict = some r.finish.1 := by
  have last : ∃ r' : Run, True ∧ r'.step.verdict? = some r.finish.1 ∧ r.finish.2 = r'.step.next :=
    finish_induction (fun _ _ => trivial) trivial
  obtain ⟨r', -, hv, hnext⟩ := last
  rw [hnext, verdict_next_step, hv]

/-- The verdict that a call answers is the one that the run has afterwards. -/
lemma Run.verdict_call (r : Run) (c : Call) : (r.call c).verdict = r.answer c := by
  cases c with
  | step => exact r.verdict_next_step
  | finish => exact r.verdict_finish

lemma Run.call_of_verdict (h : r.verdict = some v) (c : Call) :
    r.answer c = some v ∧ r.call c = r := by
  obtain ⟨hverdict, hnext⟩ := step_of_verdict h
  cases c with
  | step => exact ⟨hverdict, hnext⟩
  | finish =>
    rw [answer, call, finish_of_verdict hverdict]
    exact ⟨rfl, hnext⟩

/-- After a verdict all calls answer the same, and none changes the run. -/
lemma Run.callAll_of_verdict (h : r.verdict = some v) (calls : List Call) :
    r.callAll calls = r ∧ r.answers calls = List.replicate calls.length (some v) := by
  induction calls with
  | nil => exact ⟨rfl, rfl⟩
  | cons c calls ih =>
    obtain ⟨hanswer, hcall⟩ := call_of_verdict h c
    rw [callAll, List.foldl_cons, answers, hanswer, hcall]
    exact ⟨ih.1, by rw [ih.2]; rfl⟩

lemma Run.position_call_of_none {c : Call} (h : r.answer c = none) :
    (r.call c).position = r.position + 1 := by
  cases c with
  | finish => nomatch h
  | step =>
    replace h : r.step.verdict? = none := h
    show r.step.next.position = r.position + 1
    have hs := r.stepsTo_step
    rw [h] at hs
    generalize r.step.next = r' at hs ⊢
    cases hs with
    | consumed => rfl

/-- While there is no verdict every call consumes one symbol. -/
lemma Run.callAll_of_none {calls : List Call} (h : (r.callAll calls).verdict = none) :
    (r.callAll calls).position = r.position + calls.length ∧
      r.answers calls = List.replicate calls.length none := by
  induction calls generalizing r with
  | nil => exact ⟨rfl, rfl⟩
  | cons c calls ih =>
    replace h : ((r.call c).callAll calls).verdict = none := h
    have hnone : r.answer c = none := by
      cases hc : r.answer c with
      | none => rfl
      | some v =>
        have hv : (r.call c).verdict = some v := by rw [verdict_call, hc]
        rw [(callAll_of_verdict hv calls).1, hv] at h
        nomatch h
    obtain ⟨hposition, hanswers⟩ := ih h
    constructor
    · show ((r.call c).callAll calls).position = _
      rw [hposition, position_call_of_none hnone, List.length_cons]
      omega
    · rw [answers, hanswers, hnone]
      rfl

lemma Run.LeadsTo.callAll {r' : Run} (h : r.LeadsTo r') (calls : List Call) :
    r.LeadsTo (r'.callAll calls) := by
  induction calls generalizing r' with
  | nil => exact h
  | cons c calls ih =>
    apply ih
    cases c with
    | step => exact .step h
    | finish => exact .finish h

/-! ### Finishing -/

lemma Run.finish_of_verdict_eq_some (h : r.verdict = some v) : r.finish.1 = v := by
  rw [finish_of_verdict (step_of_verdict h).1]

/-- A step does not change what a finish comes to. -/
lemma Run.finish_next_step (r : Run) : r.step.next.finish.1 = r.finish.1 := by
  cases h : r.step.verdict? with
  | none => rw [finish_of_none h]
  | some v =>
    have hv : r.step.next.verdict = some v := by rw [verdict_next_step, h]
    rw [finish_of_verdict h, finish_of_verdict_eq_some hv]

lemma Run.after_next_step (r : Run) (k : Nat) : r.step.next.after k = r.after (k + 1) := by
  induction k with
  | zero => rfl
  | succ k ih => rw [after, ih]; rfl

/-- A finish makes steps until one has a verdict, at most one more than there are symbols to come. -/
theorem Run.exists_finish_eq_after (r : Run) :
    ∃ k ≤ r.remaining, (∀ j < k, (r.after j).step.verdict? = none) ∧
      (r.after k).step.verdict? = some r.finish.1 ∧ r.finish.2 = r.after (k + 1) := by
  cases h : r.step.verdict? with
  | some v =>
    refine ⟨0, Nat.zero_le _, fun j hj => absurd hj (Nat.not_lt_zero j), ?_, ?_⟩
    · rw [finish_of_verdict h]
      exact h
    · rw [finish_of_verdict h]
      rfl
  | none =>
    have hlt := remaining_next_lt h
    obtain ⟨k, hk, hnone, hsome, hnext⟩ := exists_finish_eq_after r.step.next
    rw [after_next_step] at hsome hnext
    rw [finish_of_none h]
    refine ⟨k + 1, Nat.le_trans (Nat.succ_le_succ hk) hlt, ?_, hsome, hnext⟩
    intro j hj
    cases j with
    | zero => exact h
    | succ j =>
      rw [← after_next_step]
      exact hnone j (Nat.lt_of_succ_lt_succ hj)
termination_by r.remaining

/-! ### The active set -/

/-- The active set when `u` has been consumed: one symbol after the other advances the first set. -/
def Simulator.activeAfter (s : Simulator) (u : List String) : Except Error StateSet := do
  u.foldlM s.advance (← s.start)

lemma Simulator.activeAfter_concat (s : Simulator) (u : List String) (a : String) :
    s.activeAfter (u ++ [a]) = s.activeAfter u >>= fun A => s.advance A a := by
  rw [activeAfter, activeAfter]
  cases s.start with
  | error e => rfl
  | ok B =>
    show (u ++ [a]).foldlM s.advance B = u.foldlM s.advance B >>= fun A => s.advance A a
    rw [List.foldlM_append]
    cases u.foldlM s.advance B with
    | error e => rfl
    | ok A =>
      show [a].foldlM s.advance A = s.advance A a
      rw [List.foldlM_cons]
      cases s.advance A a <;> rfl

/-- What no step changes in a run of `s` on `w`, and what its active set is as long as there is no
verdict. -/
structure Run.Follows (s : Simulator) (w : List String) (r : Run) : Prop where
  simulator : r.simulator = s
  input : r.input = w.toArray
  position_le : r.position ≤ w.length
  active : r.verdict = none → s.activeAfter (w.take r.position) = .ok r.active
  finish : r.finish.1 = (start s w).finish.1

lemma Run.follows_start (s : Simulator) (w : List String) : (start s w).Follows s w where
  simulator := simulator_start s w
  input := input_start s w
  position_le := by
    rw [position_start]
    exact Nat.zero_le _
  active hv := by
    rw [position_start, List.take_zero]
    cases h : s.start with
    | error e => simp [start, h] at hv
    | ok A => simp [start, Simulator.activeAfter, h]
  finish := rfl

/-- A step of the run advances along the next symbol of `w`. -/
lemma Run.Follows.advance_eq (h : r.Follows s w) (hp : r.position < r.input.size)
    (hlt : r.position < w.length) :
    r.simulator.advance r.active r.input[r.position] = s.advance r.active w[r.position] := by
  rw [h.simulator, getElem_input h.input hp hlt]

lemma Run.Follows.step (h : r.Follows s w) : r.step.next.Follows s w := by
  have hfinish : r.step.next.finish.1 = (start s w).finish.1 := by
    rw [finish_next_step, h.finish]
  have hs := r.stepsTo_step
  generalize r.step.verdict? = verdict?, r.step.next = r' at hs hfinish ⊢
  cases hs with
  | halted hv => exact h
  | finished hv hp => exact ⟨h.simulator, h.input, h.position_le, (nomatch ·), hfinish⟩
  | failed hv hp ha => exact ⟨h.simulator, h.input, h.position_le, (nomatch ·), hfinish⟩
  | stuck hv hp ha hnext => exact ⟨h.simulator, h.input, h.position_le, (nomatch ·), hfinish⟩
  | @consumed next hv hp ha hnext =>
    -- The only step after which there is no verdict appends one symbol to what was consumed.
    have hlt : r.position < w.length := by simpa [h.input] using hp
    refine ⟨h.simulator, h.input, hlt, fun _ => ?_, hfinish⟩
    show s.activeAfter (w.take (r.position + 1)) = .ok next
    rw [List.take_succ_eq_append_getElem hlt, Simulator.activeAfter_concat, h.active hv]
    show s.advance r.active w[r.position] = .ok next
    rw [← h.advance_eq hp hlt]
    exact ha

lemma Run.follows_callAll (s : Simulator) (w : List String) (calls : List Call) :
    ((start s w).callAll calls).Follows s w :=
  (LeadsTo.refl.callAll calls).induction (fun _ => Follows.step) (follows_start s w)

/-! ### Steps that halt -/

/-- A step that fails leaves the states and the position as they are. -/
lemma Run.next_step_of_failure {e : Error} (h : r.step.verdict? = some (.failure e)) :
    r.step.next.active = r.active ∧ r.step.next.position = r.position := by
  have hs := r.stepsTo_step
  generalize r.step.verdict? = verdict?, r.step.next = r' at hs h ⊢
  cases hs with
  | halted | finished | failed => exact ⟨rfl, rfl⟩
  | stuck | consumed => nomatch h

/-- A step from which no state is reached empties the active set. -/
lemma Run.Follows.step_of_stuck (h : r.Follows s w) (hv : r.verdict = none) {a : String}
    (ha : w[r.position]? = some a) (hadvance : s.advance r.active a = .ok ∅) :
    r.step.verdict? = some .reject ∧ r.step.next.active = ∅ ∧
      r.step.next.position = r.position := by
  obtain ⟨hlt, rfl⟩ := List.getElem?_eq_some_iff.1 ha
  have hp : r.position < r.input.size := by simpa [h.input] using hlt
  rw [← h.advance_eq hp hlt] at hadvance
  have stuck : r.StepsTo (some .reject) ({ r with active := ∅ }.halt .reject) :=
    .stuck hv hp hadvance rfl
  obtain ⟨hverdict, hnext⟩ := stuck.eq_step
  rw [hverdict, hnext]
  exact ⟨rfl, rfl, rfl⟩

/-! ### The laws -/

/-- What a query for acceptance answers when a run has come to the verdict. -/
def Verdict.report : Verdict → Except Error Bool
  | .accept => .ok true
  | .reject => .ok false
  | .failure e => .error e

lemma Simulator.accepts_eq_report (s : Simulator) (w : List String) :
    s.accepts w = (Run.start s w).finish.1.report := by
  rw [accepts]
  cases (Run.start s w).finish.1 <;> rfl

/-- What is true of a run of `s` on `w` that has given `answers`. -/
structure Run.Lawful (s : Simulator) (w : List String) (answers : List (Option Verdict))
    (r : Run) : Prop where
  position_le : r.position ≤ w.length
  /-- Until it halts, every answer stands for one symbol, and these symbols alone lead to the active
  set. -/
  running : r.isHalted = false →
    answers = List.replicate r.position none ∧
      s.activeAfter (w.take r.position) = .ok r.active
  /-- A verdict is final. -/
  stays : ∀ c v, r.answer c = some v → ∀ later,
    (r.call c).callAll later = r.call c ∧
      (r.call c).answers later = List.replicate later.length (some v)
  /-- A step that fails changes neither the states nor the position. -/
  failed : ∀ e, r.step.verdict? = some (.failure e) →
    r.step.next.active = r.active ∧ r.step.next.position = r.position
  /-- A step from which no state is reached consumes nothing. -/
  stuck : r.isHalted = false → ∀ a, w[r.position]? = some a → s.advance r.active a = .ok ∅ →
    r.step.verdict? = some .reject ∧ r.step.next.active = ∅ ∧ r.step.next.position = r.position
  /-- A finish halts, after one step more than there are symbols to come at the most. -/
  finishes : ∃ k ≤ w.length - r.position, (∀ j < k, (r.after j).step.verdict? = none) ∧
    (r.after k).step.verdict? = some r.finish.1 ∧ r.finish.2 = r.after (k + 1) ∧
      r.finish.2.verdict = some r.finish.1
  /-- What it comes to is what a query for acceptance answers. -/
  accepts_eq : s.accepts w = r.finish.1.report

/-- A run obeys the laws whatever simulator it is a run of, and whatever calls have been made. -/
theorem Run.lawful_callAll (s : Simulator) (w : List String) (calls : List Call) :
    ((start s w).callAll calls).Lawful s w ((start s w).answers calls) := by
  have h := follows_callAll s w calls
  have hrunning := @callAll_of_none (start s w) calls
  generalize (start s w).callAll calls = r at h hrunning ⊢
  have hremaining : r.remaining = w.length - r.position := by
    rw [remaining, h.input, List.size_toArray]
  constructor
  case position_le => exact h.position_le
  case running =>
    intro hhalted
    have hv := isHalted_eq_false_iff.1 hhalted
    obtain ⟨hposition, hanswers⟩ := hrunning hv
    rw [position_start, Nat.zero_add] at hposition
    exact ⟨hposition ▸ hanswers, h.active hv⟩
  case stays =>
    intro c v hc later
    apply callAll_of_verdict
    rw [verdict_call, hc]
  case failed =>
    intro e he
    exact next_step_of_failure he
  case stuck =>
    intro hhalted a ha hadvance
    exact h.step_of_stuck (isHalted_eq_false_iff.1 hhalted) ha hadvance
  case finishes =>
    obtain ⟨k, hk, hnone, hsome, hnext⟩ := r.exists_finish_eq_after
    exact ⟨k, hremaining ▸ hk, hnone, hsome, hnext, r.verdict_finish⟩
  case accepts_eq => rw [Simulator.accepts_eq_report, h.finish]

/-- A move on `a` that stays where it is, and a move on `b` to a label that is no state. -/
def Automaton.dangling : Automaton :=
  ⟨["s0"], ["s0"], [], ["a", "b"], [⟨"s0", "a", ["s0"]⟩, ⟨"s0", "b", ["s9"]⟩]⟩

/-- Its run on `a` and `b` fails at the second step, which leaves it at the one state and the position
that the first step led to. -/
theorem Run.lawful_callAll_dangling :
    ∃ s r, Simulator.ofAutomaton .dangling = .ok s ∧ r = (start s ["a", "b"]).callAll [.step] ∧
      r.isHalted = false ∧ r.position = 1 ∧
      r.step.verdict? = some (.failure (.unknownState "s9")) ∧
      r.step.next.active = r.active ∧ r.step.next.position = 1 ∧
      s.accepts ["a", "b"] = .error (.unknownState "s9") := by
  have h := lawful_callAll Automaton.dangling.simulator ["a", "b"] [.step]
  have hfailed : ((start Automaton.dangling.simulator ["a", "b"]).callAll [.step]).step.verdict? =
      some (.failure (.unknownState "s9")) := by
    cbv
  obtain ⟨hactive, hposition⟩ := h.failed _ hfailed
  refine ⟨_, _, Simulator.ofAutomaton_eq_ok (by decide), rfl, by cbv, by cbv, hfailed, hactive,
    hposition, ?_⟩
  rw [h.accepts_eq, finish_of_verdict hfailed]
  rfl

end Automata
