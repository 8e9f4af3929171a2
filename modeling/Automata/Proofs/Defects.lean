import Automata.Proofs.WellFormed

/-!
# The defect that is reported

`Automaton.HasDefect` says what it means that an automaton has a defect, with all offenders that the
defect names. An automaton can have several at once; the checks report the first one in the order of
the rules, which is the order of `Defect.rank`.
-/

namespace Automata

/-! ### Defects of an automaton -/

/-- The number of the rule that is broken. -/
def Defect.rank : Defect → Nat
  | .noStates => 0
  | .duplicateStates _ => 1
  | .noInitialState => 2
  | .undeclaredInitial _ => 3
  | .undeclaredAccepting _ => 4
  | .undeclaredInTransitions _ => 5
  | .foreignSymbols _ => 6
  | .missingTargets _ => 7
  | .repeatedTargets _ => 8

/-- The rule is broken, and the offenders are all there are: repeated states in ascending order, and
all others as they are declared. -/
def Automaton.HasDefect (m : Automaton) : Defect → Prop
  | .noStates => m.states = []
  | .duplicateStates labels =>
    labels ≠ [] ∧ labels.Pairwise (· < ·) ∧ ∀ s, s ∈ labels ↔ 2 ≤ m.states.count s
  | .noInitialState => m.initial = []
  | .undeclaredInitial labels => labels ≠ [] ∧ labels = m.initial.filter (· ∉ m.states)
  | .undeclaredAccepting labels => labels ≠ [] ∧ labels = m.accepting.filter (· ∉ m.states)
  | .undeclaredInTransitions uses =>
    uses ≠ [] ∧ uses = m.transitions.flatMap fun t =>
      (if t.source ∈ m.states then [] else [t.key ++ " (source)"]) ++
        (t.targets.filter (· ∉ m.states)).map fun s => t.key ++ ">" ++ s
  | .foreignSymbols keys =>
    keys ≠ [] ∧
      keys = (m.transitions.filter fun t => t.symbol ≠ epsilon ∧ t.symbol ∉ m.alphabet).map (·.key)
  | .missingTargets keys =>
    keys ≠ [] ∧ keys = (m.transitions.filter (·.targets = [])).map (·.key)
  | .repeatedTargets keys =>
    keys ≠ [] ∧ keys = (m.transitions.filter fun t => ¬ t.targets.Nodup).map (·.key)

/-- `m` has the defect `d` and none that comes before it. -/
def Automaton.FirstDefect (m : Automaton) (d : Defect) : Prop :=
  m.HasDefect d ∧ ∀ d', m.HasDefect d' → d.rank ≤ d'.rank

variable {m : Automaton} {d : Defect}

/-! ### What the checks find -/

/-- What occurs twice, or once after it was seen. -/
lemma mem_repetitions_iff (seen l : List String) (x : String) :
    x ∈ repetitions seen l ↔ x ∈ l ∧ x ∈ seen ∨ 2 ≤ l.count x := by
  induction l generalizing seen with
  | nil => simp [repetitions]
  | cons y l ih =>
    have hmem : 2 ≤ l.count x → x ∈ l := fun h => List.one_le_count_iff.1 (Nat.le_of_succ_le h)
    rw [repetitions]
    by_cases hxy : x = y
    · subst hxy
      have hcount : 2 ≤ (x :: l).count x ↔ x ∈ l := by
        rw [List.count_cons_self, ← List.one_le_count_iff, Nat.succ_le_succ_iff]
      by_cases hx : x ∈ seen
      · simp [hx]
      · rw [hcount]
        simp only [List.contains_iff_mem, hx, if_false, ih, List.mem_cons, true_or, and_true,
          and_false, false_or]
        exact or_iff_left_of_imp hmem
    · have hcount : (y :: l).count x = l.count x := List.count_cons_of_ne (Ne.symm hxy)
      by_cases hy : y ∈ seen <;> simp [hy, ih, hxy, hcount]

lemma Defect.some_eq_ofOffenders_iff {wrap : List String → Defect} {offenders : List String} :
    some d = ofOffenders wrap offenders ↔ offenders ≠ [] ∧ d = wrap offenders := by
  cases offenders <;> simp [ofOffenders]

/-- The set of some labels is the ascending list of them. -/
lemma StateSet.eq_toList_ofList_iff (l labels : List String) :
    labels = (StateSet.ofList l).toList ↔ labels.Pairwise (· < ·) ∧ ∀ s, s ∈ labels ↔ s ∈ l := by
  constructor
  · rintro rfl
    exact ⟨(StateSet.ofList l).sorted, fun s => StateSet.mem_ofList⟩
  · rintro ⟨hsorted, hmem⟩
    have : ⟨labels, hsorted⟩ = StateSet.ofList l :=
      StateSet.ext fun s => (hmem s).trans StateSet.mem_ofList.symm
    rw [← this]

lemma Automaton.undeclared_eq_filter (m : Automaton) (labels : List String) :
    m.undeclared labels = labels.filter (· ∉ m.states) := by
  simp [undeclared, isState]

lemma Automaton.undeclaredUses_eq (m : Automaton) : m.undeclaredUses = fun t =>
    (if t.source ∈ m.states then [] else [t.key ++ " (source)"]) ++
      (t.targets.filter (· ∉ m.states)).map fun s => t.key ++ ">" ++ s := by
  funext t
  simp [undeclaredUses, undeclared_eq_filter, isState]

lemma Automaton.keysWhere_eq (m : Automaton) {p : Transition → Bool} {P : Transition → Prop}
    [DecidablePred P] (h : ∀ t, p t = false ↔ ¬ P t) :
    m.keysWhere p = (m.transitions.filter P).map (·.key) := by
  have hp : p = fun t => decide (P t) := by
    funext t
    rw [Bool.eq_iff_iff, decide_eq_true_iff, ← not_iff_not, ← h t, Bool.not_eq_true]
  rw [keysWhere, hp]

/-- The checks find the defects there are. -/
lemma Automaton.some_mem_checks_iff : some d ∈ m.checks ↔ m.HasDefect d := by
  have hforeign := m.keysWhere_eq (p := m.isForeign)
    (P := fun t => t.symbol ≠ epsilon ∧ t.symbol ∉ m.alphabet)
    fun t => by rw [isForeign_eq_false_iff, not_and_or, not_not, not_not]
  have hmissing := m.keysWhere_eq (p := (·.targets.isEmpty)) (P := (·.targets = [])) (by simp)
  have hrepeated := m.keysWhere_eq (p := (·.hasRepeatedTarget)) (P := fun t => ¬ t.targets.Nodup)
    fun t => by rw [Transition.hasRepeatedTarget_eq_false_iff, not_not]
  simp only [checks, hforeign, hmissing, hrepeated, undeclaredUses_eq, undeclared_eq_filter,
    List.mem_cons, Defect.some_eq_ofOffenders_iff, List.not_mem_nil, or_false,
    Option.some_eq_ite_none_right, Option.some.injEq, List.isEmpty_iff]
  cases d with
  | noStates => simp [HasDefect]
  | noInitialState => simp [HasDefect]
  | duplicateStates labels =>
    have hmem : ∀ s, s ∈ repetitions [] m.states ↔ 2 ≤ m.states.count s := by
      simp [mem_repetitions_iff]
    simp only [reduceCtorEq, and_false, or_false, false_or, HasDefect,
      Defect.duplicateStates.injEq, ← hmem, ← StateSet.eq_toList_ofList_iff]
    exact and_congr_left fun h => by rw [h]
  | _ labels =>
    simp only [reduceCtorEq, and_false, or_false, false_or, HasDefect,
      Defect.undeclaredInitial.injEq, Defect.undeclaredAccepting.injEq,
      Defect.undeclaredInTransitions.injEq, Defect.foreignSymbols.injEq,
      Defect.missingTargets.injEq, Defect.repeatedTargets.injEq]
    exact and_congr_left fun h => by rw [h]

/-! ### The first defect -/

lemma Automaton.rank_of_mem_zipIdx_checks {k : Nat} (h : (some d, k) ∈ m.checks.zipIdx) :
    d.rank = k := by
  simp only [checks, List.zipIdx_cons, List.zipIdx_nil, List.mem_cons, Prod.mk.injEq,
    List.not_mem_nil, or_false, Defect.some_eq_ofOffenders_iff, Option.some_eq_ite_none_right,
    Option.some.injEq] at h
  rcases h with h | h | h | h | h | h | h | h | h <;> obtain ⟨⟨-, rfl⟩, rfl⟩ := h <;> rfl

/-- The check of a rule finds the defects of this rule. -/
lemma Automaton.getElem?_checks_iff {k : Nat} :
    m.checks[k]? = some (some d) ↔ m.HasDefect d ∧ d.rank = k := by
  constructor
  · intro h
    exact ⟨some_mem_checks_iff.1 (List.mem_of_getElem? h),
      rank_of_mem_zipIdx_checks (List.mem_zipIdx_iff_getElem?.2 h)⟩
  · rintro ⟨h, rfl⟩
    obtain ⟨k, hk⟩ := List.mem_iff_getElem?.1 (some_mem_checks_iff.2 h)
    rwa [rank_of_mem_zipIdx_checks (List.mem_zipIdx_iff_getElem?.2 hk)]

lemma Automaton.firstDefect_of_defect? (h : m.defect? = some d) : m.FirstDefect d := by
  obtain ⟨before, check, after, hchecks, rfl, hbefore⟩ := List.findSome?_eq_some_iff.1 h
  have hget : m.checks[before.length]? = some (some d) := by simp [hchecks]
  obtain ⟨hd, hrank⟩ := getElem?_checks_iff.1 hget
  refine ⟨hd, ?_⟩
  intro d' hd'
  rw [hrank]
  refine Nat.le_of_not_lt fun hlt => ?_
  -- The check that finds `d'` is one of those before, which find nothing.
  have hget' := getElem?_checks_iff.2 ⟨hd', rfl⟩
  rw [hchecks, List.getElem?_append_left hlt] at hget'
  nomatch hbefore _ (List.mem_of_getElem? hget')

/-- The checks report the first defect. -/
theorem Automaton.defect?_eq_some_iff : m.defect? = some d ↔ m.FirstDefect d := by
  constructor
  · exact firstDefect_of_defect?
  · rintro ⟨hd, hfirst⟩
    cases hm : m.defect? with
    | none =>
      have := List.findSome?_eq_none_iff.1 hm _ (some_mem_checks_iff.2 hd)
      nomatch this
    | some d' =>
      obtain ⟨hd', hfirst'⟩ := firstDefect_of_defect? hm
      have hrank := Nat.le_antisymm (hfirst' d hd) (hfirst d' hd')
      have hget := getElem?_checks_iff.2 ⟨hd', hrank⟩
      rw [getElem?_checks_iff.2 ⟨hd, rfl⟩] at hget
      rw [Option.some.inj (Option.some.inj hget)]

end Automata
