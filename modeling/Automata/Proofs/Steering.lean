import Automata.Proofs.Draws

/-!
# Steering draws

Whoever lists the words decides what is drawn. For every number of a range there is a word that stands
for it and is not refused; so every entry of a list can be chosen, every subset of a range can be drawn,
and in the end every automaton that is made up as random automata are.
-/

namespace Automata.Random

variable {α β : Type} {bits max n : Nat}

/-- Some words make `d` draw `a`, and it leaves the words that follow them. -/
def Draw.SteersTo (d : Draw ListedWords α) (a : α) : Prop :=
  ∃ ws, ∀ rest, d.run ⟨ws ++ rest⟩ = (a, ⟨rest⟩)

lemma Draw.SteersTo.gives {d : Draw ListedWords α} {a : α} (h : d.SteersTo a) : d.Gives a := by
  obtain ⟨ws, hws⟩ := h
  exact ⟨⟨ws ++ []⟩, by rw [hws]⟩

/-! ### Sequences of draws -/

lemma Draw.SteersTo.pure (a : α) : Draw.SteersTo (Pure.pure a) a :=
  ⟨[], fun _ => rfl⟩

/-- The words for a sequence are those for its parts, one after the other. -/
lemma Draw.SteersTo.bind {d : Draw ListedWords α} {f : α → Draw ListedWords β} {a : α} {b : β}
    (h : d.SteersTo a) (h' : (f a).SteersTo b) : (d >>= f).SteersTo b := by
  obtain ⟨ws, hws⟩ := h
  obtain ⟨ws', hws'⟩ := h'
  refine ⟨ws ++ ws', fun rest => ?_⟩
  rw [StateT.run_bind, List.append_assoc, hws]
  exact hws' rest

lemma Draw.SteersTo.mapM {f : α → Draw ListedWords β} {l : List α} {bs : List β}
    (h : List.Forall₂ (fun a b => (f a).SteersTo b) l bs) : (l.mapM f).SteersTo bs := by
  induction h with
  | nil =>
    rw [List.mapM_nil]
    exact .pure []
  | cons hb _ ih =>
    rw [List.mapM_cons]
    exact hb.bind (ih.bind (.pure _))

/-! ### Numbers -/

/-- The least word that stands for `i` among the numbers up to `max`. -/
def leastWord (bits max i : Nat) : Nat :=
  (i * 2 ^ bits + max) / (max + 1)

/-- The product of the least word is above a multiple of `2 ^ bits` by `max` at most. -/
lemma exists_leastWord_mul (bits max i : Nat) :
    ∃ r ≤ max, leastWord bits max i * (max + 1) = i * 2 ^ bits + r := by
  have hmod : (i * 2 ^ bits + max) % (max + 1) < max + 1 := Nat.mod_lt _ max.succ_pos
  have hdiv := Nat.div_add_mod' (i * 2 ^ bits + max) (max + 1)
  rw [leastWord]
  exact ⟨max - (i * 2 ^ bits + max) % (max + 1), Nat.sub_le _ _, by omega⟩

lemma leastWord_lt {i : Nat} (hi : i ≤ max) (hmax : max < 2 ^ bits) :
    leastWord bits max i < 2 ^ bits := by
  obtain ⟨r, hr, hmul⟩ := exists_leastWord_mul bits max i
  refine Nat.lt_of_mul_lt_mul_right (a := max + 1) ?_
  calc leastWord bits max i * (max + 1)
    _ = i * 2 ^ bits + r := hmul
    _ < i * 2 ^ bits + 2 ^ bits := Nat.add_lt_add_left (hr.trans_lt hmax) _
    _ = (i + 1) * 2 ^ bits := (Nat.succ_mul _ _).symm
    _ ≤ (max + 1) * 2 ^ bits := Nat.mul_le_mul_right _ (Nat.succ_le_succ hi)
    _ = 2 ^ bits * (max + 1) := Nat.mul_comm _ _

lemma le_zone (bits n : Nat) : n ≤ zone bits n := by
  rw [zone, Nat.shiftLeft_eq]
  exact Nat.le_mul_of_pos_right n (Nat.two_pow_pos _)

lemma val_scale (word : BitVec bits) :
    (scale max word).val = word.toNat * (max + 1) / 2 ^ bits :=
  Nat.shiftRight_eq_div_pow _ _

/-- Every number up to `max` has a word that is not refused. -/
lemma exists_accepted_word (i : Fin (max + 1)) (hmax : max < 2 ^ bits) :
    ∃ word : BitVec bits, isAccepted max word = true ∧ scale max word = i := by
  obtain ⟨r, hr, hmul⟩ := exists_leastWord_mul bits max i
  have hlt : r < 2 ^ bits := hr.trans_lt hmax
  refine ⟨.ofNat bits (leastWord bits max i), ?_, Fin.ext ?_⟩
  · have hlow : (BitVec.ofNat bits (leastWord bits max i) * .ofNat bits (max + 1)).toNat = r := by
      rw [← BitVec.ofNat_mul, BitVec.toNat_ofNat, hmul, Nat.mul_add_mod', Nat.mod_eq_of_lt hlt]
    rw [isAccepted, hlow, decide_eq_true_iff]
    exact (Nat.lt_succ_of_le hr).trans_le (le_zone bits (max + 1))
  · rw [val_scale, BitVec.toNat_ofNat, Nat.mod_eq_of_lt (leastWord_lt i.is_le hmax), hmul,
      Nat.mul_comm, Nat.mul_add_div (Nat.two_pow_pos bits), Nat.div_eq_of_lt hlt, Nat.add_zero]

/-- A source whose words can be chosen settles on every number at once. -/
lemma steersTo_settle {next : ListedWords → BitVec bits × ListedWords}
    (hnext : ∀ word, ∃ w, ∀ rest, next ⟨w :: rest⟩ = (word, ⟨rest⟩)) (i : Fin (max + 1))
    (hmax : max < 2 ^ bits) : Draw.SteersTo (settle next max patience) i := by
  obtain ⟨word, haccepted, rfl⟩ := exists_accepted_word i hmax
  obtain ⟨w, hw⟩ := hnext word
  obtain ⟨tries, htries⟩ : ∃ tries, patience = tries + 1 := ⟨patience - 1, rfl⟩
  refine ⟨[w], fun rest => ?_⟩
  rw [htries, List.singleton_append]
  show settle next max (tries + 1) ⟨w :: rest⟩ = _
  rw [settle, hw]
  exact if_pos haccepted

lemma steersTo_upTo64 (i : Fin (max + 1)) (hmax : max < 2 ^ 64) :
    (upTo64 max : Draw ListedWords _).SteersTo i :=
  steersTo_settle (fun word => ⟨word, fun _ => rfl⟩) i hmax

lemma steersTo_upTo32 (i : Fin (max + 1)) (hmax : max < 2 ^ 32) :
    (upTo32 max : Draw ListedWords _).SteersTo i := by
  refine steersTo_settle (fun word => ⟨word.setWidth 64, fun rest => ?_⟩) i hmax
  show ((word.setWidth 64).setWidth 32, _) = _
  rw [BitVec.setWidth_setWidth_of_le _ (by decide), BitVec.setWidth_eq]
  rfl

lemma steersTo_between {low high : Nat} (hlow : low ≤ n) (hhigh : n ≤ high)
    (hlt : high < 2 ^ 64) : (between low high : Draw ListedWords Nat).SteersTo n := by
  have hmax : high - low < 2 ^ 64 := by omega
  refine (steersTo_upTo64 ⟨n - low, by omega⟩ hmax).bind ?_
  rw [Nat.add_sub_cancel' hlow]
  exact .pure n

lemma steersTo_choose {x y : α} {l : List α} (hy : y ∈ x :: l) (hl : l.length < 2 ^ 32) :
    (choose x l : Draw ListedWords α).SteersTo y := by
  obtain ⟨i, rfl⟩ := List.get_of_mem hy
  exact (steersTo_upTo32 i hl).bind (.pure _)

/-! ### Subsets of a range -/

/-- A number that is not in yet can be taken in. -/
lemma steersTo_chooseFurther {chosen : List Nat} {i j : Nat} (hi : i ≤ j) (hnew : i ∉ chosen)
    (hj : j < 2 ^ 32) : (chooseFurther chosen j : Draw ListedWords _).SteersTo (i :: chosen) := by
  refine (steersTo_upTo32 ⟨i, Nat.lt_succ_of_le hi⟩ hj).bind ?_
  rw [if_neg (by simpa using hnew)]
  exact .pure _

/-- The last draw is for the largest number there can be, if it is wanted, and else for any other. What
is left lies below the largest number either way. -/
lemma exists_last {l : List Nat} (hl : l.Nodup) (hlt : ∀ i ∈ l, i < n + 1) (hne : l ≠ []) :
    ∃ i ∈ l, i ≤ n ∧ ∀ i' ∈ l.erase i, i' < n := by
  have rest : ∀ i' ∈ l, i' ≠ n → i' < n :=
    fun i' hi' hne => lt_of_le_of_ne (Nat.lt_succ_iff.1 (hlt i' hi')) hne
  by_cases hn : n ∈ l
  · refine ⟨n, hn, le_rfl, fun i' hi' => ?_⟩
    obtain ⟨hne, hmem⟩ := hl.mem_erase_iff.1 hi'
    exact rest i' hmem hne
  · obtain ⟨i, hi⟩ := List.exists_mem_of_ne_nil l hne
    refine ⟨i, hi, Nat.lt_succ_iff.1 (hlt i hi), fun i' hi' => ?_⟩
    have hmem := List.mem_of_mem_erase hi'
    exact rest i' hmem (ne_of_mem_of_not_mem hmem hn)

/-- The numbers of every subset can be taken in. -/
lemma exists_steersTo_foldlM {l : List Nat} {k : Nat} (hl : l.Nodup) (hlt : ∀ i ∈ l, i < n)
    (hlength : l.length = k) (hn : n ≤ 2 ^ 32) :
    ∃ chosen, chosen.Perm l ∧
      ((List.range' (n - k) k).foldlM chooseFurther [] : Draw ListedWords _).SteersTo chosen := by
  induction k generalizing n l with
  | zero =>
    obtain rfl := List.length_eq_zero_iff.1 hlength
    exact ⟨[], .nil, .pure []⟩
  | succ k ih =>
    have hk : k + 1 ≤ n := by
      rw [← hlength]
      simpa using (hl.subperm fun i hi => List.mem_range.2 (hlt i hi)).length_le
    obtain ⟨n, rfl⟩ : ∃ n', n = n' + 1 := ⟨n - 1, by omega⟩
    obtain ⟨i, hi, hle, herase⟩ := exists_last hl hlt (List.ne_nil_of_length_eq_add_one hlength)
    obtain ⟨chosen, hperm, hsteers⟩ := ih (hl.erase i) herase
      (by rw [List.length_erase_of_mem hi, hlength]; rfl) (by omega)
    refine ⟨i :: chosen, (hperm.cons i).trans (List.perm_cons_erase hi).symm, ?_⟩
    rw [Nat.succ_sub_succ, List.range'_1_concat, List.foldlM_append, Nat.sub_add_cancel (by omega)]
    refine hsteers.bind ?_
    rw [List.foldlM_cons]
    have hnew : i ∉ chosen := fun hmem => hl.not_mem_erase (hperm.subset hmem)
    exact (steersTo_chooseFurther hle hnew (by omega)).bind (.pure _)

lemma filter_contains_of_sublist {l chosen : List Nat} (hl : l.Sublist (List.range n))
    (hchosen : chosen.Perm l) : (List.range n).filter chosen.contains = l := by
  have hsorted : ∀ {l' : List Nat}, l'.Sublist (List.range n) → l'.Pairwise (· < ·) :=
    fun h => List.pairwise_lt_range.sublist h
  refine List.Perm.eq_of_pairwise (fun i j _ _ hij hji => absurd hij hji.asymm)
    (hsorted List.filter_sublist) (hsorted hl) ?_
  rw [List.perm_ext_iff_of_nodup (List.nodup_range.filter _) (List.nodup_range.sublist hl)]
  intro i
  have hmem : i ∈ l → i < n := fun hi => List.mem_range.1 (hl.subset hi)
  simpa [hchosen.mem_iff] using hmem

lemma steersTo_distinct {l : List Nat} (hl : l.Sublist (List.range n)) (hn : n ≤ 2 ^ 32) :
    (distinct n l.length : Draw ListedWords _).SteersTo l := by
  have hlength : min l.length n = l.length := min_eq_left (by simpa using hl.length_le)
  obtain ⟨chosen, hperm, hsteers⟩ := exists_steersTo_foldlM (List.nodup_range.sublist hl)
    (fun i hi => List.mem_range.1 (hl.subset hi)) rfl hn
  rw [distinct, hlength]
  refine hsteers.bind ?_
  rw [filter_contains_of_sublist hl hperm]
  exact .pure l

/-! ### Automata -/

variable {kind : Determinism} {m : Automaton}

lemma IsSample.steersTo_targetCount {t : Transition} (h : IsSample kind n t) :
    (targetCount kind : Draw ListedWords Nat).SteersTo t.targets.length := by
  cases kind with
  | deterministic =>
    rw [h.length_eq rfl]
    exact .pure 1
  | nonDeterministic => exact steersTo_between h.length_pos h.length_le (by decide)

lemma IsSample.steersTo_randomTransition {t : Transition} (h : IsSample kind n t)
    (hn : n ≤ 2 ^ 32) :
    (randomTransition kind n t.source t.symbol : Draw ListedWords _).SteersTo t := by
  refine h.steersTo_targetCount.bind ?_
  obtain ⟨l, hl, htargets⟩ := h.numbers
  rw [htargets, List.length_map]
  refine (steersTo_distinct hl hn).bind ?_
  rw [← htargets]
  exact .pure t

/-- Every automaton that is made up as random automata are can be drawn. -/
lemma IsRandom.steersTo (h : IsRandom kind n m) :
    (randomAutomaton kind : Draw ListedWords Automaton).SteersTo m := by
  have hn : n ≤ 6 := h.count_le
  have hge : 3 ≤ n := h.count_ge
  obtain ⟨i, hi, hinitial⟩ := h.initial
  obtain ⟨l, hl, haccepting⟩ := h.accepting
  have hpos := h.accepting_pos
  have hhalf := h.accepting_le
  rw [haccepting, List.length_map] at hpos hhalf
  have htransitions : List.Forall₂ (fun p t => (randomTransition kind n p.1 p.2).SteersTo t)
      (sampleStates n ×ˢ sampleAlphabet) m.transitions := by
    rw [← h.keys, List.forall₂_map_left_iff, List.forall₂_same]
    exact fun t ht => (h.samples t ht).steersTo_randomTransition (by omega)
  refine (steersTo_between hge hn (by decide)).bind ?_
  refine (steersTo_upTo64 ⟨i, by omega⟩ (by omega)).bind ?_
  refine (steersTo_between hpos hhalf (by omega)).bind ?_
  refine (steersTo_distinct hl (by omega)).bind ?_
  refine (Draw.SteersTo.mapM htransitions).bind ?_
  obtain ⟨states, initial, accepting, alphabet, transitions⟩ := m
  obtain rfl := h.states
  obtain rfl := hinitial
  obtain rfl := haccepting
  obtain rfl := h.alphabet
  exact .pure _

/-- Some words draw an automaton for a class just if it is made up so. None is missed, none is added. -/
theorem exists_words_randomAutomaton_iff (kind : Determinism) (m : Automaton) :
    (∃ words : List (BitVec 64), ((randomAutomaton kind).run (ListedWords.mk words)).1 = m) ↔
      ∃ count, IsRandom kind count m := by
  constructor
  · rintro ⟨words, rfl⟩
    exact (Draw.gives_run (randomAutomaton kind) (ListedWords.mk words)).of_randomAutomaton
  · rintro ⟨count, hm⟩
    obtain ⟨⟨words⟩, hwords⟩ := hm.steersTo.gives
    exact ⟨words, hwords⟩

end Automata.Random
