import Automata.Proofs.Morphisms

/-!
# Presentations of an automaton

The same automaton can be written down in other orders and with other labels for its states. What is
rearranged (`Automaton.Rearranges`) runs through the same active sets, and what is renamed
(`Automaton.rename`) through the sets of the new labels, always to the same verdict: although edges are
searched in their order and states are visited in the order of their labels.
-/

namespace Automata

variable {m m' : Automaton} {f g : String → String} {p q x : String}

/-! ### Rearranging -/

/-- `t'` is `t` with its targets in another order. -/
structure Transition.Rearranges (t t' : Transition) : Prop where
  source_eq : t'.source = t.source
  symbol_eq : t'.symbol = t.symbol
  targets : t.targets.Perm t'.targets

/-- `m'` is `m` with its lists in another order. The first initial state stays the first one if `m` is
deterministic, as it is the only one that counts then. -/
structure Automaton.Rearranges (m m' : Automaton) : Prop where
  states : m.states.Perm m'.states
  initial : m.initial.Perm m'.initial
  first : m.classify = .deterministic → m'.initial.head? = m.initial.head?
  accepting : m.accepting.Perm m'.accepting
  alphabet : m.alphabet.Perm m'.alphabet
  transitions : ∃ ts, m.transitions.Perm ts ∧
    List.Forall₂ Transition.Rearranges ts m'.transitions

lemma exists_of_forall₂ {α β : Type} {R : α → β → Prop} {l : List α} {l' : List β}
    (h : List.Forall₂ R l l') : ∀ x ∈ l, ∃ y ∈ l', R x y :=
  exists_of_sublistForall₂ (List.sublistForall₂_iff.2 ⟨l', h, .refl l'⟩)

lemma Automaton.Rearranges.exists_left (h : m.Rearranges m') :
    ∀ t' ∈ m'.transitions, ∃ t ∈ m.transitions, t.Rearranges t' := by
  obtain ⟨ts, hperm, hall⟩ := h.transitions
  intro t' ht'
  obtain ⟨t, ht, hrearranges⟩ := exists_of_forall₂ hall.flip t' ht'
  exact ⟨t, hperm.mem_iff.2 ht, hrearranges⟩

lemma Automaton.Rearranges.exists_right (h : m.Rearranges m') :
    ∀ t ∈ m.transitions, ∃ t' ∈ m'.transitions, t.Rearranges t' := by
  obtain ⟨ts, hperm, hall⟩ := h.transitions
  intro t ht
  exact exists_of_forall₂ hall t (hperm.mem_iff.1 ht)

lemma Automaton.Rearranges.within (h : m.Rearranges m') : m.Within m' where
  alphabet := h.alphabet.subset
  transitions t ht := by
    obtain ⟨t', ht', hrearranges⟩ := h.exists_right t ht
    exact ⟨t', ht', hrearranges.source_eq, hrearranges.symbol_eq, hrearranges.targets.subset,
      hrearranges.targets.length_eq.le⟩

lemma Automaton.Rearranges.within_symm (h : m.Rearranges m') : m'.Within m where
  alphabet := h.alphabet.symm.subset
  transitions t' ht' := by
    obtain ⟨t, ht, hrearranges⟩ := h.exists_left t' ht'
    exact ⟨t, ht, hrearranges.source_eq.symm, hrearranges.symbol_eq.symm,
      hrearranges.targets.symm.subset, hrearranges.targets.length_eq.ge⟩

lemma Automaton.Rearranges.classify_eq (h : m.Rearranges m') : m'.classify = m.classify := by
  cases hd : m.classify with
  | nonDeterministic => exact h.within.nonDeterministic hd
  | deterministic => exact h.within_symm.deterministic hd

lemma Automaton.Rearranges.morphism (h : m.Rearranges m') : Morphism id m m' := by
  apply h.within.morphism h.initial.subset _ h.accepting.subset
  intro hd'
  exact h.first (h.classify_eq ▸ hd')

lemma Automaton.Rearranges.morphism_symm (h : m.Rearranges m') : Morphism id m' m := by
  apply h.within_symm.morphism h.initial.symm.subset _ h.accepting.symm.subset
  intro hd
  exact (h.first hd).symm

lemma map_key_eq_of_forall₂ {ts ts' : List Transition}
    (h : List.Forall₂ Transition.Rearranges ts ts') :
    ts.map (fun t => (t.source, t.symbol)) = ts'.map fun t => (t.source, t.symbol) := by
  induction h with
  | nil => rfl
  | cons hrearranges _ ih =>
    rw [List.map_cons, List.map_cons, ih, hrearranges.source_eq, hrearranges.symbol_eq]

/-- Sources and symbols are the same ones in another order. -/
lemma Automaton.Rearranges.perm_keys (h : m.Rearranges m') :
    (m.transitions.map fun t => (t.source, t.symbol)).Perm
      (m'.transitions.map fun t => (t.source, t.symbol)) := by
  obtain ⟨ts, hperm, hall⟩ := h.transitions
  rw [← map_key_eq_of_forall₂ hall]
  exact hperm.map _

lemma Automaton.Rearranges.wellFormed (h : m.Rearranges m') (hm : m.WellFormed) :
    m'.WellFormed where
  states_ne_nil he := by
    have hperm := h.states
    rw [he] at hperm
    exact hm.states_ne_nil hperm.eq_nil
  nodup_states := h.states.nodup_iff.1 hm.nodup_states
  initial_ne_nil he := by
    have hperm := h.initial
    rw [he] at hperm
    exact hm.initial_ne_nil hperm.eq_nil
  initial_subset _ hq := h.states.subset (hm.initial_subset (h.initial.symm.subset hq))
  accepting_subset _ hq := h.states.subset (hm.accepting_subset (h.accepting.symm.subset hq))
  source_mem t' ht' := by
    obtain ⟨t, ht, hrearranges⟩ := h.exists_left t' ht'
    rw [hrearranges.source_eq]
    exact h.states.subset (hm.source_mem t ht)
  targets_subset t' ht' := by
    obtain ⟨t, ht, hrearranges⟩ := h.exists_left t' ht'
    intro q hq
    exact h.states.subset (hm.targets_subset t ht (hrearranges.targets.symm.subset hq))
  symbol_mem t' ht' := by
    obtain ⟨t, ht, hrearranges⟩ := h.exists_left t' ht'
    rw [hrearranges.symbol_eq]
    exact (hm.symbol_mem t ht).imp_right fun hmem => h.alphabet.subset hmem
  targets_ne_nil t' ht' he := by
    obtain ⟨t, ht, hrearranges⟩ := h.exists_left t' ht'
    have hperm := hrearranges.targets
    rw [he] at hperm
    exact hm.targets_ne_nil t ht hperm.eq_nil
  nodup_targets t' ht' := by
    obtain ⟨t, ht, hrearranges⟩ := h.exists_left t' ht'
    exact hrearranges.targets.nodup_iff.1 (hm.nodup_targets t ht)
  nodup_keys := h.perm_keys.nodup_iff.1 hm.nodup_keys

/-! ### Renaming -/

/-- `t` with other labels. -/
def Transition.rename (f : String → String) (t : Transition) : Transition :=
  ⟨f t.source, t.symbol, t.targets.map f⟩

/-- `m` with the label `f q` for the state `q`, wherever it occurs. -/
def Automaton.rename (f : String → String) (m : Automaton) : Automaton :=
  ⟨m.states.map f, m.initial.map f, m.accepting.map f, m.alphabet,
    m.transitions.map (Transition.rename f)⟩

/-- The class does not depend on the labels. -/
lemma Automaton.classify_rename (f : String → String) (m : Automaton) :
    (m.rename f).classify = m.classify := by
  have hbranching : (m.rename f).hasBranching = m.hasBranching := by
    rw [Bool.eq_iff_iff, hasBranching_iff, hasBranching_iff]
    simp [rename, Transition.rename]
  have hepsilon : (m.rename f).hasEpsilon = m.hasEpsilon := by
    rw [Bool.eq_iff_iff, hasEpsilon_iff, hasEpsilon_iff]
    simp [rename, Transition.rename]
  rw [classify, hbranching, hepsilon, classify]

lemma Automaton.starts_rename (f : String → String) (m : Automaton) :
    (m.rename f).starts = m.starts.map f := by
  rw [starts, classify_rename, starts]
  cases m.classify with
  | deterministic => exact List.map_take.symm
  | nonDeterministic => rfl

lemma Automaton.HasEdge.rename (f : String → String) (h : m.HasEdge p x q) :
    (m.rename f).HasEdge (f p) x (f q) := by
  obtain ⟨t, ht, rfl, hx, hq⟩ := h
  exact ⟨t.rename f, List.mem_map_of_mem ht, rfl, hx, List.mem_map_of_mem hq⟩

lemma Automaton.morphism_rename (f : String → String) (m : Automaton) :
    Morphism f m (m.rename f) where
  starts p hp := by
    rw [starts_rename]
    exact List.mem_map_of_mem hp
  hasEdge _ _ _ hedge := hedge.rename f
  accepting q hq := List.mem_map_of_mem hq

lemma map_map_of_subset {l k : List String} (hl : l ⊆ k) (hgf : ∀ q ∈ k, g (f q) = q) :
    (l.map f).map g = l := by
  rw [List.map_map]
  exact (List.map_congr_left fun q hq => hgf q (hl hq)).trans (List.map_id l)

/-- What is renamed can be renamed back. -/
lemma Automaton.rename_rename (hm : m.Sound) (hgf : ∀ q ∈ m.states, g (f q) = q) :
    (m.rename f).rename g = m := by
  have transition : ∀ t ∈ m.transitions, (t.rename f).rename g = t := by
    intro t ht
    simp only [Transition.rename, hgf _ (hm.source_mem t ht),
      map_map_of_subset (hm.targets_subset t ht) hgf]
  have transitions : (m.transitions.map (Transition.rename f)).map (Transition.rename g) =
      m.transitions := by
    rw [List.map_map]
    exact (List.map_congr_left transition).trans (List.map_id _)
  simp only [rename, map_map_of_subset (List.Subset.refl _) hgf,
    map_map_of_subset hm.initial_subset hgf, map_map_of_subset hm.accepting_subset hgf,
    transitions]

/-- Different labels keep an automaton well formed. -/
lemma Automaton.WellFormed.rename (hm : m.WellFormed) (hf : Set.InjOn f {q | q ∈ m.states}) :
    (m.rename f).WellFormed where
  states_ne_nil he := hm.states_ne_nil (List.map_eq_nil_iff.1 he)
  nodup_states := hm.nodup_states.map_on fun p hp q hq => hf hp hq
  initial_ne_nil he := hm.initial_ne_nil (List.map_eq_nil_iff.1 he)
  initial_subset := List.map_subset f hm.initial_subset
  accepting_subset := List.map_subset f hm.accepting_subset
  source_mem t' ht' := by
    obtain ⟨t, ht, rfl⟩ := List.mem_map.1 ht'
    exact List.mem_map_of_mem (hm.source_mem t ht)
  targets_subset t' ht' := by
    obtain ⟨t, ht, rfl⟩ := List.mem_map.1 ht'
    exact List.map_subset f (hm.targets_subset t ht)
  symbol_mem t' ht' := by
    obtain ⟨t, ht, rfl⟩ := List.mem_map.1 ht'
    exact hm.symbol_mem t ht
  targets_ne_nil t' ht' he := by
    obtain ⟨t, ht, rfl⟩ := List.mem_map.1 ht'
    exact hm.targets_ne_nil t ht (List.map_eq_nil_iff.1 he)
  nodup_targets t' ht' := by
    obtain ⟨t, ht, rfl⟩ := List.mem_map.1 ht'
    have hsubset := hm.targets_subset t ht
    exact (hm.nodup_targets t ht).map_on fun p hp q hq => hf (hsubset hp) (hsubset hq)
  nodup_keys := by
    have hkeys : (m.rename f).transitions.map (fun t => (t.source, t.symbol)) =
        (m.transitions.map fun t => (t.source, t.symbol)).map (Prod.map f id) := by
      simp [Automaton.rename, Transition.rename, Function.comp_def]
    rw [hkeys]
    refine hm.nodup_keys.map_on ?_
    intro k hk k' hk' he
    obtain ⟨t, ht, rfl⟩ := List.mem_map.1 hk
    obtain ⟨t', ht', rfl⟩ := List.mem_map.1 hk'
    obtain ⟨hsource, hsymbol⟩ := Prod.mk.inj he
    exact Prod.ext (hf (hm.source_mem t ht) (hm.source_mem t' ht') hsource) hsymbol

/-! ### The same runs -/

lemma Automaton.Rearranges.runsAlike (h : m.Rearranges m') (hm : m.WellFormed) :
    RunsAlike id m m' := by
  have hsame := runsAlike_of_morphisms hm (h.wellFormed hm) h.classify_eq h.morphism
    h.morphism_symm fun _ _ => rfl
  have himage : StateSet.image id = id := funext StateSet.image_id
  rwa [himage] at hsame

lemma Automaton.runsAlike_rename (hm : m.WellFormed) (hf : Set.InjOn f {q | q ∈ m.states}) :
    RunsAlike (.image f) m (m.rename f) := by
  have hgf : ∀ q ∈ m.states, Function.invFunOn f {q | q ∈ m.states} (f q) = q :=
    fun q hq => hf.leftInvOn_invFunOn hq
  -- Of the inverse only this is used: it gives every state its old label back.
  generalize Function.invFunOn f {q | q ∈ m.states} = g at hgf
  have back : Morphism g (m.rename f) m := by
    have hmorphism := morphism_rename g (m.rename f)
    rwa [rename_rename hm.toSound hgf] at hmorphism
  refine runsAlike_of_morphisms hm (hm.rename hf) (m.classify_rename f) (morphism_rename f m) back ?_
  intro q hq
  obtain ⟨p, hp, rfl⟩ := List.mem_map.1 hq
  rw [hgf p hp]

/-- However an automaton that was read from a specification is rearranged, its class, its active sets
and its verdicts stay what they are. If its states are given other labels, a different one for each,
its active sets consist of the new labels, and its class and its verdicts stay. -/
theorem Automaton.presentation_irrelevant {text : String} (h : Specification.parse text = .ok m) :
    (∀ m', m.Rearranges m' → RunsAlike id m m') ∧
      ∀ f, Set.InjOn f {q | q ∈ m.states} → RunsAlike (.image f) m (m.rename f) := by
  have hm := Specification.wellFormed_of_parse h
  constructor
  · intro m' hrearranges
    exact hrearranges.runsAlike hm
  · intro f hf
    exact runsAlike_rename hm hf

/-- The automaton of one empty move and one `a`, from the last line to the first. -/
def Automaton.thenAEmpty : Automaton :=
  ⟨["s2", "s1", "s0"], ["s0"], ["s2"], ["a"], [⟨"s1", "a", ["s2"]⟩, ⟨"s0", "$", ["s1"]⟩]⟩

/-- The start and the accepting state of that automaton exchange their labels. -/
def exchanged (q : String) : String :=
  if q = "s0" then "s2" else if q = "s2" then "s0" else q

/-- That automaton has the same runs from the last line to the first, and with the two labels
exchanged. -/
theorem Automaton.presentation_irrelevant_emptyThenA :
    emptyThenA.Rearranges thenAEmpty ∧ RunsAlike id emptyThenA thenAEmpty ∧
      Set.InjOn exchanged {q | q ∈ emptyThenA.states} ∧
      RunsAlike (.image exchanged) emptyThenA (emptyThenA.rename exchanged) := by
  obtain ⟨hrearranged, hrenamed⟩ := presentation_irrelevant Specification.parse_emptyThenA
  have hrearranges : emptyThenA.Rearranges thenAEmpty :=
    { states := by decide
      initial := by decide
      first := by decide
      accepting := by decide
      alphabet := by decide
      transitions := ⟨thenAEmpty.transitions, by decide,
        .cons ⟨rfl, rfl, .refl _⟩ (.cons ⟨rfl, rfl, .refl _⟩ .nil)⟩ }
  have hinjective : Set.InjOn exchanged {q | q ∈ emptyThenA.states} := by
    have hall : ∀ p ∈ emptyThenA.states, ∀ q ∈ emptyThenA.states,
        exchanged p = exchanged q → p = q := by
      decide
    intro p hp q hq he
    exact hall p hp q hq he
  exact ⟨hrearranges, hrearranged _ hrearranges, hinjective, hrenamed _ hinjective⟩

end Automata
