import Automata.Proofs.Reports
import Automata.Proofs.RoundTrip
import Automata.Proofs.Spans

/-!
# The shape of syntax trees

The grammar leaves nodes of one kind at every place, so the syntax tree of a specification has one
shape: the five sections in their order and the end of the text, in the sections the entries of
their lines, in a transition its source, its label and its targets. The walk over the tree finds
each of them once and passes over the end of the text only. What it would do about a missing part is
never done, and of the failures two are never reported.
-/

namespace Automata.Specification

open Peg Grammar

variable {ρ : Type} {P : Node ρ → Prop} {c : Cursor} {xs : List Char} {ns : List (Node Rule)}
  {n line : Node Rule} {rule : Rule} {text : String}

/-! ### Shapes -/

/-- A token of a rule, with a label as its text. -/
def IsItem (rule : Rule) (n : Node Rule) : Prop :=
  ∃ span text, n = .token rule span text ∧ IsLabel text.toList

/-- A source, a label or nothing, and a list of targets. -/
def IsTransition (n : Node Rule) : Prop :=
  ∃ span source span' label span'' targets,
    n = .branch .transition span
        [source, .token .label span' label, .branch .targets span'' targets] ∧
      IsItem .source source ∧ (label = "" ∨ IsLabel label.toList) ∧
      targets ≠ [] ∧ ∀ t ∈ targets, IsItem .target t

/-- The lines of a section, all of one form. -/
def IsSection (rule : Rule) (IsLine : Node Rule → Prop) (n : Node Rule) : Prop :=
  ∃ span lines, n = .branch rule span lines ∧ ∀ line ∈ lines, IsLine line

/-- The five sections of a specification and the end of the text. -/
def IsSpecification (n : Node Rule) : Prop :=
  ∃ span states initial accepting alphabet transitions span',
    n = .branch .automaton span
        [states, initial, accepting, alphabet, transitions, .branch .eoi span' []] ∧
      IsSection .states (IsItem .state) states ∧ IsSection .initial (IsItem .state) initial ∧
      IsSection .accepting (IsItem .state) accepting ∧
      IsSection .alphabet (IsItem .symbol) alphabet ∧
      IsSection .transitions IsTransition transitions

/-! ### Nodes of one kind -/

namespace Peg

variable {p q : Peg ρ}

/-- All nodes that a match leaves are of the kind `P`. -/
def Yields (p : Peg ρ) (P : Node ρ → Prop) : Prop :=
  ∀ ⦃c : Cursor⦄ ⦃xs : List Char⦄ ⦃ns : List (Node ρ)⦄, p.Reads c xs ns → ∀ n ∈ ns, P n

lemma yields_of_silent (h : ∀ {c xs ns}, p.Reads c xs ns → ns = []) : p.Yields P := by
  intro c xs ns hr
  rw [h hr]
  exact List.forall_mem_nil P

lemma yields_exactly (zs : List Char) : (exactly zs).Yields P :=
  yields_of_silent fun h => ((reads_exactly_iff zs).1 h).2.1

lemma Yields.append (hp : p.Yields P) (hq : q.Yields P) : (p ++ q).Yields P := by
  intro c xs ns h
  obtain ⟨ys, ms, zs, ks, hms, hks, -, rfl⟩ := reads_append_iff.1 h
  exact List.forall_mem_append.2 ⟨hp hms, hq hks⟩

lemma Yields.choice (hp : p.Yields P) (hq : q.Yields P) : (choice p q).Yields P := by
  intro c xs ns h
  rcases reads_choice_iff.1 h with h | ⟨-, h⟩
  · exact hp h
  · exact hq h

lemma Yields.many (hp : p.Yields P) : (many p).Yields P := by
  intro c xs ns h
  refine h.many_cons_induction (motive := fun _ _ ns => ∀ n ∈ ns, P n) ?_ ?_
  · exact fun _ => List.forall_mem_nil P
  · exact fun c xs ns ys ms hns hms => List.forall_mem_append.2 ⟨hp hns, hms⟩

end Peg

/-! ### Lines and sections -/

namespace Grammar

variable {P : Node Rule → Prop} {line q : Peg Rule} {marker : String}

lemma yields_spaces : spaces.Yields P :=
  yields_of_silent fun h => (reads_spaces_iff.1 h).1

lemma yields_eol : eol.Yields P :=
  yields_of_silent fun h => (reads_eol_iff.1 h).1

lemma yields_blank : blank.Yields P :=
  yields_of_silent fun h => (reads_blank_iff.1 h).1

lemma exists_item (h : (token rule ident).Reads c xs ns) : ∃ n, ns = [n] ∧ IsItem rule n := by
  obtain ⟨hlabel, span, rfl⟩ := tokenIdent_sound h
  exact ⟨_, rfl, span, _, rfl, by simpa using hlabel⟩

lemma yields_item (rule : Rule) : (token rule ident).Yields (IsItem rule) := by
  intro c xs ns h
  obtain ⟨n, rfl, hn⟩ := exists_item h
  exact List.forall_mem_singleton.2 hn

/-- A line of one label. -/
lemma yields_labelLine (rule : Rule) : (spaces ++ (token rule ident ++ eol)).Yields (IsItem rule) :=
  yields_spaces.append ((yields_item rule).append yields_eol)

lemma exists_targets (h : targets.Reads c xs ns) :
    ∃ span ts, ns = [.branch .targets span ts] ∧ ts ≠ [] ∧ ∀ t ∈ ts, IsItem .target t := by
  have hmore : (many nextTarget).Yields (IsItem .target) := (yields_spaces.append
    ((yields_exactly _).append (yields_spaces.append (yields_item .target)))).many
  obtain ⟨_, hts, rfl⟩ := (reads_branch_iff _).1 h
  obtain ⟨_, _, _, ts, hfirst, hrest, -, rfl⟩ := reads_append_iff.1 hts
  obtain ⟨t, rfl, ht⟩ := exists_item hfirst
  exact ⟨_, t :: ts, rfl, List.cons_ne_nil t ts, List.forall_mem_cons.2 ⟨ht, hmore hrest⟩⟩

lemma yields_transition : transition.Yields IsTransition := by
  intro c xs ns h
  rw [transition_eq] at h
  obtain ⟨_, hparts, rfl⟩ := (reads_branch_iff _).1 h
  obtain ⟨_, _, _, _, _, _, _, -, -, -, hfirst, h₁, rfl⟩ := field_sound hparts
  obtain ⟨_, _, _, _, _, _, _, -, -, -, hsecond, h₂, rfl⟩ := field_sound h₁
  obtain ⟨_, _, _, _, hspaces, h₃, -, rfl⟩ := reads_append_iff.1 h₂
  obtain ⟨_, _, _, _, hthird, heol, -, rfl⟩ := reads_append_iff.1 h₃
  obtain ⟨rfl, -⟩ := reads_spaces_iff.1 hspaces
  obtain ⟨rfl, -⟩ := reads_eol_iff.1 heol
  obtain ⟨source, rfl, hsource⟩ := exists_item hfirst
  obtain ⟨hlabel, span', rfl⟩ := label_sound hsecond
  obtain ⟨span'', ts, rfl, hne, hts⟩ := exists_targets hthird
  refine List.forall_mem_singleton.2 ⟨_, source, span', _, span'', ts, rfl, hsource, ?_, hne, hts⟩
  rcases hlabel with hlabel | rfl
  · exact .inr (by simpa using hlabel)
  · exact .inl rfl

lemma exists_section (hline : line.Yields P)
    (h : (branch rule (lines marker line) ++ q).Reads c xs ns) :
    ∃ n d ys ks, ns = n :: ks ∧ IsSection rule P n ∧ q.Reads d ys ks := by
  have hlines : (lines marker line).Yields P :=
    (yields_exactly _).append (yields_eol.append (yields_blank.choice hline).many)
  obtain ⟨_, _, ys, ks, hsection, hq, -, rfl⟩ := reads_append_iff.1 h
  obtain ⟨ms, hms, rfl⟩ := (reads_branch_iff rule).1 hsection
  exact ⟨_, _, ys, ks, rfl, ⟨_, ms, rfl, hlines hms⟩, hq⟩

/-- A whole specification leaves one node, of the shape of specifications. -/
lemma exists_specification (h : automaton.Reads c xs ns) : ∃ n, ns = [n] ∧ IsSpecification n := by
  obtain ⟨_, hbody, rfl⟩ := (reads_branch_iff _).1 h
  obtain ⟨_, _, _, _, hblank, h₀, -, rfl⟩ := reads_append_iff.1 hbody
  obtain ⟨rfl, -⟩ := contentLines_of_reads_many_blank hblank
  obtain ⟨states, _, _, _, rfl, hstates, h₁⟩ := exists_section (yields_labelLine .state) h₀
  obtain ⟨initial, _, _, _, rfl, hinitial, h₂⟩ := exists_section (yields_labelLine .state) h₁
  obtain ⟨accepting, _, _, _, rfl, haccepting, h₃⟩ := exists_section (yields_labelLine .state) h₂
  obtain ⟨alphabet, _, _, _, rfl, halphabet, h₄⟩ := exists_section (yields_labelLine .symbol) h₃
  obtain ⟨transitions, _, _, _, rfl, htransitions, h₅⟩ := exists_section yields_transition h₄
  obtain ⟨-, span', rfl⟩ := contentLines_of_reads_end h₅
  exact ⟨_, rfl, _, states, initial, accepting, alphabet, transitions, span', rfl, hstates,
    hinitial, haccepting, halphabet, htransitions⟩

end Grammar

/-! ### The walk -/

/-- The walk over the sections passes over what is none of the five. -/
lemma forall_withSection_eq_iff :
    (∀ m, withSection m n = m) ↔
      n.rule ∉ [.states, .initial, .accepting, .alphabet, .transitions] := by
  constructor
  · intro h hrule
    -- An automaton with other entries in every section.
    have hother := h ⟨"" :: items n, "" :: items n, "" :: items n, "" :: items n,
      ⟨"", "", []⟩ :: n.children.map transitionOf⟩
    simp only [List.mem_cons, List.not_mem_nil, or_false] at hrule
    rcases hrule with hr | hr | hr | hr | hr <;> simp [withSection, hr] at hother
  · intro h m
    simp only [List.mem_cons, List.not_mem_nil, or_false, not_or] at h
    unfold withSection
    split <;> simp_all

lemma exists_withPart_ne (h : n.rule ∈ [.source, .label, .targets]) : ∃ t, withPart t n ≠ t := by
  -- A transition with other parts.
  refine ⟨⟨n.text ++ "x", symbolOf n.text ++ "x", "" :: items n⟩, fun heq => ?_⟩
  simp only [List.mem_cons, List.not_mem_nil, or_false] at h
  have hlonger : ∀ s : String, s ≠ s ++ "x" := fun s hs => by
    simpa using congrArg String.length hs
  rcases h with hr | hr | hr <;> simp [withPart, hr, hlonger] at heq

/-- A transition of which no part is missing. -/
structure IsFilled (t : Transition) : Prop where
  source : IsLabel t.source.toList
  symbol : IsLabel t.symbol.toList
  targets_ne_nil : t.targets ≠ []
  targets : ∀ q ∈ t.targets, IsLabel q.toList

namespace IsTransition

lemma exists_withPart_ne (h : IsTransition n) : ∀ k ∈ n.children, ∃ t, withPart t k ≠ t := by
  obtain ⟨_, _, _, _, _, _, rfl, ⟨_, _, rfl, -⟩, -⟩ := h
  simp only [Node.children, List.forall_mem_cons, List.not_mem_nil]
  refine ⟨?_, ?_, ?_, by simp⟩ <;> exact Specification.exists_withPart_ne (by simp [Node.rule])

/-- The source and the targets come from the line, and the symbol where there is one. -/
lemma isFilled (h : IsTransition n) : IsFilled (transitionOf n) := by
  obtain ⟨_, _, _, label, _, ts, rfl, ⟨_, p, rfl, hp⟩, hlabel, hne, hts⟩ := h
  refine ⟨hp, ?_, mt List.map_eq_nil_iff.1 hne, ?_⟩
  · show IsLabel (symbolOf label).toList
    rcases hlabel with rfl | hlabel
    · exact isLabel_epsilon
    · rwa [← String.ofList_toList (s := label), symbolOf_ofList hlabel, String.toList_ofList]
  · rintro q hq
    obtain ⟨t, ht, rfl⟩ := List.mem_map.1 hq
    obtain ⟨_, _, rfl, hlabel⟩ := hts t ht
    exact hlabel

end IsTransition

namespace IsSpecification

/-- The walk passes over the end of the text and nothing else. -/
lemma forall_withSection_eq_iff (h : IsSpecification n) :
    ∀ s ∈ n.children, (∀ m, withSection m s = m) ↔ s.rule = .eoi := by
  obtain ⟨_, _, _, _, _, _, _, rfl, ⟨_, _, rfl, -⟩, ⟨_, _, rfl, -⟩, ⟨_, _, rfl, -⟩, ⟨_, _, rfl, -⟩,
    ⟨_, _, rfl, -⟩⟩ := h
  simp [Specification.forall_withSection_eq_iff, Node.children, Node.rule]

lemma isTransition (h : IsSpecification n) : ∀ line ∈ transitionLines n, IsTransition line := by
  obtain ⟨_, _, _, _, _, _, _, rfl, ⟨_, _, rfl, -⟩, ⟨_, _, rfl, -⟩, ⟨_, _, rfl, -⟩, ⟨_, _, rfl, -⟩,
    ⟨_, _, rfl, hlines⟩⟩ := h
  simpa [transitionLines, Node.children, Node.rule] using hlines

end IsSpecification

/-! ### Failures -/

/-- A transition that is declared leads somewhere, so no failure says that one does not. -/
lemma Outcome.error_cases {e : Error} (h : Outcome text (.error e)) :
    (∃ d, e = .badText d) ∨ (∃ bytes, e = .oversized bytes) ∨
      ∃ d, e = .unsound d ∧ ∀ keys, d ≠ .missingTargets keys := by
  cases h with
  | oversized => exact .inr (.inl ⟨_, rfl⟩)
  | undeclared => exact .inl ⟨_, rfl⟩
  | repeated => exact .inl ⟨_, rfl⟩
  | @unsound m d _ hm _ hd =>
    refine .inr (.inr ⟨d, rfl, ?_⟩)
    rintro keys rfl
    obtain ⟨hne, hkeys⟩ := hd.1
    obtain ⟨n, hn, -, hlines⟩ := exists_nodesOf hm
    obtain ⟨xs, hread⟩ := (nodesOf_eq_ok_iff _ _ _).1 hn
    obtain ⟨n', heq, hshape⟩ := exists_specification hread
    obtain rfl := (List.cons.inj heq).1
    refine hne (hkeys.trans ?_)
    rw [List.map_eq_nil_iff, List.filter_eq_nil_iff, ← hlines]
    rintro _ ht
    obtain ⟨line, hline, rfl⟩ := List.mem_map.1 ht
    simpa using (hshape.isTransition line hline).isFilled.targets_ne_nil

/-- The messages of parsing differ from those of validation in their second word. -/
lemma message_badText_ne (d : Diagnostic) (s : String) :
    (Error.badText d).message ≠ "Specification validation error: " ++ s := by
  intro heq
  have hparsing : (Error.badText d).message.toList.take 15 = "Specification p".toList :=
    (take_toList_append (by decide) d.message).trans (by decide)
  rw [heq, take_toList_append (by decide) s] at hparsing
  revert hparsing
  decide

/-- A message about a defect begins with the headline of its rule. -/
lemma message_defect_ne {s : String} (hs : s.toList.take 17 ∉ Defect.headlines) (d : Defect) :
    d.message ≠ s := by
  rintro rfl
  exact hs (List.mem_of_getElem? d.getElem?_headlines)

lemma exists_message_oversized (bytes : Nat) :
    ∃ s, (Error.oversized bytes).message = "Specification validation error: " ++ s ∧
      s.toList.take 17 = "Specification is ".toList := by
  have hstart : "Specification validation error: Specification is " =
      "Specification validation error: " ++ "Specification is " := by decide
  refine ⟨"Specification is " ++ (toString bytes ++ (" bytes, the limit is " ++
    (toString maxSpecificationSize ++ " bytes"))), ?_, ?_⟩
  · show "Specification validation error: Specification is " ++ toString bytes ++
      " bytes, the limit is " ++ toString maxSpecificationSize ++ " bytes" = _
    simp only [hstart, String.append_assoc]
  · exact (take_toList_append (by decide) _).trans (by decide)

/-- No failure of reading says that the text is empty or that a transition leads nowhere. -/
lemma Outcome.message_ne {e : Error} (h : Outcome text (.error e)) :
    e.message ≠ Error.emptySpecification.message ∧
      ∀ keys, e.message ≠ (Error.unsound (.missingTargets keys)).message := by
  have behind : ∀ {s s' : String}, "Specification validation error: " ++ s =
      "Specification validation error: " ++ s' → s = s' := (String.append_right_inj _).1
  rcases h.error_cases with ⟨d, rfl⟩ | ⟨bytes, rfl⟩ | ⟨d, rfl, hd⟩
  · exact ⟨message_badText_ne d "Empty specification", fun keys => message_badText_ne d _⟩
  · obtain ⟨s, hs, hstart⟩ := exists_message_oversized bytes
    rw [hs]
    refine ⟨fun heq => ?_, fun keys heq => ?_⟩
    · have hempty : s = "Empty specification" := behind heq
      rw [hempty] at hstart
      revert hstart
      decide
    · exact message_defect_ne (hstart ▸ by decide) _ (behind heq).symm
  · refine ⟨fun heq => ?_, fun keys heq => hd keys (Error.message_unsound_inj.1 heq)⟩
    exact message_defect_ne (s := "Empty specification") (by decide) d (behind heq)

/-! ### The tree of a text -/

/-- The syntax tree of a text has the shape of specifications. Each span delimits the text of its
node and holds the spans of the parts, one behind the other. The walk over the sections passes over
the end of the text alone, takes in every part of a transition, and finds all parts that a transition
has. -/
structure IsSyntaxTree (text : List Char) (n : Node Rule) : Prop where
  shape : IsSpecification n
  nests : ∀ m, n.HasPart m → m.Nests
  delimits : ∀ m, n.HasPart m → ∃ xs, m.Delimits text xs
  passed_over_iff : ∀ s ∈ n.children, (∀ m, withSection m s = m) ↔ s.rule = .eoi
  taken_in : ∀ line ∈ transitionLines n, ∀ k ∈ line.children, ∃ t, withPart t k ≠ t
  filled : ∀ line ∈ transitionLines n, IsFilled (transitionOf line)

lemma isSyntaxTree {text : List Char} (h : automaton.Reads (.start text) xs ns) :
    ∃ n, ns = [n] ∧ IsSyntaxTree text n := by
  obtain ⟨n, rfl, hshape⟩ := exists_specification h
  exact ⟨n, rfl,
    { shape := hshape
      nests := fun m hm => (h.spans hm).1
      delimits := fun m hm => (h.spans hm).2
      passed_over_iff := hshape.forall_withSection_eq_iff
      taken_in := fun line hline => (hshape.isTransition line hline).exists_withPart_ne
      filled := fun line hline => (hshape.isTransition line hline).isFilled }⟩

/-- What the grammar matches has one syntax tree, which is as the walk over it takes it to be. So
reading a text fails in parsing or in validation only, and no failure says that the text is empty or
that a transition leads nowhere. -/
theorem syntaxTree_exact (text : String) :
    (∀ ns, nodesOf .automaton text.toList = .ok ns →
        ∃ n, ns = [n] ∧ IsSyntaxTree text.toList n) ∧
      ∀ e, parse text = .error e → (e.kind = .parsing ∨ e.kind = .validation) ∧
        e.message ≠ Error.emptySpecification.message ∧
        ∀ keys, e.message ≠ (Error.unsound (.missingTargets keys)).message := by
  constructor
  · intro ns h
    obtain ⟨xs, hread⟩ := (nodesOf_eq_ok_iff _ _ _).1 h
    exact isSyntaxTree hread
  · intro e he
    obtain ⟨r, hr⟩ := exists_outcome text
    obtain rfl := hr.parse_eq.symm.trans he
    refine ⟨?_, hr.message_ne⟩
    rcases hr.error_cases with ⟨d, rfl⟩ | ⟨bytes, rfl⟩ | ⟨d, rfl, -⟩
    · exact .inl rfl
    · exact .inr rfl
    · exact .inr rfl

/-- A specification without an initial state, in which a state has an empty move to itself. -/
def aimlessLoop : String :=
  "#states\ns\n#initial\n#accepting\n#alphabet\n#transitions\ns:>s"

/-- Its tree: the label has no width, the end of the text no parts. -/
def aimlessLoopTree : Node Rule :=
  .branch .automaton ⟨0, 57⟩
    [.branch .states ⟨0, 10⟩ [.token .state ⟨8, 9⟩ "s"],
      .branch .initial ⟨10, 19⟩ [],
      .branch .accepting ⟨19, 30⟩ [],
      .branch .alphabet ⟨30, 40⟩ [],
      .branch .transitions ⟨40, 57⟩
        [.branch .transition ⟨53, 57⟩
          [.token .source ⟨53, 54⟩ "s", .token .label ⟨55, 55⟩ "",
            .branch .targets ⟨56, 57⟩ [.token .target ⟨56, 57⟩ "s"]]],
      .branch .eoi ⟨57, 57⟩ []]

/-- The tree is that of a specification although the automaton is not sound. -/
theorem syntaxTree_aimlessLoop :
    nodesOf .automaton aimlessLoop.toList = .ok [aimlessLoopTree] ∧
      IsSyntaxTree aimlessLoop.toList aimlessLoopTree ∧
      parse aimlessLoop = .error (.unsound .noInitialState) ∧
      (Error.unsound .noInitialState).kind = .validation := by
  have hnodes : nodesOf .automaton aimlessLoop.toList = .ok [aimlessLoopTree] := by cbv
  have hparse : parse aimlessLoop = .error (.unsound .noInitialState) := by cbv
  obtain ⟨n, heq, htree⟩ := (syntaxTree_exact aimlessLoop).1 _ hnodes
  obtain rfl := (List.cons.inj heq).1
  refine ⟨hnodes, htree, hparse, ?_⟩
  exact ((syntaxTree_exact aimlessLoop).2 _ hparse).1.resolve_left (by decide)

end Automata.Specification
