import Automata.Proofs.Drawing
import Automata.Proofs.Quoting
import Automata.Proofs.WrittenSize

/-!
# Drawings can be read back

Between quotation marks a label is written so that its end is seen, whatever characters it has. So the
statements of a drawing are told apart, and their labels too, as long as no symbol has a comma. The
symbols of a specification have none.
-/

namespace Automata

open Text (PrefixCode flatMap_append_inj)

namespace Dot

variable {s s' : Statement} {ss ss' : List Statement} {l l' : String} {xs xs' : List String}
  {r r' : List Char}

/-! ### Labels -/

/-- How a character is written between quotation marks. -/
def escape (c : Char) : List Char :=
  if c = '\\' then ['\\', '\\'] else if c = '"' then ['\\', '"'] else [c]

/-- A backslash comes before every character that could be mistaken. -/
theorem prefixCode_escape : PrefixCode escape where
  inj := by
    intro c c' r r' h
    rw [escape, escape] at h
    split_ifs at h <;> simp_all [eq_comm]
  ne_quote := by
    intro c r r' h
    rw [escape] at h
    split_ifs at h <;> simp_all

lemma toList_quote (l : String) :
    (quote l).toList = '"' :: (l.toList.flatMap escape ++ ['"']) := by
  simp only [quote, String.toList_ofList]
  rfl

/-- What stands behind a label is no part of it, and what stands between its marks is. -/
lemma quote_append_inj (h : (quote l).toList ++ r = (quote l').toList ++ r') :
    l = l' ∧ r = r' := by
  rw [toList_quote, toList_quote] at h
  exact prefixCode_escape.quote_append_inj h

/-- So is a label that stands between equal texts and other ones. -/
lemma append_quote_inj {front t t' : String}
    (h : (front ++ (quote l ++ t)).toList ++ r = (front ++ (quote l' ++ t')).toList ++ r') :
    l = l' ∧ t.toList ++ r = t'.toList ++ r' := by
  simp only [String.toList_append, List.append_assoc, List.append_cancel_left_eq] at h
  exact quote_append_inj h

/-- Symbols without commas are told apart when they are joined by commas. -/
lemma intercalate_comma_inj (hne : xs ≠ []) (hne' : xs' ≠ []) (hxs : ∀ x ∈ xs, ',' ∉ x.toList)
    (hxs' : ∀ x ∈ xs', ',' ∉ x.toList) (h : ",".intercalate xs = ",".intercalate xs') :
    xs = xs' := by
  have split : ∀ {xs : List String}, xs ≠ [] → (∀ x ∈ xs, ',' ∉ x.toList) →
      (",".intercalate xs).toList.splitOn ',' = xs.map String.toList := by
    intro xs hne hxs
    rw [String.toList_intercalate]
    exact List.splitOn_intercalate ',' (by simpa using hxs) (by simpa using hne)
  have hlists := split hne hxs
  rw [h, split hne' hxs'] at hlists
  exact (List.map_injective_iff.2 (fun _ _ => String.toList_injective) hlists).symm

/-! ### Statements -/

/-- The symbols of a statement can be read back: there are some, and they have no commas. -/
def Statement.Legible : Statement → Prop
  | .edges _ _ symbols => symbols ≠ [] ∧ ∀ x ∈ symbols, ',' ∉ x.toList
  | _ => True

/-- The label that a statement begins with. -/
def Statement.subject : Statement → String
  | .vertex label _ => label
  | .edges source _ _ => source
  | .entryPoint => ""
  | .entry _ => ""

/-- What is written behind that label. -/
def Statement.predicate : Statement → String
  | .vertex _ accepting =>
    " [shape=circle" ++ ((if accepting then ", peripheries=2" else "") ++ "];\n")
  | .edges _ destination symbols =>
    " -> " ++ (quote destination ++ (" [label=" ++ (quote (",".intercalate symbols) ++ "];\n")))
  | .entryPoint => " [shape=none];\n"
  | .entry destination => " -> " ++ (quote destination ++ " [dir=forward, arrowhead=normal];\n")

lemma Statement.render_eq (s : Statement) : s.render = "  " ++ (quote s.subject ++ s.predicate) := by
  cases s with
  | entryPoint => decide
  | entry destination =>
    have hempty : quote "" = "\"\"" := by decide
    simp [render, subject, predicate, hempty, ← String.append_assoc]
  | _ => simp only [render, subject, predicate, String.append_assoc]

/-- Two statements that begin with one label are told apart by what is written behind it. -/
lemma Statement.predicate_append_inj (hs : s.Legible) (hs' : s'.Legible)
    (hsubject : s.subject = s'.subject) (h : s.predicate.toList ++ r = s'.predicate.toList ++ r') :
    s = s' ∧ r = r' := by
  cases s with
  | vertex label accepting =>
    cases s' with
    | vertex label' accepting' =>
      obtain rfl : label = label' := hsubject
      cases accepting <;> cases accepting' <;> simp [predicate] at h ⊢ <;> exact h
    | _ => simp [predicate] at h
  | edges source destination symbols =>
    cases s' with
    | edges source' destination' symbols' =>
      obtain rfl : source = source' := hsubject
      obtain ⟨hdestination, hlabel⟩ := append_quote_inj h
      obtain ⟨hsymbols, hend⟩ := append_quote_inj hlabel
      rw [hdestination, intercalate_comma_inj hs.1 hs'.1 hs.2 hs'.2 hsymbols]
      exact ⟨rfl, List.append_cancel_left hend⟩
    | entry destination' =>
      obtain ⟨-, hlabel⟩ := append_quote_inj h
      simp at hlabel
    | _ => simp [predicate] at h
  | entryPoint =>
    cases s' with
    | entryPoint => exact ⟨rfl, List.append_cancel_left h⟩
    | _ => simp [predicate] at h
  | entry destination =>
    cases s' with
    | edges source' destination' symbols' =>
      obtain ⟨-, hlabel⟩ := append_quote_inj h
      simp at hlabel
    | entry destination' =>
      obtain ⟨hdestination, hend⟩ := append_quote_inj h
      rw [hdestination]
      exact ⟨rfl, List.append_cancel_left hend⟩
    | _ => simp [predicate] at h

lemma Statement.render_append_inj (hs : s.Legible) (hs' : s'.Legible)
    (h : s.render.toList ++ r = s'.render.toList ++ r') : s = s' ∧ r = r' := by
  rw [render_eq, render_eq] at h
  obtain ⟨hsubject, hpredicate⟩ := append_quote_inj h
  exact predicate_append_inj hs hs' hsubject hpredicate

/-- A statement is not the end of a drawing. -/
lemma Statement.render_append_ne (s : Statement) : s.render.toList ++ r ≠ '\x7d' :: r' := by
  rw [render_eq]
  simp

/-- The text of legible statements, up to the closing bracket, is that of no other ones. -/
theorem statements_inj (hss : ∀ s ∈ ss, s.Legible) (hss' : ∀ s ∈ ss', s.Legible)
    (h : "digraph G \x7b\n" ++ String.join (ss.map (·.render)) ++ "\x7d" =
      "digraph G \x7b\n" ++ String.join (ss'.map (·.render)) ++ "\x7d") : ss = ss' := by
  have htext := congrArg String.toList h
  simp only [String.toList_append, String.toList_join, List.flatMap_map, List.append_assoc,
    List.append_cancel_left_eq] at htext
  exact (flatMap_append_inj (fun hs hs' => Statement.render_append_inj hs hs')
    (fun _ => Statement.render_append_ne _) hss hss' htext).1

/-! ### From statements to automata -/

variable {m m' : Automaton} {p q x : String}

/-- The vertex that a statement is for. -/
def Statement.vertex? : Statement → Option (String × Bool)
  | .vertex label accepting => some (label, accepting)
  | _ => none

lemma filterMap_vertex?_statements (m : Automaton) :
    (statements m.simulator).filterMap Statement.vertex? =
      (Graph.ofAutomaton m).vertices.map fun v => (v, m.isAccepting v) := by
  have hentry : (entryStatements m.initial).filterMap Statement.vertex? = [] := by
    cases m.initial <;> rfl
  rw [statements_simulator, List.filterMap_append, List.filterMap_append, hentry, List.append_nil,
    List.filterMap_map, List.filterMap_map]
  refine (congrArg₂ HAppend.hAppend ?vertices ?pairs).trans (List.append_nil _)
  case vertices => exact congrFun List.filterMap_eq_map _
  case pairs => exact List.filterMap_eq_nil_iff.2 fun _ _ => rfl

lemma edges_mem_statements : .edges p q xs ∈ statements m.simulator ↔
    m.Joins p q ∧ xs = m.symbolsBetween p q := by
  have hentry : .edges p q xs ∉ entryStatements m.initial := by
    cases m.initial <;> simp [entryStatements]
  simp only [statements_simulator, List.mem_append, List.mem_map, hentry, or_false, Prod.exists,
    Statement.edges.injEq, reduceCtorEq, and_false, exists_false, false_or]
  constructor
  · rintro ⟨p, q, hmem, rfl, rfl, rfl⟩
    exact ⟨Automaton.mem_pairs.1 hmem, rfl⟩
  · rintro ⟨hjoins, rfl⟩
    exact ⟨p, q, Automaton.mem_pairs.2 hjoins, rfl, rfl, rfl⟩

lemma entry_mem_statements : .entry q ∈ statements m.simulator ↔ m.initial.head? = some q := by
  simp only [statements_simulator, List.mem_append, List.mem_map, reduceCtorEq, and_false,
    exists_false, false_or]
  cases m.initial <;> simp [entryStatements, eq_comm]

lemma hasEdge_iff_statements :
    m.HasEdge p x q ↔ ∃ xs, .edges p q xs ∈ statements m.simulator ∧ x ∈ xs := by
  simp only [edges_mem_statements]
  constructor
  · exact fun h => ⟨_, ⟨⟨x, h⟩, rfl⟩, Automaton.mem_symbolsBetween.2 h⟩
  · rintro ⟨_, ⟨-, rfl⟩, hx⟩
    exact Automaton.mem_symbolsBetween.1 hx

/-- What is drawn of an automaton can be said of its statements. -/
theorem drawn_eq_of_statements_eq (h : statements m.simulator = statements m'.simulator) :
    (Graph.ofAutomaton m).vertices = (Graph.ofAutomaton m').vertices ∧
      (∀ v ∈ (Graph.ofAutomaton m).vertices, m.isAccepting v = m'.isAccepting v) ∧
      m.initial.head? = m'.initial.head? ∧ ∀ p x q, m.HasEdge p x q ↔ m'.HasEdge p x q := by
  have hvertices := congrArg (List.filterMap Statement.vertex?) h
  rw [filterMap_vertex?_statements, filterMap_vertex?_statements] at hvertices
  have hlabels : (Graph.ofAutomaton m).vertices = (Graph.ofAutomaton m').vertices := by
    simpa [Function.comp_def] using congrArg (List.map Prod.fst) hvertices
  refine ⟨hlabels, fun v hv => ?_, Option.ext fun q => ?_, fun p x q => ?_⟩
  · rw [← hlabels] at hvertices
    exact (Prod.mk.inj (List.map_inj_left.1 hvertices v hv)).2
  · rw [← entry_mem_statements, ← entry_mem_statements, h]
  · rw [hasEdge_iff_statements, hasEdge_iff_statements, h]

/-- All statements are legible if the symbols have no commas. -/
lemma legible_of_mem_statements (hm : ∀ t ∈ m.transitions, ',' ∉ t.symbol.toList) :
    ∀ s ∈ statements m.simulator, s.Legible := by
  intro s hs
  cases s with
  | edges p q symbols =>
    obtain ⟨⟨x, hx⟩, rfl⟩ := edges_mem_statements.1 hs
    refine ⟨List.ne_nil_of_mem (Automaton.mem_symbolsBetween.2 hx), fun y hy => ?_⟩
    obtain ⟨t, ht, -, rfl, -⟩ := Automaton.mem_symbolsBetween.1 hy
    exact hm t ht
  | _ => trivial

end Dot

/-! ### Drawings of specifications -/

variable {m₁ m₂ : Automaton}

/-- The vertices of a well-formed automaton are its states. -/
lemma Graph.vertices_ofAutomaton_of_wellFormed {m : Automaton} (hm : m.WellFormed) :
    (ofAutomaton m).vertices = m.states := by
  have hsources : m.sources.filter (· ∉ m.states) = [] := by
    refine List.filter_eq_nil_iff.2 fun p hp => ?_
    obtain ⟨t, ht, rfl⟩ := List.mem_map.1 hp
    simpa using hm.source_mem t (List.mem_of_mem_filter ht)
  rw [vertices_ofAutomaton, hsources, eraseDups_of_nodup hm.nodup_states, List.eraseDups_nil,
    List.append_nil]

/-- The symbols of a specification have no commas. -/
lemma Specification.comma_not_mem_symbol {text : String} {m : Automaton} (h : parse text = .ok m) :
    ∀ t ∈ m.transitions, ',' ∉ t.symbol.toList := by
  obtain ⟨-, hread, hs⟩ := (parse_eq_ok_iff _ _).1 h
  have hlabels := ((read_eq_ok_iff _ _).1 hread).1.isLabelled
  intro t ht
  have hlabel : IsLabel t.symbol.toList := by
    rcases hs.symbol_mem t ht with hx | hx
    · rw [hx]
      exact isLabel_epsilon
    · exact hlabels.alphabet _ hx
  exact fun hcomma => hlabel.not_separator ',' hcomma (by decide)

/-- Two specified automata can be drawn, and if the texts of their drawings are the same, they are made
of the same statements: so the automata have the same list of states, the same accepting states, the
same first initial state and the same edges. Whatever a label is, where its quoted form ends is seen in
any text, and so is the label. -/
theorem Automaton.toDot_unambiguous {text₁ text₂ : String}
    (h₁ : Specification.parse text₁ = .ok m₁) (h₂ : Specification.parse text₂ = .ok m₂) :
    (∃ d₁ d₂, m₁.toDot = .ok d₁ ∧ m₂.toDot = .ok d₂ ∧ (d₁ = d₂ →
      Dot.statements m₁.simulator = Dot.statements m₂.simulator ∧
      m₁.states = m₂.states ∧ (∀ q, q ∈ m₁.accepting ↔ q ∈ m₂.accepting) ∧
      m₁.initial.head? = m₂.initial.head? ∧ ∀ p x q, m₁.HasEdge p x q ↔ m₂.HasEdge p x q)) ∧
    ∀ label label' rest rest' : String, Dot.quote label ++ rest = Dot.quote label' ++ rest' →
      label = label' ∧ rest = rest' := by
  have hm₁ := Specification.wellFormed_of_parse h₁
  have hm₂ := Specification.wellFormed_of_parse h₂
  refine ⟨⟨_, _, toDot_eq hm₁.initial_ne_nil, toDot_eq hm₂.initial_ne_nil, fun heq => ?_⟩,
    fun label label' rest rest' heq => ?_⟩
  · have hstatements := Dot.statements_inj
      (Dot.legible_of_mem_statements (Specification.comma_not_mem_symbol h₁))
      (Dot.legible_of_mem_statements (Specification.comma_not_mem_symbol h₂)) heq
    obtain ⟨hvertices, haccepting, hinitial, hedges⟩ := Dot.drawn_eq_of_statements_eq hstatements
    rw [Graph.vertices_ofAutomaton_of_wellFormed hm₁,
      Graph.vertices_ofAutomaton_of_wellFormed hm₂] at hvertices
    rw [Graph.vertices_ofAutomaton_of_wellFormed hm₁] at haccepting
    refine ⟨hstatements, hvertices, fun q => ?_, hinitial, hedges⟩
    have hiff : q ∈ m₁.states → (q ∈ m₁.accepting ↔ q ∈ m₂.accepting) := fun hq => by
      rw [← List.contains_iff_mem, ← List.contains_iff_mem]
      exact Bool.eq_iff_iff.1 (haccepting q hq)
    exact ⟨fun hq => (hiff (hm₁.accepting_subset hq)).1 hq,
      fun hq => (hiff (hvertices ▸ hm₂.accepting_subset hq)).2 hq⟩
  · have htext := congrArg String.toList heq
    rw [String.toList_append, String.toList_append] at htext
    obtain ⟨rfl, hrest⟩ := Dot.quote_append_inj htext
    exact ⟨rfl, String.toList_inj.1 hrest⟩

/-- Labels with the marks of a drawing: a quotation mark, a backslash, the end of a statement. -/
def Automaton.markedLabels : Automaton :=
  ⟨["a\"", "\\", "];"], ["a\""], ["\\"], ["\"", "\\\""],
    [⟨"a\"", "\"", ["\\", "];"]⟩, ⟨"\\", "\\\"", ["a\""]⟩]⟩

/-- The same lines in another order, with one more initial state and one more symbol. -/
def Automaton.markedLabelsReordered : Automaton :=
  ⟨["a\"", "\\", "];"], ["a\"", "\\"], ["\\", "\\"], ["\"", "\\\"", "z"],
    [⟨"\\", "\\\"", ["a\""]⟩, ⟨"a\"", "\"", ["\\", "];"]⟩]⟩

/-- The two have one drawing, so they have the same edges. -/
theorem Automaton.toDot_unambiguous_markedLabels :
    ∃ d, markedLabels.toDot = .ok d ∧ markedLabelsReordered.toDot = .ok d ∧
      ∀ p x q, markedLabels.HasEdge p x q ↔ markedLabelsReordered.HasEdge p x q := by
  have h₁ : Specification.parse ("#states\na\"\n\\\n];\n#initial\na\"\n#accepting\n\\\n" ++
      "#alphabet\n\"\n\\\"\n#transitions\na\":\">\\,];\n\\:\\\">a\"") = .ok markedLabels := by
    cbv
  have h₂ : Specification.parse ("#states\na\"\n\\\n];\n#initial\na\"\n\\\n#accepting\n\\\n\\\n" ++
      "#alphabet\n\"\n\\\"\nz\n#transitions\n\\:\\\">a\"\na\":\">\\,];") =
      .ok markedLabelsReordered := by
    cbv
  obtain ⟨⟨d₁, d₂, hd₁, hd₂, hsame⟩, -⟩ := toDot_unambiguous h₁ h₂
  have hdrawing : Dot.render markedLabels.simulator = Dot.render markedLabelsReordered.simulator := by
    decide +kernel
  have heq : d₁ = d₂ := by
    rw [toDot_eq (by decide)] at hd₁ hd₂
    rw [← Except.ok.inj hd₁, ← Except.ok.inj hd₂, hdrawing]
  obtain ⟨-, -, -, -, hedges⟩ := hsame heq
  exact ⟨d₁, hd₁, heq ▸ hd₂, hedges⟩

end Automata
