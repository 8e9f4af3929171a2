import Automata.Proofs.Defects
import Automata.Proofs.Recognition

/-!
# What becomes of a text

Reading a text has five outcomes, and the first condition that holds decides: the text is too long,
its lines declare no automaton, a transition repeats the source and symbol of an earlier one, the
automaton has a defect, or all is well. `Specification.Outcome` says this of the lines of the text,
and what it says is what reading does.
-/

namespace Automata.Specification

open Peg Grammar

variable {text : List Char} {m : Automaton} {ns : List (Node Rule)} {t : Transition}
  {before after : List Transition}

/-! ### Outcomes -/

/-- The nodes of the transition lines of a text, in their order. -/
def transitionNodes (text : List Char) : List (Node Rule) :=
  match nodesOf .automaton text with
  | .ok (n :: _) => transitionLines n
  | _ => []

/-- `t` is the first transition with the source and symbol of an earlier one: those before it differ
from each other, and one of them has its source and symbol. -/
def FirstRepetition (before : List Transition) (t : Transition) : Prop :=
  (before.map fun t => (t.source, t.symbol)).Nodup ∧
    ∃ t' ∈ before, t'.source = t.source ∧ t'.symbol = t.symbol

/-- What becomes of a text. -/
inductive Outcome (text : String) : Except Error Automaton → Prop
  /-- The text is too long, whatever it says. -/
  | oversized (hsize : maxSpecificationSize < text.utf8ByteSize) :
      Outcome text (.error (.oversized text.utf8ByteSize))
  /-- The lines of the text declare no automaton. -/
  | undeclared (hsize : text.utf8ByteSize ≤ maxSpecificationSize)
      (hno : ∀ m, ¬ Declares (contentLines text.toList) m) :
      Outcome text (.error (.badText
        (.ofAttempts text.toList (automaton.readText text.toList).attempts)))
  /-- A line has the source and symbol of an earlier one, whatever else is wrong. -/
  | repeated {m : Automaton} {before after : List Transition} {t : Transition} {line : Node Rule}
      (hsize : text.utf8ByteSize ≤ maxSpecificationSize)
      (hm : Declares (contentLines text.toList) m) (hts : m.transitions = before ++ t :: after)
      (ht : FirstRepetition before t)
      (hline : (transitionNodes text.toList)[before.length]? = some line) :
      Outcome text (.error (.badText (.ofDuplicate text.toList line.span t.source t.symbol)))
  /-- The automaton that the lines declare has a defect. -/
  | unsound {m : Automaton} {d : Defect} (hsize : text.utf8ByteSize ≤ maxSpecificationSize)
      (hm : Declares (contentLines text.toList) m)
      (hkeys : (m.transitions.map fun t => (t.source, t.symbol)).Nodup) (hd : m.FirstDefect d) :
      Outcome text (.error (.unsound d))
  /-- The lines declare an automaton, and nothing is wrong with it. -/
  | sound {m : Automaton} (hsize : text.utf8ByteSize ≤ maxSpecificationSize)
      (hm : Declares (contentLines text.toList) m) (hw : m.WellFormed) : Outcome text (.ok m)

/-! ### Syntax trees and declarations -/

/-- A text with a syntax tree declares the automaton of the tree, line by line. -/
lemma declares_of_nodesOf (h : nodesOf .automaton text = .ok ns) :
    ∃ n, ns = [n] ∧ Declares (contentLines text) (automatonOf n) ∧
      (transitionLines n).map transitionOf = (automatonOf n).transitions := by
  obtain ⟨xs, hxs⟩ := (nodesOf_eq_ok_iff _ _ _).1 h
  obtain ⟨_, _, _, _, _, _, _, _, _, _, _, ms₅, rfl, hdeclares⟩ := automaton_tree hxs
  refine ⟨_, rfl, hdeclares, ?_⟩
  simp [transitionLines, automatonOf, withSection, Node.children, Node.rule]

/-- The syntax tree of a text that declares `m`. -/
lemma exists_nodesOf (h : Declares (contentLines text) m) :
    ∃ n, nodesOf .automaton text = .ok [n] ∧ automatonOf n = m ∧
      (transitionLines n).map transitionOf = m.transitions := by
  obtain ⟨xs, n, hread, rfl⟩ := reads_automaton (c := .start text) h
  have hn := (nodesOf_eq_ok_iff .automaton text [n]).2 ⟨xs, hread⟩
  obtain ⟨n', heq, -, hlines⟩ := declares_of_nodesOf hn
  obtain rfl := (List.cons.inj heq).1
  exact ⟨n, hn, rfl, hlines⟩

lemma transitionNodes_eq {n : Node Rule} (h : nodesOf .automaton text = .ok [n]) :
    transitionNodes text = transitionLines n := by
  rw [transitionNodes, h]

/-- Every transition has its node. -/
lemma exists_transitionNode (h : Declares (contentLines text) m)
    (hts : m.transitions = before ++ t :: after) :
    ∃ line, (transitionNodes text)[before.length]? = some line := by
  obtain ⟨n, hn, -, hlines⟩ := exists_nodesOf h
  have hlength := congrArg List.length hlines
  rw [hts, List.length_map, List.length_append, List.length_cons] at hlength
  rw [transitionNodes_eq hn]
  exact ⟨_, List.getElem?_eq_getElem (by omega)⟩

/-! ### Repetitions -/

/-- The scan for a repeated line stops at a line that repeats one before it, or one seen earlier. -/
lemma firstRepeated_append_cons {seen : List (String × String)} {lines more : List (Node Rule)}
    {line : Node Rule} (hlines : firstRepeated seen lines = none)
    (hline : ((transitionOf line).source, (transitionOf line).symbol) ∈
      seen ++ lines.map fun n => ((transitionOf n).source, (transitionOf n).symbol)) :
    firstRepeated seen (lines ++ line :: more) = some line := by
  induction lines generalizing seen with
  | nil => exact firstRepeated_cons_of_mem (by simpa using hline) more
  | cons n lines ih =>
    by_cases hn : ((transitionOf n).source, (transitionOf n).symbol) ∈ seen
    · rw [firstRepeated_cons_of_mem hn] at hlines
      cases hlines
    · rw [firstRepeated_cons_of_not_mem hn] at hlines
      rw [List.cons_append, firstRepeated_cons_of_not_mem hn]
      refine ih hlines ?_
      rw [List.map_cons] at hline
      exact List.perm_middle.mem_iff.1 hline

/-- Where transitions have a source and symbol twice, one of them is the first to repeat another. -/
lemma exists_firstRepetition {ts : List Transition}
    (h : ¬ (ts.map fun t => (t.source, t.symbol)).Nodup) :
    ∃ before t after, ts = before ++ t :: after ∧ FirstRepetition before t := by
  induction ts using List.reverseRecOn with
  | nil => simp at h
  | append_singleton ts t ih =>
    by_cases hts : (ts.map fun t => (t.source, t.symbol)).Nodup
    · refine ⟨ts, t, [], rfl, hts, ?_⟩
      have : (t.source, t.symbol) ∈ ts.map fun t => (t.source, t.symbol) := by
        by_contra hmem
        apply h
        rw [List.map_append, List.map_singleton, ← List.concat_eq_append]
        exact hts.concat hmem
      simpa using this
    · obtain ⟨before, t', after, rfl, hfirst⟩ := ih hts
      exact ⟨before, t', after ++ [t], by simp, hfirst⟩

/-! ### Reading -/

lemma read_eq_declared {n : Node Rule} (h : nodesOf .automaton text = .ok [n]) :
    read text = declared text n := by
  rw [read, h]
  rfl

/-- A text without a declaration is refused for what its grammar expects. -/
lemma read_of_not_declares (h : ∀ m, ¬ Declares (contentLines text) m) :
    read text = .error (.badText (.ofAttempts text (automaton.readText text).attempts)) := by
  have hn : nodesOf .automaton text =
      .error (.badText (.ofAttempts text (automaton.readText text).attempts)) := by
    rw [nodesOf]
    split
    · next d ns hr =>
      have hns : nodesOf .automaton text = .ok ns := by rw [nodesOf, hr]
      obtain ⟨n, -, hm, -⟩ := declares_of_nodesOf hns
      exact (h _ hm).elim
    · rfl
  rw [read, hn]
  rfl

/-- A first repetition is refused with the excerpt of its line. -/
lemma read_of_firstRepetition {line : Node Rule} (h : Declares (contentLines text) m)
    (hts : m.transitions = before ++ t :: after) (ht : FirstRepetition before t)
    (hline : (transitionNodes text)[before.length]? = some line) :
    read text = .error (.badText (.ofDuplicate text line.span t.source t.symbol)) := by
  obtain ⟨n, hn, rfl, hlines⟩ := exists_nodesOf h
  rw [transitionNodes_eq hn] at hline
  rw [hts, List.map_eq_append_iff] at hlines
  obtain ⟨lines, rest, hrest, rfl, hmap⟩ := hlines
  obtain ⟨line', more, rfl, rfl, -⟩ := List.map_eq_cons_iff.1 hmap
  obtain rfl : line' = line := by simpa [hrest] using hline
  obtain ⟨hnodup, t', ht', hsource, hsymbol⟩ := ht
  obtain ⟨n', hn', rfl⟩ := List.mem_map.1 ht'
  have hfirst : firstRepeated [] (transitionLines n) = some line' := by
    rw [hrest]
    apply firstRepeated_append_cons
    · rw [List.map_map] at hnodup
      exact (firstRepeated_eq_none_iff _ _).2 ⟨hnodup, by simp⟩
    · rw [List.nil_append, ← hsource, ← hsymbol]
      exact List.mem_map_of_mem hn'
  rw [read_eq_declared hn, declared, hfirst]

/-- Reading gives the automata that are declared with one transition for a source and symbol. -/
lemma read_eq_ok_iff (text : List Char) (m : Automaton) :
    read text = .ok m ↔ Declares (contentLines text) m ∧
      (m.transitions.map fun t => (t.source, t.symbol)).Nodup := by
  constructor
  · intro h
    refine ⟨?_, nodup_keys_of_read h⟩
    obtain ⟨n, ns, hn, -, rfl⟩ := exists_nodes_of_read h
    obtain ⟨_, heq, hm, -⟩ := declares_of_nodesOf hn
    obtain ⟨rfl, -⟩ := List.cons.inj heq
    exact hm
  · rintro ⟨h, hkeys⟩
    obtain ⟨n, hn, rfl, hlines⟩ := exists_nodesOf h
    have hnone : firstRepeated [] (transitionLines n) = none := by
      rw [← hlines, List.map_map] at hkeys
      exact (firstRepeated_eq_none_iff _ _).2 ⟨hkeys, by simp⟩
    rw [read_eq_declared hn, declared, hnone]

/-! ### The five outcomes -/

lemma parse_of_size_le {s : String} (h : s.utf8ByteSize ≤ maxSpecificationSize) :
    parse s = do let m ← read s.toList; m.validate; return m := by
  rw [parse, if_neg (Nat.not_lt.2 h)]

/-- Every outcome is what reading comes to. -/
theorem Outcome.parse_eq {s : String} {r : Except Error Automaton} (h : Outcome s r) :
    parse s = r := by
  cases h with
  | oversized hsize => rw [parse, if_pos hsize]
  | undeclared hsize hno => rw [parse_of_size_le hsize, read_of_not_declares hno]; rfl
  | repeated hsize hm hts ht hline =>
    rw [parse_of_size_le hsize, read_of_firstRepetition hm hts ht hline]; rfl
  | @unsound m d hsize hm hkeys hd =>
    have hv : m.validate = .error (.unsound d) := by
      rw [Automaton.validate, Automaton.defect?_eq_some_iff.2 hd]
    rw [parse_of_size_le hsize, (read_eq_ok_iff _ _).2 ⟨hm, hkeys⟩]
    show (do m.validate; return m) = _
    rw [hv]
    rfl
  | sound hsize hm hw =>
    exact (parse_eq_ok_iff _ _).2
      ⟨hsize, (read_eq_ok_iff _ _).2 ⟨hm, hw.nodup_keys⟩, hw.toSound⟩

/-- Every text has an outcome. -/
theorem exists_outcome (s : String) : ∃ r, Outcome s r := by
  by_cases hsize : s.utf8ByteSize ≤ maxSpecificationSize
  · by_cases hm : ∃ m, Declares (contentLines s.toList) m
    · obtain ⟨m, hm⟩ := hm
      by_cases hkeys : (m.transitions.map fun t => (t.source, t.symbol)).Nodup
      · cases hd : m.defect? with
        | some d => exact ⟨_, .unsound hsize hm hkeys (Automaton.defect?_eq_some_iff.1 hd)⟩
        | none =>
          have hs := (Automaton.defect?_eq_none_iff m).1 hd
          exact ⟨_, .sound hsize hm { hs with nodup_keys := hkeys }⟩
      · obtain ⟨before, t, after, hts, ht⟩ := exists_firstRepetition hkeys
        obtain ⟨line, hline⟩ := exists_transitionNode hm hts
        exact ⟨_, .repeated hsize hm hts ht hline⟩
    · exact ⟨_, .undeclared hsize (not_exists.1 hm)⟩
  · exact ⟨_, .oversized (Nat.lt_of_not_le hsize)⟩

/-- The message about a repetition ends in these words. -/
lemma exists_message_ofDuplicate (text : List Char) (span : Span) (source symbol : String) :
    ∃ place, (Error.badText (.ofDuplicate text span source symbol)).message =
      place ++ ("Duplicate transition rule: " ++ source ++ ":" ++ symbol) :=
  ⟨_, (String.append_assoc ..).symm⟩

/-- Reading a text comes to its outcome, a repetition is reported in these words, and an automaton
that is read is well formed. -/
theorem parse_eq_iff_outcome (text : String) :
    (∀ r, parse text = r ↔ Outcome text r) ∧
      (∀ span source symbol, ∃ place,
        (Error.badText (.ofDuplicate text.toList span source symbol)).message =
          place ++ ("Duplicate transition rule: " ++ source ++ ":" ++ symbol)) ∧
      ∀ m, parse text = .ok m → m.WellFormed := by
  have houtcome : ∀ r, parse text = r ↔ Outcome text r := by
    intro r
    constructor
    · rintro rfl
      obtain ⟨r, hr⟩ := exists_outcome text
      rwa [hr.parse_eq]
    · exact Outcome.parse_eq
  refine ⟨houtcome, exists_message_ofDuplicate text.toList, ?_⟩
  intro m hm
  cases (houtcome _).1 hm with
  | sound _ _ hw => exact hw

/-- A line that repeats the empty move of the first one is reported, and neither that there is no
initial state nor that `q` is no state. -/
theorem outcome_of_repeated_empty_move :
    Outcome "#states\ns\n#initial\n#accepting\n#alphabet\n#transitions\ns:>q\ns:$>s"
        (.error (.badText ⟨.duplicateTransition "s" "$",
          ⟨8, 1, ['s', ':', '$', '>', 's'], ['^', '-', '-', '-', '^']⟩⟩)) ∧
      (⟨["s"], ["s"], [], [], []⟩ : Automaton).WellFormed := by
  constructor
  · exact ((parse_eq_iff_outcome _).1 _).1 (by cbv)
  · exact (parse_eq_iff_outcome "#states\ns\n#initial\ns\n#accepting\n#alphabet\n#transitions").2.2
      _ (by cbv)

end Automata.Specification
