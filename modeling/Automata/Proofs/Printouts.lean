import Automata.CommandLine.Report
import Automata.Proofs.JsonTexts
import Automata.Proofs.Legibility

/-!
# Printed reports

A report is printed as lines or as one JSON value. Both hold all of it: every query with its input and
its answer, in order. So the report can be read back from what is printed.
-/

namespace Automata.CommandLine

open Text (quoted)

/-! ### JSON -/

/-- The JSON value that stands for a query. -/
def Query.value (q : Query) : Json :=
  .object [(some "input", .string (some q.input)), (some "accepted", .bool q.accepted)]

/-- The JSON value that stands for a report. -/
def Report.value (r : Report) : Json :=
  .object [(some "kind", .string (some r.kind.name)),
    (some "unreachable", .array (r.unreachable.map fun s => .string (some s))),
    (some "queries", .array (r.queries.map Query.value))]

lemma Query.value_injective : Function.Injective Query.value := by
  rintro ⟨input, accepted⟩ ⟨input', accepted'⟩ h
  simpa [Query.value] using h

theorem Report.value_injective : Function.Injective Report.value := by
  rintro ⟨kind, unreachable, queries⟩ ⟨kind', unreachable', queries'⟩ h
  simp only [Report.value, Json.object.injEq, List.cons.injEq, Prod.mk.injEq, Json.string.injEq,
    Option.some.injEq, Json.array.injEq, true_and, and_true] at h
  obtain ⟨hkind, hunreachable, hqueries⟩ := h
  have hstring : Function.Injective fun s : String => Json.string (some s) :=
    fun s s' h => by simpa using h
  obtain rfl : kind = kind' := by cases kind <;> cases kind' <;> first | rfl | (revert hkind; decide)
  obtain rfl := hstring.list_map hunreachable
  obtain rfl := Query.value_injective.list_map hqueries
  rfl

/-- A text of lines, each one ended. -/
def textOf (lines : List String) : String :=
  String.join (lines.map (· ++ "\n"))

lemma textOf_cons (l : String) (lines : List String) :
    textOf (l :: lines) = l ++ "\n" ++ textOf lines :=
  String.join_cons

lemma textOf_append (lines lines' : List String) :
    textOf (lines ++ lines') = textOf lines ++ textOf lines' := by
  rw [textOf, List.map_append, String.join_append, textOf, textOf]

lemma toList_textOf_cons (l : String) (lines : List String) :
    (textOf (l :: lines)).toList = l.toList ++ '\n' :: (textOf lines).toList := by
  simp [textOf_cons]

lemma textOf_cons_ne_nil (l : String) (lines : List String) : textOf (l :: lines) ≠ textOf [] := by
  intro h
  have hempty := congrArg String.toList h
  rw [toList_textOf_cons] at hempty
  exact List.append_ne_nil_of_right_ne_nil _ (List.cons_ne_nil _ _) hempty

/-- Lines are told apart by their ends. -/
lemma textOf_inj {lines lines' : List String} (h : ∀ l ∈ lines, '\n' ∉ l.toList)
    (h' : ∀ l ∈ lines', '\n' ∉ l.toList) : textOf lines = textOf lines' ↔ lines = lines' := by
  refine ⟨fun heq => ?_, congrArg textOf⟩
  induction lines generalizing lines' with
  | nil =>
    cases lines' with
    | nil => rfl
    | cons l' lines' => exact (textOf_cons_ne_nil l' lines' heq.symm).elim
  | cons l lines ih =>
    cases lines' with
    | nil => exact (textOf_cons_ne_nil l lines heq).elim
    | cons l' lines' =>
      obtain ⟨hl, hlines⟩ := List.forall_mem_cons.1 h
      obtain ⟨hl', hlines'⟩ := List.forall_mem_cons.1 h'
      have hsplit := congrArg String.toList heq
      rw [toList_textOf_cons, toList_textOf_cons] at hsplit
      obtain ⟨hline, hrest⟩ := Text.append_cons_inj hsplit hl hl'
      rw [String.toList_inj.1 hline, ih hlines hlines' (String.toList_inj.1 hrest)]

/-- The line of a query. -/
def Query.line (q : Query) : String :=
  quoted q.input ++ (if q.accepted then ": the string is accepted" else ": the string is rejected")

/-- The line of unreachable states, if there are any. -/
def unreachableLines (labels : List String) : List String :=
  if labels = [] then [] else ["Unreachable states: " ++ ", ".intercalate labels]

/-- The lines of a report: its header, the unreachable states and the queries. -/
def Report.lines (r : Report) : List String :=
  ("The input automaton is a " ++ r.kind.description ++ ".") ::
    (unreachableLines r.unreachable ++ r.queries.map Query.line)

lemma Query.render_eq (q : Query) : q.render = q.line ++ "\n" := by
  rw [Query.render, Query.line]
  cases q.accepted <;> simp [String.append_assoc]

/-- What is printed of a report are its lines. -/
theorem Report.render_eq (r : Report) : r.render = textOf r.lines := by
  have hunreachable : (if r.unreachable.isEmpty then ""
      else "Unreachable states: " ++ ", ".intercalate r.unreachable ++ "\n") =
      textOf (unreachableLines r.unreachable) := by
    rw [unreachableLines]
    cases r.unreachable with
    | nil => rfl
    | cons s labels => simp [textOf, String.join_cons]
  have hqueries : String.join (r.queries.map Query.render) = textOf (r.queries.map Query.line) := by
    rw [textOf, List.map_map]
    exact congrArg String.join (List.map_congr_left fun q _ => q.render_eq)
  have hstop : ".\n" = "." ++ "\n" := rfl
  rw [Report.lines, textOf_cons, textOf_append, ← hunreachable, ← hqueries]
  show _ ++ ".\n" ++ _ ++ _ = _
  rw [hstop]
  simp only [String.append_assoc]

/-! ### What the lines tell -/

lemma Query.line_injective : Function.Injective Query.line := by
  rintro ⟨input, accepted⟩ ⟨input', accepted'⟩ h
  have htoList := congrArg String.toList h
  simp only [Query.line, String.toList_append] at htoList
  obtain ⟨rfl, hanswer⟩ := Text.quoted_append_inj htoList
  cases accepted <;> cases accepted' <;> simp at hanswer ⊢

lemma Query.lineEnd_not_mem_line (q : Query) : '\n' ∉ q.line.toList := by
  rw [Query.line, String.toList_append, List.mem_append, not_or]
  refine ⟨Text.lineEnd_not_mem_quoted q.input, ?_⟩
  split_ifs <;> decide

/-- Every label is one of a specification. -/
def Labels (labels : List String) : Prop :=
  ∀ s ∈ labels, Specification.IsLabel s.toList

variable {labels labels' : List String}

lemma Labels.not_mem (h : Labels labels) {c : Char} (hc : c ∈ Specification.separators) :
    ∀ s ∈ labels, c ∉ s.toList :=
  fun s hs hmem => (h s hs).not_separator c hmem hc

/-- The blank behind a comma can be taken for a part of the next label. -/
lemma intercalate_comma_blank (s : String) (labels : List String) :
    ", ".intercalate (s :: labels) = ",".intercalate (s :: labels.map (" " ++ ·)) := by
  have hblank : ", " = "," ++ " " := rfl
  induction labels generalizing s with
  | nil => rfl
  | cons s' labels ih =>
    have hrest : ",".intercalate ((" " ++ s') :: labels.map (" " ++ ·)) =
        " " ++ ",".intercalate (s' :: labels.map (" " ++ ·)) := by
      cases labels with
      | nil => simp
      | cons s'' labels => simp [String.intercalate_cons_cons, String.append_assoc]
    rw [List.map_cons, String.intercalate_cons_cons, String.intercalate_cons_cons, ih, hrest, hblank]
    simp only [String.append_assoc]

lemma Labels.intercalate_inj (h : Labels labels) (h' : Labels labels') (hne : labels ≠ [])
    (hne' : labels' ≠ []) (heq : ", ".intercalate labels = ", ".intercalate labels') :
    labels = labels' := by
  have hcomma : ∀ {s : String} {labels : List String}, Labels (s :: labels) →
      ∀ x ∈ s :: labels.map (" " ++ ·), ',' ∉ x.toList := by
    intro s labels h
    have hnot := List.forall_mem_cons.1 (h.not_mem (c := ',') (by decide))
    refine List.forall_mem_cons.2 ⟨hnot.1, List.forall_mem_map.2 fun x hx => ?_⟩
    simpa using hnot.2 x hx
  obtain ⟨s, labels, rfl⟩ := List.exists_cons_of_ne_nil hne
  obtain ⟨s', labels', rfl⟩ := List.exists_cons_of_ne_nil hne'
  rw [intercalate_comma_blank, intercalate_comma_blank] at heq
  have hcons := Dot.intercalate_comma_inj (List.cons_ne_nil _ _) (List.cons_ne_nil _ _) (hcomma h)
    (hcomma h') heq
  obtain ⟨rfl, hrest⟩ := List.cons.inj hcons
  have hblank : Function.Injective (" " ++ ·) := fun _ _ => (String.append_right_inj " ").1
  rw [hblank.list_map hrest]

/-- The line of unreachable states is not that of a query. -/
lemma unreachableLine_ne (labels : List String) (q : Query) :
    "Unreachable states: " ++ ", ".intercalate labels ≠ q.line := by
  intro heq
  have htoList := congrArg String.toList heq
  rw [Query.line, String.toList_append, String.toList_append, Text.toList_quoted] at htoList
  nomatch (List.cons.inj htoList).1

lemma Labels.unreachableLines_append_inj (h : Labels labels) (h' : Labels labels')
    {queries queries' : List Query} (heq : unreachableLines labels ++ queries.map Query.line =
      unreachableLines labels' ++ queries'.map Query.line) :
    labels = labels' ∧ queries = queries' := by
  rw [unreachableLines, unreachableLines] at heq
  split_ifs at heq with hempty hempty' hempty'
  · exact ⟨hempty.trans hempty'.symm, Query.line_injective.list_map heq⟩
  · cases queries with
    | nil => nomatch heq
    | cons q queries => exact (unreachableLine_ne labels' q (List.cons.inj heq).1.symm).elim
  · cases queries' with
    | nil => nomatch heq
    | cons q queries' => exact (unreachableLine_ne labels q (List.cons.inj heq).1).elim
  · obtain ⟨hline, hqueries⟩ := List.cons.inj heq
    exact ⟨h.intercalate_inj h' hempty hempty' ((String.append_right_inj _).1 hline),
      Query.line_injective.list_map hqueries⟩

lemma Labels.lineEnd_not_mem_intercalate (h : Labels labels) :
    '\n' ∉ (", ".intercalate labels).toList := by
  induction labels with
  | nil => decide
  | cons s labels ih =>
    obtain ⟨hs, hlabels⟩ := List.forall_mem_cons.1 h
    have hnot : '\n' ∉ s.toList := fun hmem => hs.not_separator _ hmem (by decide)
    cases labels with
    | nil => simpa using hnot
    | cons s' labels => simpa [String.intercalate_cons_cons, hnot] using ih hlabels

lemma Report.lineEnd_not_mem_lines {r : Report} (h : Labels r.unreachable) :
    ∀ l ∈ r.lines, '\n' ∉ l.toList := by
  refine List.forall_mem_cons.2 ⟨?_, List.forall_mem_append.2 ⟨?_, ?_⟩⟩
  · cases r.kind <;> decide
  · rw [unreachableLines]
    split_ifs
    · nofun
    · refine List.forall_mem_singleton.2 ?_
      rw [String.toList_append, List.mem_append, not_or]
      exact ⟨by decide, h.lineEnd_not_mem_intercalate⟩
  · exact List.forall_mem_map.2 fun q _ => q.lineEnd_not_mem_line

/-- The printed lines tell the whole report, if its states have labels of a specification. -/
theorem Report.render_inj {r r' : Report} (h : Labels r.unreachable) (h' : Labels r'.unreachable) :
    r.render = r'.render ↔ r = r' := by
  refine ⟨fun heq => ?_, congrArg Report.render⟩
  rw [r.render_eq, r'.render_eq, textOf_inj (lineEnd_not_mem_lines h) (lineEnd_not_mem_lines h')] at heq
  obtain ⟨kind, unreachable, queries⟩ := r
  obtain ⟨kind', unreachable', queries'⟩ := r'
  obtain ⟨hheader, hrest⟩ := List.cons.inj heq
  have hdescription : kind.description = kind'.description := by simpa using hheader
  have hkind : kind = kind' := by
    revert hdescription
    cases kind <;> cases kind' <;> decide
  obtain ⟨rfl, rfl⟩ := h.unreachableLines_append_inj h' hrest
  rw [hkind]

end Automata.CommandLine
