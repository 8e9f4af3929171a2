import Automata.Proofs.Lines

/-!
# The language of the grammar

A section of the grammar takes its marker line and the lines with an entry that come next, with the
blank lines among them, and stops at the first line that is neither. So the grammar loses none of the
specifications that the notation describes, and has no others: the texts that it matches are those
whose lines declare an automaton, and this automaton is what the syntax tree says.
-/

namespace Automata.Specification.Grammar

open Peg

variable {α : Type} {line : Peg Rule} {Holds : List Char → α → Prop} {value : Node Rule → α}
  {c : Cursor} {text xs ys rest l b e : List Char} {ls more : List (List Char)}
  {ns ms : List (Node Rule)} {marker : String} {entries : List α}

/-! ### Blank lines -/

lemma nonempty_blank : blank.Nonempty := by
  intro c ns h
  obtain ⟨-, b, e, rest, hxs, -, hne, -⟩ := reads_blank_iff.1 h
  exact hne (List.append_eq_nil_iff.1 hxs.symm).2

lemma contentLines_of_reads_blank (h : blank.Reads c xs ns) :
    ns = [] ∧ contentLines c.rest = contentLines (c.pass xs).rest := by
  obtain ⟨rfl, b, e, rest, rfl, hb, -, hrest, he⟩ := reads_blank_iff.1 h
  have hpass : (c.pass (b ++ e)).rest = rest := Cursor.rest_pass (by simpa using hrest)
  rw [hpass, hrest]
  exact ⟨rfl, contentLines_of_blank hb he⟩

/-- Where no blank line comes next, there is a line of content, or there is none any more. -/
lemma exists_line_of_blank_fails (h : blank.Fails c) :
    (Blank c.rest ∧ contentLines c.rest = []) ∨
      ∃ l e rest, c.rest = l ++ (e ++ rest) ∧ Ending e rest ∧
        contentLines c.rest = l :: contentLines rest := by
  obtain ⟨l, e, rest, hrest, hl, he⟩ := exists_line c.rest
  by_cases hb : Blank l
  · have hne : e = [] := by
      by_contra hne
      exact h _ _ (reads_blank_iff.2 ⟨rfl, l, e, rest, rfl, hb, hne, hrest, he⟩)
    subst hne
    cases he
    refine .inl ⟨by simpa [hrest] using hb, ?_⟩
    rw [hrest, contentLines_of_blank hb .text, contentLines_nil]
  · exact .inr ⟨l, e, rest, hrest, he, by rw [hrest, contentLines_of_not_blank hb hl he]⟩

lemma exists_reads_many_blank (c : Cursor) :
    ∃ xs, (many blank).Reads c xs [] ∧ blank.Fails (c.pass xs) ∧
      contentLines c.rest = contentLines (c.pass xs).rest := by
  have h : ∃ xs ns, (many blank).Reads c xs ns ∧ ns = [] ∧ blank.Fails (c.pass xs) ∧
      contentLines c.rest = contentLines (c.pass xs).rest := by
    apply many_induction nonempty_blank (motive := fun c xs ns => ns = [] ∧
      blank.Fails (c.pass xs) ∧ contentLines c.rest = contentLines (c.pass xs).rest)
    · intro c hf
      rw [Cursor.pass_nil]
      exact ⟨rfl, hf, rfl⟩
    · rintro c xs ns ys ms hp ⟨rfl, hfails, hlines⟩
      obtain ⟨rfl, hlines'⟩ := contentLines_of_reads_blank hp
      rw [Cursor.pass_pass] at hfails hlines
      exact ⟨rfl, hfails, hlines'.trans hlines⟩
  obtain ⟨xs, _, hm, rfl, hfails, hlines⟩ := h
  exact ⟨xs, hm, hfails, hlines⟩

/-! ### The body of a section -/

/-- From `c` up to behind `xs` stand lines with the entries of the nodes, and then another line. -/
def Body (Holds : List Char → α → Prop) (value : Node Rule → α) (c : Cursor) (xs : List Char)
    (ns : List (Node Rule)) : Prop :=
  blank.Fails (c.pass xs) ∧
    (∀ l ∈ (contentLines (c.pass xs).rest).head?, ∀ v, ¬ Holds l v) ∧
    ∃ ls, contentLines c.rest = ls ++ contentLines (c.pass xs).rest ∧
      List.Forall₂ Holds ls (ns.map value)

namespace ReadsLines

lemma nonempty (h : ReadsLines line Holds value) (hl : EntryLines Holds) : line.Nonempty := by
  intro c ns hr
  obtain ⟨l, e, n, hxs, -, -, hv⟩ := h.sound hr
  obtain ⟨rfl, -⟩ := List.append_eq_nil_iff.1 hxs.symm
  exact hl.not_blank hv blank_nil

/-- A line has one entry: both could be read from its node. -/
lemma unique (h : ReadsLines line Holds value) {v v' : α} (hv : Holds l v) (hv' : Holds l v') :
    v = v' := by
  have hrest : (Cursor.start l).rest = l ++ ([] ++ []) := by simp [Cursor.start]
  obtain ⟨n, hn, rfl⟩ := h.complete hrest .text hv
  obtain ⟨n', hn', rfl⟩ := h.complete hrest .text hv'
  obtain ⟨-, heq⟩ := hn.unique hn'
  rw [List.cons.inj heq |>.1]

lemma contentLines_of_reads (h : ReadsLines line Holds value) (hl : EntryLines Holds)
    (hr : line.Reads c xs ns) :
    ∃ l n, ns = [n] ∧ Holds l (value n) ∧
      contentLines c.rest = l :: contentLines (c.pass xs).rest := by
  obtain ⟨l, e, n, rfl, he, rfl, hv⟩ := h.sound hr
  refine ⟨l, n, rfl, hv, ?_⟩
  rw [hr.rest_eq, List.append_assoc]
  exact contentLines_of_not_blank (hl.not_blank hv) (hl.oneLine hv) he

lemma body_of_fails (h : ReadsLines line Holds value) (hf : (choice blank line).Fails c) :
    Body Holds value c [] [] := by
  obtain ⟨hblank, hline⟩ := fails_choice_iff.1 hf
  rw [Body, Cursor.pass_nil]
  refine ⟨hblank, fun l hmem v hv => ?_, [], rfl, .nil⟩
  rcases exists_line_of_blank_fails hblank with ⟨-, hnil⟩ | ⟨l', e, rest, hrest, he, hcons⟩
  · rw [hnil] at hmem
    nomatch hmem
  · rw [hcons, List.head?_cons, Option.mem_some_iff] at hmem
    subst hmem
    obtain ⟨n, hn, -⟩ := h.complete hrest he hv
    exact hline _ _ hn

/-- The repetition in a section takes all lines with an entry that come next. -/
lemma exists_body (h : ReadsLines line Holds value) (hl : EntryLines Holds) (c : Cursor) :
    ∃ xs ns, (many (choice blank line)).Reads c xs ns ∧ Body Holds value c xs ns := by
  have hne : (choice blank line).Nonempty := by
    intro c ns hr
    rcases reads_choice_iff.1 hr with hr | ⟨-, hr⟩
    · exact nonempty_blank c ns hr
    · exact h.nonempty hl c ns hr
  apply many_induction hne
  · intro c
    exact h.body_of_fails
  · rintro c xs ns ys ms hr ⟨hfails, hstop, ls, hlines, hentries⟩
    rw [Cursor.pass_pass] at hfails hstop hlines
    refine ⟨hfails, hstop, ?_⟩
    rcases reads_choice_iff.1 hr with hr | ⟨-, hr⟩
    · obtain ⟨rfl, heq⟩ := contentLines_of_reads_blank hr
      exact ⟨ls, heq.trans hlines, hentries⟩
    · obtain ⟨l, n, rfl, hv, heq⟩ := h.contentLines_of_reads hl hr
      exact ⟨l :: ls, by rw [heq, hlines]; rfl, .cons hv hentries⟩

end ReadsLines

/-! ### Sections -/

/-- A marker has a `#` at its start and is one line. -/
def IsMarker (marker : String) : Prop :=
  marker.toList.head? = some '#' ∧ OneLine marker.toList

lemma isMarker_of_mem
    (h : marker ∈ ["#states", "#initial", "#accepting", "#alphabet", "#transitions"]) :
    IsMarker marker := by
  revert marker
  simp [IsMarker, OneLine, isLineEnd]

lemma IsMarker.not_blank (h : IsMarker marker) (b : List Char) : ¬ Blank (marker.toList ++ b) := by
  obtain ⟨rest, hrest⟩ := List.head?_eq_some_iff.1 h.1
  intro hblank
  have := hblank '#' (by simp [hrest])
  simp at this

lemma contentLines_of_marker (h : IsMarker marker) (hb : Blank b) (he : Ending e rest) :
    contentLines (marker.toList ++ b ++ (e ++ rest)) =
      (marker.toList ++ b) :: contentLines rest :=
  contentLines_of_not_blank (h.not_blank b) (oneLine_append_iff.2 ⟨h.2, hb.oneLine⟩) he

/-- A marker line has no entry, so it ends the section before it. -/
lemma not_holds_of_section {β : Type} {Holds' : List Char → β → Prop} {entries' : List β}
    (h : HoldsSection marker Holds' entries' ls) (hm : IsMarker marker) (hl : EntryLines Holds) :
    ∀ l ∈ (ls ++ more).head?, ∀ v, ¬ Holds l v := by
  obtain ⟨b, body, -, rfl, -⟩ := h
  obtain ⟨rest, hrest⟩ := List.head?_eq_some_iff.1 hm.1
  rintro l hmem v hv
  simp only [List.cons_append, List.head?_cons, Option.mem_some_iff] at hmem
  subst hmem
  exact hl.head_ne hv (by simp [hrest])

lemma section_sound (h : ReadsLines line Holds value) (hl : EntryLines Holds)
    (hm : IsMarker marker) {rule : Rule} (hr : (branch rule (lines marker line)).Reads c xs ns) :
    ∃ span ms ls, ns = [.branch rule span ms] ∧
      contentLines c.rest = ls ++ contentLines (c.pass xs).rest ∧
      HoldsSection marker Holds (ms.map value) ls := by
  obtain ⟨_, hbody, rfl⟩ := (reads_branch_iff rule).1 hr
  obtain ⟨_, _, _, _, hmark, h₁, rfl, rfl⟩ := reads_append_iff.1 hbody
  obtain ⟨_, _, ys, ms, heol, hmany, rfl, rfl⟩ := reads_append_iff.1 h₁
  obtain ⟨rfl, rfl, -⟩ := (reads_exactly_iff _).1 hmark
  obtain ⟨rfl, b, e, rest, rfl, hb, hrest, he⟩ := reads_eol_iff.1 heol
  obtain ⟨ys', ms', hmany', -, -, ls, hlines, hentries⟩ := h.exists_body hl _
  obtain ⟨rfl, rfl⟩ := hmany.unique hmany'
  refine ⟨_, ms, _ :: ls, rfl, ?_, b, ls, hb, rfl, hentries⟩
  have hc : c.rest = marker.toList ++ b ++ (e ++ rest) := by
    rw [hmark.rest_eq, hrest, List.append_assoc]
  have hpass : ((c.pass marker.toList).pass (b ++ e)).rest = rest :=
    Cursor.rest_pass (by simpa using hrest)
  rw [hc, contentLines_of_marker hm hb he, ← hpass, hlines]
  simp

/-- Entries that go on as long as there are any can be read off in one way only. -/
lemma ReadsLines.entries_unique (h : ReadsLines line Holds value) {ls' more' : List (List Char)}
    {entries' : List α} (heq : ls ++ more = ls' ++ more') (he : List.Forall₂ Holds ls entries)
    (he' : List.Forall₂ Holds ls' entries') (hstop : ∀ l ∈ more.head?, ∀ v, ¬ Holds l v)
    (hstop' : ∀ l ∈ more'.head?, ∀ v, ¬ Holds l v) : entries = entries' ∧ more = more' := by
  induction he generalizing ls' entries' with
  | nil =>
    cases he' with
    | nil => exact ⟨rfl, heq⟩
    | cons hv _ =>
      rw [List.nil_append] at heq
      exact (hstop _ (by rw [heq]; rfl) _ hv).elim
  | cons hv _ ih =>
    cases he' with
    | nil =>
      rw [List.nil_append] at heq
      exact (hstop' _ (by rw [← heq]; rfl) _ hv).elim
    | cons hv' he' =>
      obtain ⟨rfl, htail⟩ := List.cons.inj heq
      obtain ⟨rfl, rfl⟩ := ih htail he'
      exact ⟨by rw [h.unique hv hv'], rfl⟩

lemma reads_section (h : ReadsLines line Holds value) (hl : EntryLines Holds) (rule : Rule)
    (hfails : blank.Fails c) (hlines : contentLines c.rest = ls ++ more)
    (hs : HoldsSection marker Holds entries ls)
    (hstop : ∀ l ∈ more.head?, ∀ v, ¬ Holds l v) :
    ∃ xs span ms, (branch rule (lines marker line)).Reads c xs [.branch rule span ms] ∧
      ms.map value = entries ∧ contentLines (c.pass xs).rest = more ∧ blank.Fails (c.pass xs) := by
  obtain ⟨b, body, hb, rfl, hentries⟩ := hs
  rcases exists_line_of_blank_fails hfails with ⟨-, hnil⟩ | ⟨l, e, rest, hrest, he, hcons⟩
  · rw [hlines] at hnil
    nomatch hnil
  rw [hlines] at hcons
  obtain ⟨rfl, hbody⟩ := List.cons.inj hcons
  have hrest₁ : (c.pass marker.toList).rest = b ++ (e ++ rest) :=
    Cursor.rest_pass (by simpa using hrest)
  have hrest₂ : ((c.pass marker.toList).pass (b ++ e)).rest = rest :=
    Cursor.rest_pass (by simpa using hrest₁)
  have hmark : (lit marker : Peg Rule).Reads c marker.toList [] :=
    (reads_exactly_iff _).2 ⟨rfl, rfl, _, (by simpa using hrest.symm)⟩
  obtain ⟨ys, ms, hmany, hfails', hstop', ls, heq, hholds⟩ :=
    h.exists_body hl ((c.pass marker.toList).pass (b ++ e))
  rw [hrest₂, ← hbody] at heq
  obtain ⟨rfl, rfl⟩ := h.entries_unique heq hentries hholds (by simpa using hstop) hstop'
  have hread := hmark.append ((reads_eol hb hrest₁ he).append hmany)
  exact ⟨_, _, _, (reads_branch_iff rule).2 ⟨_, hread, rfl⟩, rfl, by simp, by simpa using hfails'⟩

/-! ### Specifications -/

lemma section_append_sound (h : ReadsLines line Holds value) (hl : EntryLines Holds)
    (hm : IsMarker marker) {rule : Rule} {q : Peg Rule}
    (hr : (branch rule (lines marker line) ++ q).Reads c xs ns) :
    ∃ span ms ls d ys ks, ns = .branch rule span ms :: ks ∧ q.Reads d ys ks ∧
      contentLines c.rest = ls ++ contentLines d.rest ∧
      HoldsSection marker Holds (ms.map value) ls := by
  obtain ⟨_, _, ys, ks, hsection, hq, rfl, rfl⟩ := reads_append_iff.1 hr
  obtain ⟨span, ms, ls, rfl, hlines, hholds⟩ := section_sound h hl hm hsection
  exact ⟨span, ms, ls, _, ys, ks, rfl, hq, hlines, hholds⟩

lemma contentLines_of_reads_many_blank (h : (many blank).Reads c xs ns) :
    ns = [] ∧ contentLines c.rest = contentLines (c.pass xs).rest := by
  obtain ⟨ys, hys, -, hlines⟩ := exists_reads_many_blank c
  obtain ⟨rfl, rfl⟩ := h.unique hys
  exact ⟨rfl, hlines⟩

lemma contentLines_of_reads_end (h : (spaces ++ endOfText).Reads c xs ns) :
    contentLines c.rest = [] ∧ ∃ span, ns = [.branch .eoi span []] := by
  obtain ⟨b, _, _, _, hb, hend, rfl, rfl⟩ := reads_append_iff.1 h
  obtain ⟨rfl, hblank, rest, hrest, -⟩ := reads_spaces_iff.1 hb
  obtain ⟨rfl, rfl, hnil⟩ := reads_endOfText_iff.1 hend
  rw [Cursor.rest_pass hrest] at hnil
  subst hnil
  refine ⟨?_, _, rfl⟩
  rw [hrest]
  exact (contentLines_of_blank hblank .text).trans contentLines_nil

lemma reads_end (hfails : blank.Fails c) (hlines : contentLines c.rest = []) :
    ∃ xs span, (spaces ++ endOfText).Reads c xs [.branch .eoi span []] := by
  rcases exists_line_of_blank_fails hfails with ⟨hblank, -⟩ | ⟨l, e, rest, -, -, hcons⟩
  · have hrest : c.rest = c.rest ++ [] := (List.append_nil _).symm
    have hspaces := reads_spaces hblank hrest (by simp)
    have hend := reads_endOfText_iff.2 ⟨rfl, rfl, Cursor.rest_pass hrest⟩
    exact ⟨_, _, hspaces.append hend⟩
  · rw [hlines] at hcons
    nomatch hcons

/-- The syntax tree has one node for each section and one for the end of the text, and the lines
declare the automaton that is made of the entries of the sections. -/
lemma automaton_tree (h : automaton.Reads c xs ns) :
    ∃ s s₁ s₂ s₃ s₄ s₅ s₆ ms₁ ms₂ ms₃ ms₄ ms₅,
      ns = [.branch .automaton s [.branch .states s₁ ms₁, .branch .initial s₂ ms₂,
        .branch .accepting s₃ ms₃, .branch .alphabet s₄ ms₄, .branch .transitions s₅ ms₅,
        .branch .eoi s₆ []]] ∧
      Declares (contentLines c.rest) ⟨ms₁.map Node.text, ms₂.map Node.text, ms₃.map Node.text,
        ms₄.map Node.text, ms₅.map transitionOf⟩ := by
  obtain ⟨_, hbody, rfl⟩ := (reads_branch_iff _).1 h
  obtain ⟨_, _, _, _, hblank, hsections, -, rfl⟩ := reads_append_iff.1 hbody
  obtain ⟨rfl, hlines⟩ := contentLines_of_reads_many_blank hblank
  obtain ⟨s₁, ms₁, ls₁, _, _, _, rfl, h₁, hlines₁, hstates⟩ :=
    section_append_sound readsLines_stateLine entryLines_label (isMarker_of_mem (by simp)) hsections
  obtain ⟨s₂, ms₂, ls₂, _, _, _, rfl, h₂, hlines₂, hinitial⟩ :=
    section_append_sound readsLines_stateLine entryLines_label (isMarker_of_mem (by simp)) h₁
  obtain ⟨s₃, ms₃, ls₃, _, _, _, rfl, h₃, hlines₃, haccepting⟩ :=
    section_append_sound readsLines_stateLine entryLines_label (isMarker_of_mem (by simp)) h₂
  obtain ⟨s₄, ms₄, ls₄, _, _, _, rfl, h₄, hlines₄, halphabet⟩ :=
    section_append_sound readsLines_symbolLine entryLines_label (isMarker_of_mem (by simp)) h₃
  obtain ⟨s₅, ms₅, ls₅, _, _, _, rfl, h₅, hlines₅, htransitions⟩ :=
    section_append_sound readsLines_transition entryLines_transition (isMarker_of_mem (by simp)) h₄
  obtain ⟨hend, s₆, rfl⟩ := contentLines_of_reads_end h₅
  refine ⟨_, s₁, s₂, s₃, s₄, s₅, s₆, ms₁, ms₂, ms₃, ms₄, ms₅, rfl, ls₁, ls₂, ls₃, ls₄, ls₅, ?_,
    hstates, hinitial, haccepting, halphabet, htransitions⟩
  rw [hlines, hlines₁, hlines₂, hlines₃, hlines₄, hlines₅, hend, List.append_nil]

/-- What the grammar matches declares the automaton of the syntax tree. -/
lemma automaton_sound (h : automaton.Reads c xs ns) :
    ∃ n, ns = [n] ∧ Declares (contentLines c.rest) (automatonOf n) := by
  obtain ⟨_, _, _, _, _, _, _, _, _, _, _, _, rfl, hdeclares⟩ := automaton_tree h
  exact ⟨_, rfl, hdeclares⟩

/-- The grammar matches what declares an automaton, and the syntax tree is that of the automaton. -/
lemma reads_automaton {m : Automaton} (h : Declares (contentLines c.rest) m) :
    ∃ xs n, automaton.Reads c xs [n] ∧ automatonOf n = m := by
  obtain ⟨ls₁, ls₂, ls₃, ls₄, ls₅, hlines, hstates, hinitial, haccepting, halphabet,
    htransitions⟩ := h
  obtain ⟨xs₀, h₀, hfails₀, hlines₀⟩ := exists_reads_many_blank c
  rw [hlines, ← List.append_nil ls₅] at hlines₀
  obtain ⟨xs₁, s₁, ms₁, h₁, hms₁, hlines₁, hfails₁⟩ :=
    reads_section readsLines_stateLine entryLines_label .states hfails₀ hlines₀.symm hstates
      (not_holds_of_section hinitial (isMarker_of_mem (by simp)) entryLines_label)
  obtain ⟨xs₂, s₂, ms₂, h₂, hms₂, hlines₂, hfails₂⟩ :=
    reads_section readsLines_stateLine entryLines_label .initial hfails₁ hlines₁ hinitial
      (not_holds_of_section haccepting (isMarker_of_mem (by simp)) entryLines_label)
  obtain ⟨xs₃, s₃, ms₃, h₃, hms₃, hlines₃, hfails₃⟩ :=
    reads_section readsLines_stateLine entryLines_label .accepting hfails₂ hlines₂ haccepting
      (not_holds_of_section halphabet (isMarker_of_mem (by simp)) entryLines_label)
  obtain ⟨xs₄, s₄, ms₄, h₄, hms₄, hlines₄, hfails₄⟩ :=
    reads_section readsLines_symbolLine entryLines_label .alphabet hfails₃ hlines₃ halphabet
      (not_holds_of_section htransitions (isMarker_of_mem (by simp)) entryLines_label)
  obtain ⟨xs₅, s₅, ms₅, h₅, hms₅, hlines₅, hfails₅⟩ :=
    reads_section readsLines_transition entryLines_transition .transitions hfails₄ hlines₄
      htransitions (by simp)
  obtain ⟨xs₆, s₆, h₆⟩ := reads_end hfails₅ hlines₅
  have hread := h₀.append (h₁.append (h₂.append (h₃.append (h₄.append (h₅.append h₆)))))
  have hroot := (reads_branch_iff Rule.automaton).2 ⟨_, hread, rfl⟩
  refine ⟨_, _, hroot, ?_⟩
  show (⟨ms₁.map Node.text, ms₂.map Node.text, ms₃.map Node.text, ms₄.map Node.text,
    ms₅.map transitionOf⟩ : Automaton) = m
  rw [hms₁, hms₂, hms₃, hms₄, hms₅]

end Automata.Specification.Grammar

namespace Automata.Specification

open Peg Grammar

lemma nodesOf_eq_ok_iff (rule : Rule) (text : List Char) (ns : List (Node Rule)) :
    nodesOf rule text = .ok ns ↔ ∃ xs, rule.expression.Reads (.start text) xs ns := by
  simp only [nodesOf, readText]
  constructor
  · intro h
    split at h
    · next d ns' hr =>
      obtain rfl := Except.ok.inj h
      obtain ⟨xs, -, hxs⟩ := exists_reads hr
      exact ⟨xs, hxs⟩
    · nomatch h
  · rintro ⟨xs, h⟩
    rw [h.2]

/-- The grammar matches the texts whose lines of content declare an automaton, and what it reads from
such a text is this automaton. -/
theorem nodesOf_automaton_iff_declares (text : List Char) :
    ((∃ ns, nodesOf .automaton text = .ok ns) ↔ ∃ m, Declares (contentLines text) m) ∧
      ∀ m, Declares (contentLines text) m ↔
        ∃ n, nodesOf .automaton text = .ok [n] ∧ automatonOf n = m := by
  have hsound : ∀ ns, nodesOf .automaton text = .ok ns →
      ∃ n, ns = [n] ∧ Declares (contentLines text) (automatonOf n) := by
    intro ns h
    obtain ⟨xs, h⟩ := (nodesOf_eq_ok_iff _ _ _).1 h
    exact automaton_sound h
  have hcomplete : ∀ m, Declares (contentLines text) m →
      ∃ n, nodesOf .automaton text = .ok [n] ∧ automatonOf n = m := by
    intro m h
    obtain ⟨xs, n, hread, hn⟩ := reads_automaton (c := .start text) h
    exact ⟨n, (nodesOf_eq_ok_iff _ _ _).2 ⟨xs, hread⟩, hn⟩
  constructor
  · constructor
    · rintro ⟨ns, h⟩
      obtain ⟨n, -, hn⟩ := hsound ns h
      exact ⟨_, hn⟩
    · rintro ⟨m, h⟩
      obtain ⟨n, hn, -⟩ := hcomplete m h
      exact ⟨_, hn⟩
  · intro m
    constructor
    · exact hcomplete m
    · rintro ⟨n, h, rfl⟩
      obtain ⟨n', heq, hn⟩ := hsound _ h
      rwa [(List.cons.inj heq).1]

end Automata.Specification
