import Automata.Proofs.Outcomes

/-!
# The layout of specifications

A text is laid out anew by spaces and tabs around its lines, by blank lines among them and by other
line ends. What the lines of content declare stays the same, as long as the markers stay at the start
of their lines. An indented marker is no marker any more: then the grammar refuses the text.
-/

namespace Automata.Specification

open Grammar

variable {α : Type} {Holds : List Char → α → Prop} {m : Automaton} {t : Transition} {s marker : String}
  {text text' l l' a b c e : List Char} {ls ls' : List (List Char)} {entries : List α}

/-! ### Other layouts of a text -/

/-- The line `l'` is the line `l` with spaces and tabs before and behind it. -/
def Pads (l' l : List Char) : Prop :=
  ∃ a b, Blank a ∧ Blank b ∧ l' = a ++ (l ++ b)

/-- The lines `ls'` are the lines `ls` with spaces and tabs around them, and blank lines among them. -/
inductive Spreads : List (List Char) → List (List Char) → Prop
  | nil : Spreads [] []
  | pad {l' l : List Char} {ls' ls : List (List Char)} (hl : Pads l' l) (h : Spreads ls' ls) :
      Spreads (l' :: ls') (l :: ls)
  | insert {b : List Char} {ls' ls : List (List Char)} (hb : Blank b) (h : Spreads ls' ls) :
      Spreads (b :: ls') ls

/-- The text is made of the lines, with line ends of any kind between them. -/
inductive Joins : List Char → List (List Char) → Prop
  | last (l : List Char) : Joins l [l]
  | line {l e text : List Char} {ls : List (List Char)} (he : e ∈ [['\n'], ['\r', '\n'], ['\r']])
      (h : Joins text ls) : Joins (l ++ (e ++ text)) (l :: ls)

/-- `text'` is `text` laid out anew. -/
def Relays (text' text : List Char) : Prop :=
  ∃ ls, Spreads ls (cutLines text) ∧ Joins text' ls

/-! ### Lines of other layouts -/

lemma Pads.refl (l : List Char) : Pads l l :=
  ⟨[], [], blank_nil, blank_nil, by simp⟩

lemma Pads.oneLine (h : Pads l' l) (hl : OneLine l) : OneLine l' := by
  obtain ⟨a, b, ha, hb, rfl⟩ := h
  exact oneLine_append_iff.2 ⟨ha.oneLine, oneLine_append_iff.2 ⟨hl, hb.oneLine⟩⟩

lemma Pads.blank_iff (h : Pads l' l) : Blank l' ↔ Blank l := by
  obtain ⟨a, b, ha, hb, rfl⟩ := h
  rw [blank_append_iff, blank_append_iff]
  exact ⟨fun h => h.2.1, fun h => ⟨ha, h, hb⟩⟩

lemma Spreads.oneLine (h : Spreads ls' ls) (hls : ∀ l ∈ ls, OneLine l) : ∀ l ∈ ls', OneLine l := by
  induction h with
  | nil => exact hls
  | pad hl _ ih =>
    obtain ⟨hone, hls⟩ := List.forall_mem_cons.1 hls
    exact List.forall_mem_cons.2 ⟨hl.oneLine hone, ih hls⟩
  | insert hb _ ih => exact List.forall_mem_cons.2 ⟨hb.oneLine, ih hls⟩

/-- Blank lines aside, spread lines are padded lines. -/
lemma Spreads.forall₂_filter (h : Spreads ls' ls) :
    List.Forall₂ Pads (ls'.filter fun l => ¬ Blank l) (ls.filter fun l => ¬ Blank l) := by
  induction h with
  | nil => exact .nil
  | @pad l' l _ _ hl _ ih =>
    by_cases hb : Blank l
    · rwa [List.filter_cons_of_neg (by simpa using hl.blank_iff.2 hb),
        List.filter_cons_of_neg (by simpa using hb)]
    · rw [List.filter_cons_of_pos (by simpa using mt hl.blank_iff.1 hb),
        List.filter_cons_of_pos (by simpa using hb)]
      exact .cons hl ih
  | insert hb _ ih => rwa [List.filter_cons_of_neg (by simpa using hb)]

/-- A line of content, or nothing for a blank line. -/
lemma contentLines_append_ending {rest : List Char} (hl : OneLine l) (he : Ending e rest) :
    contentLines (l ++ (e ++ rest)) = [l].filter (fun l => ¬ Blank l) ++ contentLines rest := by
  by_cases hb : Blank l
  · simp [contentLines_of_blank hb he, hb]
  · simp [contentLines_of_not_blank hb hl he, hb]

/-- Where `\r` comes before `\n`, both end one line; what is lost is the empty line between them. -/
lemma contentLines_append_lineEnd {text : List Char} (hl : OneLine l)
    (he : e ∈ [['\n'], ['\r', '\n'], ['\r']]) :
    contentLines (l ++ (e ++ text)) = [l].filter (fun l => ¬ Blank l) ++ contentLines text := by
  simp only [List.mem_cons, List.not_mem_nil, or_false] at he
  rcases he with rfl | rfl | rfl
  · exact contentLines_append_ending hl (.feed text)
  · exact contentLines_append_ending hl (.returnFeed text)
  · by_cases hhead : text.head? = some '\n'
    · obtain ⟨rest, rfl⟩ := List.head?_eq_some_iff.1 hhead
      have hempty : contentLines ('\n' :: rest) = contentLines rest :=
        contentLines_of_blank blank_nil (.feed rest)
      rw [hempty]
      show contentLines (l ++ (['\r', '\n'] ++ rest)) = _
      exact contentLines_append_ending hl (.returnFeed rest)
    · exact contentLines_append_ending hl (.bareReturn hhead)

lemma Joins.contentLines (h : Joins text ls) (hls : ∀ l ∈ ls, OneLine l) :
    contentLines text = ls.filter fun l => ¬ Blank l := by
  induction h with
  | last l =>
    have hl := hls l (List.mem_singleton_self l)
    simpa using contentLines_append_ending hl .text
  | line he _ ih =>
    obtain ⟨hl, hls⟩ := List.forall_mem_cons.1 hls
    rw [contentLines_append_lineEnd hl he, ih hls, ← List.filter_append]
    rfl

/-- A new layout pads the lines of content. -/
lemma Relays.pads (h : Relays text' text) :
    List.Forall₂ Pads (contentLines text') (contentLines text) := by
  obtain ⟨ls, hspreads, hjoins⟩ := h
  rw [hjoins.contentLines (hspreads.oneLine (oneLine_of_mem_cutLines text))]
  exact hspreads.forall₂_filter

/-! ### Indented marks -/

/-- The first character that is no space or tab. -/
def firstInk (l : List Char) : Option Char :=
  l.find? fun x => ¬ (x = ' ' ∨ x = '\t')

/-- Spaces or tabs stand before the `#` of a marker. -/
def IndentsMarker (l : List Char) : Prop :=
  firstInk l = some '#' ∧ l.head? ≠ some '#'

instance : DecidablePred IndentsMarker :=
  fun l => inferInstanceAs (Decidable (firstInk l = some '#' ∧ l.head? ≠ some '#'))

lemma firstInk_blank_append (ha : Blank a) (l : List Char) : firstInk (a ++ l) = firstInk l := by
  have hnone : a.find? (fun x => ¬ (x = ' ' ∨ x = '\t')) = none :=
    List.find?_eq_none.2 fun x hx => by simpa only [decide_eq_true_eq, not_not] using ha x hx
  rw [firstInk, List.find?_append, hnone]
  rfl

lemma IsLabel.firstInk_append (h : IsLabel l) (b : List Char) : firstInk (l ++ b) = l.head? := by
  obtain ⟨x, l, rfl⟩ := List.exists_cons_of_ne_nil h.ne_nil
  have hhead : x ∈ (x :: l ++ []).head? := rfl
  have hx := h.head_not_blank x hhead
  rw [firstInk, List.cons_append, List.find?_cons_of_pos (by simpa using hx)]
  rfl

lemma HoldsLabel.firstInk_append (h : HoldsLabel l s) (b : List Char) :
    firstInk (l ++ b) ≠ some '#' := by
  obtain ⟨a, c, ha, -, hs, rfl⟩ := h
  rw [List.append_assoc, List.append_assoc, firstInk_blank_append ha, hs.firstInk_append]
  exact hs.head_ne

lemma HoldsLabel.not_indentsMarker (h : HoldsLabel l s) : ¬ IndentsMarker l := by
  intro hl
  apply h.firstInk_append []
  rw [List.append_nil]
  exact hl.1

lemma HoldsTransition.not_indentsMarker (h : HoldsTransition l t) : ¬ IndentsMarker l := by
  obtain ⟨a, b, c, rfl, ha, -⟩ := h
  exact fun hl => ha.firstInk_append _ hl.1

lemma HoldsSection.not_indentsMarker (h : HoldsSection marker Holds entries ls)
    (hm : IsMarker marker) (hholds : ∀ l v, Holds l v → ¬ IndentsMarker l) :
    ∀ l ∈ ls, ¬ IndentsMarker l := by
  obtain ⟨b, body, -, rfl, hbody⟩ := h
  obtain ⟨rest, hrest⟩ := List.head?_eq_some_iff.1 hm.1
  refine List.forall_mem_cons.2 ⟨fun hl => hl.2 ?_, ?_⟩
  · rw [hrest]
    rfl
  · induction hbody with
    | nil => exact List.forall_mem_nil _
    | cons hv _ ih => exact List.forall_mem_cons.2 ⟨hholds _ _ hv, ih⟩

/-- A line that declares something has no indented marker. -/
lemma Declares.not_indentsMarker (h : Declares ls m) : ∀ l ∈ ls, ¬ IndentsMarker l := by
  obtain ⟨_, _, _, _, _, rfl, h₁, h₂, h₃, h₄, h₅⟩ := h
  have label : ∀ l s, HoldsLabel l s → ¬ IndentsMarker l := fun _ _ h => h.not_indentsMarker
  simp only [List.forall_mem_append]
  exact ⟨h₁.not_indentsMarker (isMarker_of_mem (by simp)) label,
    h₂.not_indentsMarker (isMarker_of_mem (by simp)) label,
    h₃.not_indentsMarker (isMarker_of_mem (by simp)) label,
    h₄.not_indentsMarker (isMarker_of_mem (by simp)) label,
    h₅.not_indentsMarker (isMarker_of_mem (by simp)) fun _ _ h => h.not_indentsMarker⟩

/-! ### Padded lines hold the same -/

lemma HoldsLabel.pad (h : HoldsLabel l s) (ha : Blank a) (hb : Blank b) :
    HoldsLabel (a ++ (l ++ b)) s := by
  obtain ⟨c, d, hc, hd, hs, rfl⟩ := h
  exact ⟨a ++ c, d ++ b, blank_append_iff.2 ⟨ha, hc⟩, blank_append_iff.2 ⟨hd, hb⟩, hs, by simp⟩

lemma HoldsLabels.append_blank {ss : List String} (h : HoldsLabels l ss) (hb : Blank b) :
    HoldsLabels (l ++ b) ss := by
  induction h with
  | last h => exact .last (h.pad blank_nil hb)
  | more h _ ih =>
    rw [List.append_assoc, List.cons_append]
    exact .more h ih

lemma HoldsLabel.of_pads (h : HoldsLabel l s) (hl : Pads l' l) : HoldsLabel l' s := by
  obtain ⟨a, b, ha, hb, rfl⟩ := hl
  exact h.pad ha hb

lemma HoldsTransition.of_pads (h : HoldsTransition l t) (hl : Pads l' l) : HoldsTransition l' t := by
  obtain ⟨a, b, ha, hb, rfl⟩ := hl
  obtain ⟨l₁, l₂, l₃, rfl, hsource, hsymbol, htargets⟩ := h
  refine ⟨a ++ (l₁ ++ []), l₂, l₃ ++ b, by simp, hsource.pad ha blank_nil, hsymbol, ?_⟩
  exact htargets.append_blank hb

/-- A marker that is not indented has nothing before it. -/
lemma Pads.exists_blank (hl : Pads l' (marker.toList ++ b)) (hm : IsMarker marker) (hb : Blank b)
    (hindent : ¬ IndentsMarker l') : ∃ b', Blank b' ∧ l' = marker.toList ++ b' := by
  obtain ⟨a, c, ha, hc, rfl⟩ := hl
  obtain ⟨rest, hrest⟩ := List.head?_eq_some_iff.1 hm.1
  cases a with
  | nil => exact ⟨b ++ c, blank_append_iff.2 ⟨hb, hc⟩, by simp⟩
  | cons x a =>
    refine (hindent ⟨?_, ?_⟩).elim
    · rw [firstInk_blank_append ha, hrest]
      rfl
    · have hx : x ≠ '#' := by
        rcases ha x List.mem_cons_self with rfl | rfl <;> decide
      simpa using hx

lemma forall₂_of_pads {body' body : List (List Char)} (hpads : List.Forall₂ Pads body' body)
    (hbody : List.Forall₂ Holds body entries) (hholds : ∀ l' l v, Holds l v → Pads l' l → Holds l' v) :
    List.Forall₂ Holds body' entries := by
  induction hbody generalizing body' with
  | nil =>
    cases hpads
    exact .nil
  | cons hv _ ih =>
    cases hpads with
    | cons hl hpads => exact .cons (hholds _ _ _ hv hl) (ih hpads)

lemma HoldsSection.of_pads (h : HoldsSection marker Holds entries ls) (hm : IsMarker marker)
    (hholds : ∀ l' l v, Holds l v → Pads l' l → Holds l' v) (hpads : List.Forall₂ Pads ls' ls)
    (hindent : ∀ l ∈ ls', ¬ IndentsMarker l) : HoldsSection marker Holds entries ls' := by
  obtain ⟨b, body, hb, rfl, hbody⟩ := h
  cases hpads with
  | cons hl hpads =>
    obtain ⟨b', hb', rfl⟩ := hl.exists_blank hm hb (hindent _ List.mem_cons_self)
    exact ⟨b', _, hb', rfl, forall₂_of_pads hpads hbody hholds⟩

lemma exists_append_of_forall₂ {β : Type} {R : α → β → Prop} {l : List α} {l₁ l₂ : List β}
    (h : List.Forall₂ R l (l₁ ++ l₂)) :
    ∃ l₁' l₂', l = l₁' ++ l₂' ∧ List.Forall₂ R l₁' l₁ ∧ List.Forall₂ R l₂' l₂ :=
  ⟨_, _, (List.take_append_drop _ _).symm, List.forall₂_take_append _ _ _ h,
    List.forall₂_drop_append _ _ _ h⟩

/-- Padded lines declare the same automaton, unless a marker is indented. -/
lemma Declares.of_pads (h : Declares ls m) (hpads : List.Forall₂ Pads ls' ls)
    (hindent : ∀ l ∈ ls', ¬ IndentsMarker l) : Declares ls' m := by
  obtain ⟨_, _, _, _, _, rfl, h₁, h₂, h₃, h₄, h₅⟩ := h
  obtain ⟨_, _, rfl, hp₁, hpads⟩ := exists_append_of_forall₂ hpads
  obtain ⟨_, _, rfl, hp₂, hpads⟩ := exists_append_of_forall₂ hpads
  obtain ⟨_, _, rfl, hp₃, hpads⟩ := exists_append_of_forall₂ hpads
  obtain ⟨_, _, rfl, hp₄, hp₅⟩ := exists_append_of_forall₂ hpads
  simp only [List.forall_mem_append] at hindent
  obtain ⟨hi₁, hi₂, hi₃, hi₄, hi₅⟩ := hindent
  have label : ∀ l' l s, HoldsLabel l s → Pads l' l → HoldsLabel l' s := fun _ _ _ h => h.of_pads
  exact ⟨_, _, _, _, _, rfl, h₁.of_pads (isMarker_of_mem (by simp)) label hp₁ hi₁,
    h₂.of_pads (isMarker_of_mem (by simp)) label hp₂ hi₂,
    h₃.of_pads (isMarker_of_mem (by simp)) label hp₃ hi₃,
    h₄.of_pads (isMarker_of_mem (by simp)) label hp₄ hi₄,
    h₅.of_pads (isMarker_of_mem (by simp)) (fun _ _ _ h => h.of_pads) hp₅ hi₅⟩

/-! ### Reading other layouts -/

lemma parse_of_indentsMarker {text : String} (hsize : text.utf8ByteSize ≤ maxSpecificationSize)
    (h : ∃ l ∈ contentLines text.toList, IndentsMarker l) :
    parse text = .error (.badText
      (.ofAttempts text.toList (automaton.readText text.toList).attempts)) := by
  obtain ⟨l, hl, hindent⟩ := h
  exact Outcome.parse_eq (.undeclared hsize fun m hm => hm.not_indentsMarker l hl hindent)

/-- A text that is laid out anew is read as before, as long as it is not too long, and just if no
marker is indented. Otherwise it is refused for what its grammar expects. -/
theorem parse_of_relays {text text' : String} (h : parse text = .ok m)
    (hrelays : Relays text'.toList text.toList) (hsize : text'.utf8ByteSize ≤ maxSpecificationSize) :
    (parse text' = .ok m ↔ ∀ l ∈ contentLines text'.toList, ¬ IndentsMarker l) ∧
      ((∃ l ∈ contentLines text'.toList, IndentsMarker l) →
        parse text' = .error (.badText
          (.ofAttempts text'.toList (automaton.readText text'.toList).attempts))) := by
  have hrefused := parse_of_indentsMarker hsize
  obtain ⟨-, hread, -⟩ := (parse_eq_ok_iff _ _).1 h
  have hdeclares := ((read_eq_ok_iff _ _).1 hread).1
  refine ⟨⟨fun h' l hl hindent => ?_, fun hindent => ?_⟩, hrefused⟩
  · rw [hrefused ⟨l, hl, hindent⟩] at h'
    nomatch h'
  · exact Outcome.parse_eq (.sound hsize (hdeclares.of_pads hrelays.pads hindent)
      (wellFormed_of_parse h))

/-- A state that is initial. -/
def oneState : Automaton :=
  ⟨["s"], ["s"], [], [], []⟩

/-- A specification of it. -/
def oneStateText : String :=
  "#states\ns\n#initial\ns\n#accepting\n#alphabet\n#transitions"

lemma parse_oneStateText : parse oneStateText = .ok oneState := by cbv

/-- Its lines. -/
lemma cutLines_oneStateText : cutLines oneStateText.toList =
    ["#states", "s", "#initial", "s", "#accepting", "#alphabet", "#transitions"].map String.toList := by
  decide

/-- The same in another layout, with line ends of all kinds. -/
def oneStateSpread : String :=
  "\n\t\r#states \r\n\n  s\t\r\n#initial\r s\r#accepting\n#alphabet\t\r\n#transitions\n  "

lemma relays_oneStateSpread : Relays oneStateSpread.toList oneStateText.toList := by
  have hspread : oneStateSpread.toList = "".toList ++ (['\n'] ++ ("\t".toList ++ (['\r'] ++
      ("#states ".toList ++ (['\r', '\n'] ++ ("".toList ++ (['\n'] ++ ("  s\t".toList ++
      (['\r', '\n'] ++ ("#initial".toList ++ (['\r'] ++ (" s".toList ++ (['\r'] ++
      ("#accepting".toList ++ (['\n'] ++ ("#alphabet\t".toList ++ (['\r', '\n'] ++
      ("#transitions".toList ++ (['\n'] ++ "  ".toList))))))))))))))))))) := by decide
  rw [Relays, hspread, cutLines_oneStateText]
  refine ⟨_, ?_, .line (by decide) (.line (by decide) (.line (by decide) (.line (by decide)
    (.line (by decide) (.line (by decide) (.line (by decide) (.line (by decide) (.line (by decide)
    (.line (by decide) (.last _))))))))))⟩
  exact .insert (by decide) (.insert (by decide) (.pad ⟨[], [' '], by decide, by decide, rfl⟩
    (.insert (by decide) (.pad ⟨[' ', ' '], ['\t'], by decide, by decide, rfl⟩ (.pad (.refl _)
    (.pad ⟨[' '], [], by decide, by decide, rfl⟩ (.pad (.refl _)
    (.pad ⟨[], ['\t'], by decide, by decide, rfl⟩ (.pad (.refl _)
    (.insert (by decide) .nil))))))))))

/-- The other layout is read. -/
theorem parse_oneStateSpread :
    parse oneStateText = .ok oneState ∧ Relays oneStateSpread.toList oneStateText.toList ∧
      oneStateSpread.utf8ByteSize ≤ maxSpecificationSize ∧ parse oneStateSpread = .ok oneState := by
  have hsize : oneStateSpread.utf8ByteSize ≤ maxSpecificationSize := by decide
  refine ⟨parse_oneStateText, relays_oneStateSpread, hsize,
    (parse_of_relays parse_oneStateText relays_oneStateSpread hsize).1.2 ?_⟩
  decide

lemma relays_indented : Relays (" " ++ oneStateText).toList oneStateText.toList := by
  have hspread : (" " ++ oneStateText).toList = " #states".toList ++ (['\n'] ++ ("s".toList ++
      (['\n'] ++ ("#initial".toList ++ (['\n'] ++ ("s".toList ++ (['\n'] ++ ("#accepting".toList ++
      (['\n'] ++ ("#alphabet".toList ++ (['\n'] ++ "#transitions".toList))))))))))) := by decide
  rw [Relays, hspread, cutLines_oneStateText]
  refine ⟨_, ?_, .line (by decide) (.line (by decide) (.line (by decide) (.line (by decide)
    (.line (by decide) (.line (by decide) (.last _))))))⟩
  exact .pad ⟨[' '], [], by decide, by decide, rfl⟩ (.pad (.refl _) (.pad (.refl _) (.pad (.refl _)
    (.pad (.refl _) (.pad (.refl _) (.pad (.refl _) .nil))))))

/-- A space before the first marker. -/
theorem parse_oneState_indented :
    parse oneStateText = .ok oneState ∧ Relays (" " ++ oneStateText).toList oneStateText.toList ∧
      (" " ++ oneStateText).utf8ByteSize ≤ maxSpecificationSize ∧
      parse (" " ++ oneStateText) ≠ .ok oneState := by
  have hsize : (" " ++ oneStateText).utf8ByteSize ≤ maxSpecificationSize := by decide
  refine ⟨parse_oneStateText, relays_indented, hsize, fun h => ?_⟩
  rw [parse_of_indentsMarker hsize ⟨" #states".toList, by decide, by decide⟩] at h
  nomatch h

end Automata.Specification
