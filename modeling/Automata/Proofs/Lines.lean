import Automata.Proofs.Tokens
import Automata.Specification.Reading

/-!
# Lines of the grammar

The grammar's rules for lines match what the notation says of them: a line in the text together with
what ends it, and nothing else. Of a matched line the notation holds what is read from its node.
-/

namespace Automata.Specification.Grammar

open Peg

variable {c : Cursor} {xs ys rest l a b e s : List Char} {ns ms : List (Node Rule)} {x : Char}

/-! ### Steps along a line -/

lemma reads_spaces (ha : Blank a) (hrest : c.rest = a ++ rest)
    (hstop : ∀ x ∈ rest.head?, ¬ (x = ' ' ∨ x = '\t')) : spaces.Reads c a [] :=
  reads_spaces_iff.2 ⟨rfl, ha, rest, hrest, hstop⟩

lemma reads_mark (hrest : c.rest = x :: rest) : (exactly [x] : Peg Rule).Reads c [x] [] :=
  (readsOne_exactly x c _ _).2 ⟨x, rfl, rfl, rfl, rest, hrest.symm⟩

lemma reads_eol (hb : Blank b) (hrest : c.rest = b ++ (e ++ rest)) (he : Ending e rest) :
    eol.Reads c (b ++ e) [] :=
  reads_eol_iff.2 ⟨rfl, b, e, rest, rfl, hb, hrest, he⟩

lemma eol_sound (h : eol.Reads c xs ns) :
    ns = [] ∧ ∃ b e, xs = b ++ e ∧ Blank b ∧ Ending e (c.pass xs).rest := by
  obtain ⟨rfl, b, e, rest, rfl, hb, hrest, he⟩ := reads_eol_iff.1 h
  have hpass : (c.pass (b ++ e)).rest = rest := Cursor.rest_pass (by simpa using hrest)
  exact ⟨rfl, b, e, rfl, hb, hpass ▸ he⟩

lemma reads_tokenIdent (rule : Rule) (hs : IsLabel s) (hrest : c.rest = s ++ rest)
    (hstop : ∀ x ∈ rest.head?, x ∈ separators) :
    (token rule ident).Reads c s
      [.token rule ⟨c.offset, (c.pass s).offset⟩ (String.ofList s)] :=
  (reads_token_iff rule).2 ⟨[], reads_ident_iff.2 ⟨rfl, hs, rest, hrest, hstop⟩, rfl⟩

lemma tokenIdent_sound {rule : Rule} (h : (token rule ident).Reads c xs ns) :
    IsLabel xs ∧ ∃ span, ns = [.token rule span (String.ofList xs)] := by
  obtain ⟨ms, hs, rfl⟩ := (reads_token_iff rule).1 h
  exact ⟨(reads_ident_iff.1 hs).2.1, _, rfl⟩

/-! ### Lines with an entry -/

/-- `line` matches the lines that hold an entry, which `value` reads from the node. -/
structure ReadsLines {α : Type} (line : Peg Rule) (Holds : List Char → α → Prop)
    (value : Node Rule → α) : Prop where
  sound {c : Cursor} {xs : List Char} {ns : List (Node Rule)} (h : line.Reads c xs ns) :
    ∃ l e n, xs = l ++ e ∧ Ending e (c.pass xs).rest ∧ ns = [n] ∧ Holds l (value n)
  complete {c : Cursor} {l e rest : List Char} {v : α} (hrest : c.rest = l ++ (e ++ rest))
    (he : Ending e rest) (h : Holds l v) : ∃ n, line.Reads c (l ++ e) [n] ∧ value n = v

/-- A line of one label. -/
lemma readsLines_label (rule : Rule) :
    ReadsLines (spaces ++ (token rule ident ++ eol)) HoldsLabel Node.text where
  sound {c xs ns} h := by
    obtain ⟨a, _, _, _, ha, h₁, rfl, rfl⟩ := reads_append_iff.1 h
    obtain ⟨s, _, _, _, hs, h₂, rfl, rfl⟩ := reads_append_iff.1 h₁
    obtain ⟨rfl, b, e, rfl, hb, he⟩ := eol_sound h₂
    obtain ⟨rfl, ha', -⟩ := reads_spaces_iff.1 ha
    obtain ⟨hlabel, span, rfl⟩ := tokenIdent_sound hs
    refine ⟨a ++ (s ++ b), e, _, by simp, by simpa using he, rfl, a, b, ha', hb, ?_, ?_⟩
    · simpa [Node.text] using hlabel
    · simp [Node.text]
  complete {c l e rest v} hrest he h := by
    obtain ⟨a, b, ha, hb, hs, rfl⟩ := h
    have hrest : c.rest = a ++ (v.toList ++ (b ++ (e ++ rest))) := by simpa using hrest
    have hrest' : (c.pass a).rest = v.toList ++ (b ++ (e ++ rest)) := Cursor.rest_pass hrest
    have h₁ := reads_spaces ha hrest hs.head_not_blank
    have h₂ := reads_tokenIdent rule hs hrest' (hb.head_mem_separators he.head_mem_separators)
    have h₃ := reads_eol hb (Cursor.rest_pass hrest') he
    refine ⟨_, by simpa using h₁.append (h₂.append h₃), by simp [Node.text]⟩

lemma readsLines_stateLine : ReadsLines stateLine HoldsLabel Node.text :=
  readsLines_label .state

lemma readsLines_symbolLine : ReadsLines symbolLine HoldsLabel Node.text :=
  readsLines_label .symbol

/-! ### Lists of targets -/

/-- One more target, with its comma. -/
def nextTarget : Peg Rule :=
  spaces ++ (exactly [','] ++ (spaces ++ target))

lemma nextTarget_sound (h : nextTarget.Reads c xs ns) :
    ∃ b a s span, xs = b ++ ',' :: (a ++ s) ∧ Blank b ∧ Blank a ∧ IsLabel s ∧
      ns = [.token .target span (String.ofList s)] := by
  obtain ⟨b, _, _, _, hb, h₁, rfl, rfl⟩ := reads_append_iff.1 h
  obtain ⟨_, _, _, _, hy, h₂, rfl, rfl⟩ := reads_append_iff.1 h₁
  obtain ⟨a, _, s, _, ha, hs, rfl, rfl⟩ := reads_append_iff.1 h₂
  obtain ⟨rfl, hb, -⟩ := reads_spaces_iff.1 hb
  obtain ⟨rfl, rfl, -⟩ := (reads_exactly_iff _).1 hy
  obtain ⟨rfl, ha, -⟩ := reads_spaces_iff.1 ha
  obtain ⟨hlabel, span, rfl⟩ := tokenIdent_sound hs
  exact ⟨b, a, s, span, rfl, hb, ha, hlabel, rfl⟩

lemma reads_nextTarget (hb : Blank b) (ha : Blank a) (hs : IsLabel s)
    (hrest : c.rest = b ++ ',' :: (a ++ (s ++ rest))) (hstop : ∀ x ∈ rest.head?, x ∈ separators) :
    ∃ span, nextTarget.Reads c (b ++ ',' :: (a ++ s)) [.token .target span (String.ofList s)] := by
  have hrest₁ : (c.pass b).rest = [','] ++ (a ++ (s ++ rest)) := Cursor.rest_pass hrest
  have hrest₂ := Cursor.rest_pass hrest₁
  have hrest₃ := Cursor.rest_pass hrest₂
  have h₀ := reads_spaces hb hrest (by simp)
  have h₁ := reads_mark hrest₁
  have h₂ := reads_spaces ha hrest₂ hs.head_not_blank
  have h₃ := reads_tokenIdent .target hs hrest₃ hstop
  exact ⟨_, h₀.append (h₁.append (h₂.append h₃))⟩

lemma nextTarget_fails (hb : Blank b) (hrest : c.rest = b ++ (e ++ rest)) (he : Ending e rest) :
    nextTarget.Fails c := by
  intro xs ns h
  obtain ⟨b', _, _, _, hb', h₁, rfl, rfl⟩ := reads_append_iff.1 h
  obtain ⟨_, _, _, _, hy, -, rfl, rfl⟩ := reads_append_iff.1 h₁
  obtain ⟨rfl, rfl⟩ := hb'.unique (reads_spaces hb hrest he.head_not_blank)
  obtain ⟨-, -, more, hmore⟩ := (reads_exactly_iff _).1 hy
  rw [Cursor.rest_pass hrest] at hmore
  cases he <;> simp at hmore

lemma nonempty_nextTarget : nextTarget.Nonempty := by
  intro c ns h
  obtain ⟨b, a, s, span, hxs, -⟩ := nextTarget_sound h
  simp at hxs

/-- What the repetition of further targets and the end of the line take is the rest of a list. -/
lemma many_nextTarget_sound (hm : (many nextTarget).Reads c xs ns)
    (he : eol.Reads (c.pass xs) ys ms) :
    ms = [] ∧ ∃ r e, xs ++ ys = r ++ e ∧ Ending e (c.pass (xs ++ ys)).rest ∧
      HoldsRest r (ns.map Node.text) := by
  refine hm.many_induction nonempty_nextTarget (motive := fun c xs ns => ∀ ys ms,
    eol.Reads (c.pass xs) ys ms → ms = [] ∧ ∃ r e, xs ++ ys = r ++ e ∧
      Ending e (c.pass (xs ++ ys)).rest ∧ HoldsRest r (ns.map Node.text)) ?_ ?_ ys ms he
  · intro c _ ys ms he
    obtain ⟨rfl, b, e, rfl, hb, he⟩ := eol_sound he
    exact ⟨rfl, b, e, rfl, by simpa using he, .inl ⟨hb, rfl⟩⟩
  · intro c xs ns ys ms hp ih zs ks he
    obtain ⟨b, a, s, span, rfl, hb, ha, hs, rfl⟩ := nextTarget_sound hp
    obtain ⟨rfl, r, e, heq, hend, hr⟩ := ih zs ks (by simpa using he)
    refine ⟨rfl, b ++ ',' :: (a ++ (s ++ r)), e, by simp [heq], by simpa using hend, ?_⟩
    refine .inr ⟨b, a ++ (s ++ r), rfl, hb, holdsLabels_iff.2 ?_⟩
    exact ⟨a, String.ofList s, r, _, by simp, by simp [Node.text], ha, by simpa using hs, hr⟩

lemma reads_many_nextTarget {r : List Char} {ss : List String} (h : HoldsRest r ss)
    (hrest : c.rest = r ++ (e ++ rest)) (he : Ending e rest) :
    ∃ xs ys ns, xs ++ ys = r ++ e ∧ (many nextTarget).Reads c xs ns ∧
      eol.Reads (c.pass xs) ys [] ∧ ns.map Node.text = ss := by
  induction ss generalizing c r with
  | nil =>
    rcases h with ⟨hr, -⟩ | ⟨_, _, _, _, h⟩
    · refine ⟨[], r ++ e, [], rfl, ?_, ?_, rfl⟩
      · exact reads_many_of_fails nonempty_nextTarget (nextTarget_fails hr hrest he)
      · simpa using reads_eol hr hrest he
    · nomatch h
  | cons s ss ih =>
    rcases h with ⟨_, h⟩ | ⟨b, l, rfl, hb, h⟩
    · nomatch h
    · obtain ⟨a, s', r, ss', rfl, heq, ha, hs, hr⟩ := holdsLabels_iff.1 h
      obtain ⟨rfl, rfl⟩ := List.cons.inj heq
      have hrest : c.rest = b ++ ',' :: (a ++ (s.toList ++ (r ++ (e ++ rest)))) := by
        simpa using hrest
      obtain ⟨span, hp⟩ := reads_nextTarget hb ha hs hrest (hr.head_mem_separators he)
      have hrest' : (c.pass (b ++ ',' :: (a ++ s.toList))).rest = r ++ (e ++ rest) :=
        Cursor.rest_pass (by simpa using hrest)
      obtain ⟨xs, ys, ns, hxs, hm, hend, hns⟩ := ih hr hrest'
      refine ⟨_, ys, _, ?_, hp.many nonempty_nextTarget hm, ?_, ?_⟩
      · simp [hxs]
      · simpa using hend
      · simp [Node.text, hns]

lemma targets_sound (h : (targets ++ eol).Reads c xs ns) :
    ∃ l e span ts, xs = l ++ e ∧ Ending e (c.pass xs).rest ∧ ns = [.branch .targets span ts] ∧
      HoldsLabels l (ts.map Node.text) := by
  obtain ⟨_, _, ys, ms, ht, he, rfl, rfl⟩ := reads_append_iff.1 h
  obtain ⟨ts, hts, rfl⟩ := (reads_branch_iff _).1 ht
  obtain ⟨s, _, xs, ns, hs, hm, rfl, rfl⟩ := reads_append_iff.1 hts
  obtain ⟨hlabel, span, rfl⟩ := tokenIdent_sound hs
  rw [← Cursor.pass_pass] at he
  obtain ⟨rfl, r, e, heq, hend, hr⟩ := many_nextTarget_sound hm he
  refine ⟨s ++ r, e, _, _, by simp [heq], by simpa using hend, rfl, holdsLabels_iff.2 ?_⟩
  exact ⟨[], String.ofList s, r, _, by simp, by simp [Node.text], blank_nil, by simpa using hlabel, hr⟩

lemma reads_targets {r : List Char} {t : String} {ts : List String} (ht : IsLabel t.toList)
    (hr : HoldsRest r ts) (hrest : c.rest = t.toList ++ (r ++ (e ++ rest))) (he : Ending e rest) :
    ∃ span ns, (targets ++ eol).Reads c (t.toList ++ (r ++ e)) [.branch .targets span ns] ∧
      ns.map Node.text = t :: ts := by
  have h₀ := reads_tokenIdent .target ht hrest (hr.head_mem_separators he)
  obtain ⟨xs, ys, ns, hxs, hm, hend, hns⟩ := reads_many_nextTarget hr (Cursor.rest_pass hrest) he
  have h₁ := (reads_branch_iff .targets).2 ⟨_, h₀.append hm, rfl⟩
  have h₂ := h₁.append (show eol.Reads (c.pass (t.toList ++ xs)) ys [] by simpa using hend)
  rw [List.append_assoc, hxs] at h₂
  exact ⟨_, _, h₂, by simp [Node.text, hns]⟩

/-! ### Transitions -/

lemma label_sound (h : label.Reads c xs ns) :
    (IsLabel xs ∨ xs = []) ∧ ∃ span, ns = [.token .label span (String.ofList xs)] := by
  obtain ⟨ms, hs, rfl⟩ := (reads_token_iff _).1 h
  refine ⟨?_, _, rfl⟩
  rcases reads_optional_iff.1 hs with hs | ⟨-, rfl, -⟩
  · exact .inl (reads_ident_iff.1 hs).2.1
  · exact .inr rfl

lemma reads_label (hs : IsLabel s ∨ s = []) (hrest : c.rest = s ++ rest)
    (hstop : ∀ x ∈ rest.head?, x ∈ separators) :
    label.Reads c s [.token .label ⟨c.offset, (c.pass s).offset⟩ (String.ofList s)] := by
  refine (reads_token_iff _).2 ⟨[], reads_optional_iff.2 ?_, rfl⟩
  rcases hs with hs | rfl
  · exact .inl (reads_ident_iff.2 ⟨rfl, hs, rest, hrest, hstop⟩)
  · refine .inr ⟨fun xs ns h => ?_, rfl, rfl⟩
    obtain ⟨-, hxs, more, hmore, -⟩ := reads_ident_iff.1 h
    obtain ⟨y, ys, rfl⟩ := List.exists_cons_of_ne_nil hxs.ne_nil
    have hhead : rest.head? = some y := by rw [← List.nil_append rest, ← hrest, hmore]; rfl
    exact hxs.not_separator y List.mem_cons_self (hstop y hhead)

/-- A part of a line up to its mark: a token among spaces and tabs. -/
lemma field_sound {p q : Peg Rule} {y : Char}
    (h : (spaces ++ (p ++ (spaces ++ (exactly [y] ++ q)))).Reads c xs ns) :
    ∃ a s b zs d ms ks, xs = a ++ (s ++ b) ++ y :: zs ∧ Blank a ∧ Blank b ∧ p.Reads d s ms ∧
      q.Reads (c.pass (a ++ (s ++ b) ++ [y])) zs ks ∧ ns = ms ++ ks := by
  obtain ⟨a, _, _, _, ha, h₁, rfl, rfl⟩ := reads_append_iff.1 h
  obtain ⟨s, ms, _, _, hs, h₂, rfl, rfl⟩ := reads_append_iff.1 h₁
  obtain ⟨b, _, _, _, hb, h₃, rfl, rfl⟩ := reads_append_iff.1 h₂
  obtain ⟨_, _, zs, ks, hy, hq, rfl, rfl⟩ := reads_append_iff.1 h₃
  obtain ⟨rfl, ha, -⟩ := reads_spaces_iff.1 ha
  obtain ⟨rfl, hb, -⟩ := reads_spaces_iff.1 hb
  obtain ⟨rfl, rfl, -⟩ := (reads_exactly_iff _).1 hy
  exact ⟨a, s, b, zs, _, ms, ks, by simp, ha, hb, hs, by simpa using hq, by simp⟩

lemma reads_field {p q : Peg Rule} {y : Char} {zs : List Char} (ha : spaces.Reads c a [])
    (hs : p.Reads (c.pass a) s ms) (hb : Blank b) (hy : ¬ (y = ' ' ∨ y = '\t'))
    (hrest : c.rest = a ++ (s ++ b) ++ y :: rest)
    (hq : q.Reads (c.pass (a ++ (s ++ b) ++ [y])) zs ns) :
    (spaces ++ (p ++ (spaces ++ (exactly [y] ++ q)))).Reads c (a ++ (s ++ b) ++ y :: zs)
      (ms ++ ns) := by
  have hrest₁ : (c.pass (a ++ s)).rest = b ++ y :: rest :=
    Cursor.rest_pass (by simpa using hrest)
  have hrest₂ : (c.pass (a ++ (s ++ b))).rest = y :: rest := Cursor.rest_pass hrest
  have h₁ : spaces.Reads ((c.pass a).pass s) b [] := by
    simpa using reads_spaces hb hrest₁ (by simpa using hy)
  have h₂ : (exactly [y] : Peg Rule).Reads (((c.pass a).pass s).pass b) [y] [] := by
    simpa using reads_mark hrest₂
  have h₃ : q.Reads ((((c.pass a).pass s).pass b).pass [y]) zs ns := by simpa using hq
  simpa using ha.append (hs.append (h₁.append (h₂.append h₃)))

lemma transition_eq :
    transition = branch .transition (spaces ++ (source ++ (spaces ++ (exactly [':'] ++
      (spaces ++ (label ++ (spaces ++ (exactly ['>'] ++ (spaces ++ (targets ++ eol)))))))))) := rfl

/-- A matched transition has the three parts of its line. -/
lemma transition_sound (h : transition.Reads c xs ns) :
    ∃ l e span s₁ s₂ s₃ p y ts, xs = l ++ e ∧ Ending e (c.pass xs).rest ∧
      ns = [.branch .transition span [.token .source s₁ p, .token .label s₂ y,
        .branch .targets s₃ ts]] ∧
      HoldsTransition l ⟨p, symbolOf y, ts.map Node.text⟩ := by
  rw [transition_eq] at h
  obtain ⟨ms, hms, rfl⟩ := (reads_branch_iff _).1 h
  obtain ⟨a₁, p, b₁, _, _, _, _, rfl, ha₁, hb₁, hp, h₁, rfl⟩ := field_sound hms
  obtain ⟨a₂, y, b₂, _, _, _, _, rfl, ha₂, hb₂, hy, h₂, rfl⟩ := field_sound h₁
  obtain ⟨a₃, _, _, _, ha₃, h₃, rfl, rfl⟩ := reads_append_iff.1 h₂
  obtain ⟨l, e, s₃, ts, rfl, he, rfl, hts⟩ := targets_sound h₃
  obtain ⟨hlabel, s₁, rfl⟩ := tokenIdent_sound hp
  obtain ⟨hsymbol, s₂, rfl⟩ := label_sound hy
  obtain ⟨rfl, ha₃, -⟩ := reads_spaces_iff.1 ha₃
  refine ⟨a₁ ++ (p ++ b₁) ++ ':' :: (a₂ ++ (y ++ b₂) ++ '>' :: (a₃ ++ l)), e, _, s₁, s₂, s₃,
    String.ofList p, String.ofList y, ts, by simp, by simpa using he, rfl, ?_⟩
  refine ⟨_, _, _, rfl, ⟨a₁, b₁, ha₁, hb₁, by simpa using hlabel, by simp⟩,
    holdsSymbol_symbolOf ha₂ hb₂ hsymbol, ?_⟩
  exact hts.blank_append ha₃

lemma reads_targetsField {ss : List String} (h : HoldsLabels l ss)
    (hrest : c.rest = l ++ (e ++ rest)) (he : Ending e rest) :
    ∃ span ts, (spaces ++ (targets ++ eol)).Reads c (l ++ e) [.branch .targets span ts] ∧
      ts.map Node.text = ss := by
  obtain ⟨a, t, r, ts, rfl, rfl, ha, ht, hr⟩ := holdsLabels_iff.1 h
  have hrest : c.rest = a ++ (t.toList ++ (r ++ (e ++ rest))) := by simpa using hrest
  obtain ⟨span, ns, htargets, hns⟩ := reads_targets ht hr (Cursor.rest_pass hrest) he
  have := (reads_spaces ha hrest ht.head_not_blank).append htargets
  exact ⟨span, ns, by simpa using this, hns⟩

lemma reads_symbolField {q : Peg Rule} {y : String} {zs : List Char} (h : HoldsSymbol l y)
    (hrest : c.rest = l ++ '>' :: rest) (hq : q.Reads (c.pass (l ++ ['>'])) zs ns) :
    ∃ span text, (spaces ++ (label ++ (spaces ++ (exactly ['>'] ++ q)))).Reads c (l ++ '>' :: zs)
      (.token .label span text :: ns) ∧ symbolOf text = y := by
  obtain ⟨a, s, b, rfl, ha, hb, hs, hsymbol⟩ := h.exists_label
  have hrest' : c.rest = a ++ (s ++ (b ++ '>' :: rest)) := by simpa using hrest
  have hstop : ∀ x ∈ (s ++ (b ++ '>' :: rest)).head?, ¬ (x = ' ' ∨ x = '\t') := by
    rcases hs with hs | ⟨rfl, rfl⟩
    · exact hs.head_not_blank
    · simp
  have hlabel := reads_label (hs.imp_right And.left) (Cursor.rest_pass hrest')
    (hb.head_mem_separators (by simp [separators]))
  exact ⟨_, _, reads_field (reads_spaces ha hrest' hstop) hlabel hb (by simp) hrest hq, hsymbol⟩

lemma reads_sourceField {q : Peg Rule} {p : String} {zs : List Char} (h : HoldsLabel l p)
    (hrest : c.rest = l ++ ':' :: rest) (hq : q.Reads (c.pass (l ++ [':'])) zs ns) :
    ∃ span, (spaces ++ (source ++ (spaces ++ (exactly [':'] ++ q)))).Reads c (l ++ ':' :: zs)
      (.token .source span p :: ns) := by
  obtain ⟨a, b, ha, hb, hp, rfl⟩ := h
  have hrest' : c.rest = a ++ (p.toList ++ (b ++ ':' :: rest)) := by simpa using hrest
  have hsource : source.Reads (c.pass a) p.toList _ :=
    reads_tokenIdent .source hp (Cursor.rest_pass hrest')
      (hb.head_mem_separators (by simp [separators]))
  rw [String.ofList_toList] at hsource
  exact ⟨_, reads_field (reads_spaces ha hrest' hp.head_not_blank) hsource hb (by simp) hrest hq⟩

lemma reads_transition {t : Transition} (h : HoldsTransition l t)
    (hrest : c.rest = l ++ (e ++ rest)) (he : Ending e rest) :
    ∃ n, transition.Reads c (l ++ e) [n] ∧ transitionOf n = t := by
  obtain ⟨l₁, l₂, l₃, rfl, hp, hy, ht⟩ := h
  have hrest₁ : c.rest = l₁ ++ ':' :: (l₂ ++ '>' :: (l₃ ++ (e ++ rest))) := by simpa using hrest
  have hrest₂ := Cursor.rest_pass_concat hrest₁
  -- From the last part of the line to the first.
  obtain ⟨s₃, ts, h₃, hts⟩ := reads_targetsField ht (Cursor.rest_pass_concat hrest₂) he
  obtain ⟨s₂, text, h₂, htext⟩ := reads_symbolField hy hrest₂ h₃
  obtain ⟨s₁, h₁⟩ := reads_sourceField hp hrest₁ h₂
  have h := (reads_branch_iff .transition).2 ⟨_, h₁, rfl⟩
  rw [← transition_eq] at h
  refine ⟨_, by simpa using h, ?_⟩
  show (⟨t.source, symbolOf text, ts.map Node.text⟩ : Transition) = t
  rw [htext, hts]

lemma readsLines_transition : ReadsLines transition HoldsTransition transitionOf where
  sound h := by
    obtain ⟨l, e, span, s₁, s₂, s₃, p, y, ts, rfl, he, rfl, ht⟩ := transition_sound h
    exact ⟨l, e, _, rfl, he, rfl, ht⟩
  complete hrest he h := reads_transition h hrest he

end Automata.Specification.Grammar
