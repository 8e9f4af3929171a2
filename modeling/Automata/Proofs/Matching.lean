import Automata.Specification.Peg
import Mathlib

/-!
# Matches of parsing expressions

A match takes the characters that come next and puts the cursor behind them. So what an expression
does at a cursor is said by a relation: `p.Reads c xs ns` when `p` matches the characters `xs` at `c`
with the nodes `ns`. There is one such match at most, and for every form of expression an equivalence
leads it back to matches of the parts.
-/

namespace Automata.Specification

variable {ρ : Type} {c d : Cursor} {x : Char} {xs ys rest : List Char}

/-! ### Passing characters -/

/-- The cursor behind the characters `xs`, when these come next. -/
def Cursor.pass (c : Cursor) (xs : List Char) : Cursor :=
  ⟨c.index + xs.length, c.offset + (xs.map Char.utf8Size).sum, c.rest.drop xs.length⟩

@[simp] lemma Cursor.pass_nil (c : Cursor) : c.pass [] = c := by simp [pass]

@[simp] lemma Cursor.pass_pass (c : Cursor) (xs ys : List Char) :
    (c.pass xs).pass ys = c.pass (xs ++ ys) := by
  simp [pass, Nat.add_assoc]

lemma Cursor.rest_pass (h : c.rest = xs ++ rest) : (c.pass xs).rest = rest := by
  simp [pass, h]

lemma Cursor.rest_pass_concat (h : c.rest = xs ++ x :: rest) : (c.pass (xs ++ [x])).rest = rest :=
  rest_pass (by rw [h, List.append_assoc]; rfl)

lemma Cursor.append_rest_pass (h : xs <+: c.rest) : xs ++ (c.pass xs).rest = c.rest := by
  obtain ⟨rest, hrest⟩ := h
  rw [rest_pass hrest.symm, hrest]

lemma Cursor.append_prefix (h : xs <+: c.rest) (h' : ys <+: (c.pass xs).rest) :
    xs ++ ys <+: c.rest := by
  rw [← append_rest_pass h]
  exact (List.prefix_append_right_inj xs).2 h'

/-- The cursor tells how much was passed. -/
lemma Cursor.eq_of_pass_eq (hx : xs <+: c.rest) (hy : ys <+: c.rest) (h : c.pass xs = c.pass ys) :
    xs = ys := by
  have hrest : (c.pass xs).rest = (c.pass ys).rest := by rw [h]
  have happ : xs ++ (c.pass xs).rest = ys ++ (c.pass ys).rest := by
    rw [append_rest_pass hx, append_rest_pass hy]
  rw [hrest] at happ
  exact List.append_cancel_right happ

lemma Cursor.advance_eq_pass (h : c.rest = x :: rest) : c.advance x rest = c.pass [x] := by
  simp [advance, pass, h]

lemma Cursor.any?_eq_some_iff : c.any? = some d ↔ ∃ x, [x] <+: c.rest ∧ d = c.pass [x] := by
  rw [any?]
  split
  · next h => simp [h]
  · next x rest h => simp [h, advance_eq_pass h, eq_comm]

lemma Cursor.skip?_eq_some_iff : Cursor.skip? xs c = some d ↔ xs <+: c.rest ∧ d = c.pass xs := by
  induction xs generalizing c with
  | nil => simp [skip?, eq_comm]
  | cons x xs ih =>
    rw [skip?]
    split
    · next h => simp [h]
    · next y rest h =>
      by_cases hxy : x = y
      · subst hxy
        rw [if_pos rfl, ih, advance_eq_pass h, pass_pass, List.singleton_append,
          rest_pass (show c.rest = [x] ++ rest from h), h, List.prefix_cons_inj]
      · rw [if_neg hxy, h, List.cons_prefix_cons]
        simp [hxy]

lemma Cursor.textTo_pass (h : xs <+: c.rest) : c.textTo (c.pass xs) = String.ofList xs := by
  obtain ⟨rest, hrest⟩ := h
  simp [textTo, pass, ← hrest]

/-! ### The relation -/

namespace Peg

/-- `p` matches the characters `xs` at `c`, and the nodes are `ns`. -/
def Reads (p : Peg ρ) (c : Cursor) (xs : List Char) (ns : List (Node ρ)) : Prop :=
  xs <+: c.rest ∧ (p.read c).outcome = some (c.pass xs, ns)

/-- Nothing that comes next at `c` is matched by `p`. -/
def Fails (p : Peg ρ) (c : Cursor) : Prop :=
  ∀ xs ns, ¬ p.Reads c xs ns

variable {p q : Peg ρ} {ns ms : List (Node ρ)}

lemma Reads.unique (h : p.Reads c xs ns) (h' : p.Reads c ys ms) : xs = ys ∧ ns = ms := by
  have heq := h.2.symm.trans h'.2
  simp only [Option.some.injEq, Prod.mk.injEq] at heq
  exact ⟨Cursor.eq_of_pass_eq h.1 h'.1 heq.1, heq.2⟩

lemma Reads.rest_eq (h : p.Reads c xs ns) : c.rest = xs ++ (c.pass xs).rest :=
  (Cursor.append_rest_pass h.1).symm

/-- Whatever is done at a cursor, characters that come next are passed. -/
def Passes (read : Cursor → Reading ρ) : Prop :=
  ∀ c d ns, (read c).outcome = some (d, ns) → ∃ xs, xs <+: c.rest ∧ d = c.pass xs

lemma Passes.readMany {read : Cursor → Reading ρ} (h : Passes read) (b : List Char)
    (nodes : List (Node ρ)) (a : Attempts ρ)
    (hr : (readMany read b c nodes a).outcome = some (d, ns)) :
    ∃ xs, xs <+: c.rest ∧ d = c.pass xs := by
  induction b generalizing c nodes a with
  | nil =>
    rw [Peg.readMany] at hr
    cases hc : (read c).outcome with
    | none =>
      simp only [hc, Option.some.injEq, Prod.mk.injEq] at hr
      exact ⟨[], List.nil_prefix, by simp [hr.1]⟩
    | some r =>
      simp only [hc, Option.some.injEq, Prod.mk.injEq] at hr
      exact h c d r.2 (by rw [hc, ← hr.1])
  | cons y b ih =>
    rw [Peg.readMany] at hr
    cases hc : (read c).outcome with
    | none =>
      simp only [hc, Option.some.injEq, Prod.mk.injEq] at hr
      exact ⟨[], List.nil_prefix, by simp [hr.1]⟩
    | some r =>
      simp only [hc] at hr
      obtain ⟨xs, hxs, hd⟩ := h c r.1 r.2 hc
      rw [hd] at hr
      obtain ⟨ys, hys, rfl⟩ := ih _ _ hr
      exact ⟨xs ++ ys, Cursor.append_prefix hxs hys, Cursor.pass_pass c xs ys⟩

lemma passes_read (p : Peg ρ) : Passes p.read := by
  induction p with
  | exactly xs =>
    intro c d ns h
    simp only [outcome_exactly, Option.map_eq_some_iff, Prod.mk.injEq] at h
    obtain ⟨_, hskip, rfl, -⟩ := h
    exact ⟨xs, Cursor.skip?_eq_some_iff.1 hskip⟩
  | anyChar =>
    intro c d ns h
    simp only [outcome_anyChar, Option.map_eq_some_iff, Prod.mk.injEq] at h
    obtain ⟨_, hany, rfl, -⟩ := h
    obtain ⟨x, hx⟩ := Cursor.any?_eq_some_iff.1 hany
    exact ⟨[x], hx⟩
  | atEnd =>
    intro c d ns h
    rw [outcome_atEnd] at h
    split at h
    · cases h
      exact ⟨[], List.nil_prefix, by simp⟩
    · nomatch h
  | seq p q ihp ihq =>
    intro c d ns h
    replace h : ((p ++ q).read c).outcome = some (d, ns) := h
    simp only [outcome_append, Option.bind_eq_some_iff, Option.map_eq_some_iff,
      Prod.mk.injEq, Prod.exists] at h
    obtain ⟨e, ns', hp, f, ns'', hq, rfl, -⟩ := h
    obtain ⟨xs, hxs, rfl⟩ := ihp c e ns' hp
    obtain ⟨ys, hys, rfl⟩ := ihq _ f ns'' hq
    exact ⟨xs ++ ys, Cursor.append_prefix hxs hys, Cursor.pass_pass c xs ys⟩
  | choice p q ihp ihq =>
    intro c d ns h
    rw [outcome_choice, Option.or_eq_some_iff] at h
    rcases h with hp | ⟨-, hq⟩
    · exact ihp c d ns hp
    · exact ihq c d ns hq
  | many p ih =>
    intro c d ns h
    exact ih.readMany c.rest [] .none h
  | ahead p ih =>
    intro c d ns h
    simp only [outcome_ahead, Option.map_eq_some_iff, Prod.mk.injEq] at h
    obtain ⟨_, -, rfl, -⟩ := h
    exact ⟨[], List.nil_prefix, by simp⟩
  | notAhead p ih =>
    intro c d ns h
    rw [outcome_notAhead] at h
    split at h
    · nomatch h
    · cases h
      exact ⟨[], List.nil_prefix, by simp⟩
  | token rule p ih =>
    intro c d ns h
    simp only [outcome_token, Option.map_eq_some_iff, Prod.mk.injEq, Prod.exists] at h
    obtain ⟨e, ns', hp, rfl, -⟩ := h
    exact ih c e ns' hp
  | branch rule p ih =>
    intro c d ns h
    simp only [outcome_branch, Option.map_eq_some_iff, Prod.mk.injEq, Prod.exists] at h
    obtain ⟨e, ns', hp, rfl, -⟩ := h
    exact ih c e ns' hp

lemma exists_reads (h : (p.read c).outcome = some (d, ns)) : ∃ xs, d = c.pass xs ∧ p.Reads c xs ns := by
  obtain ⟨xs, hxs, rfl⟩ := passes_read p c d ns h
  exact ⟨xs, rfl, hxs, h⟩

lemma fails_iff : p.Fails c ↔ (p.read c).outcome = none := by
  constructor
  · intro hf
    cases h : (p.read c).outcome with
    | none => rfl
    | some r =>
      obtain ⟨xs, -, hr⟩ := exists_reads (p := p) (c := c) h
      exact (hf xs r.2 hr).elim
  · intro h xs ns hr
    rw [hr.2] at h
    nomatch h

lemma not_fails_iff : ¬ p.Fails c ↔ ∃ xs ns, p.Reads c xs ns := by
  simp [Fails]

/-! ### Forms of expressions -/

lemma reads_exactly_iff (zs : List Char) :
    (exactly zs : Peg ρ).Reads c xs ns ↔ xs = zs ∧ ns = [] ∧ zs <+: c.rest := by
  constructor
  · rintro ⟨hxs, h⟩
    simp only [outcome_exactly, Option.map_eq_some_iff, Prod.mk.injEq] at h
    obtain ⟨_, hskip, rfl, rfl⟩ := h
    obtain ⟨hzs, heq⟩ := Cursor.skip?_eq_some_iff.1 hskip
    exact ⟨Cursor.eq_of_pass_eq hxs hzs heq, rfl, hzs⟩
  · rintro ⟨rfl, rfl, h⟩
    refine ⟨h, ?_⟩
    rw [outcome_exactly, Cursor.skip?_eq_some_iff.2 ⟨h, rfl⟩, Option.map_some]

lemma reads_anyChar_iff :
    (anyChar : Peg ρ).Reads c xs ns ↔ ∃ x, xs = [x] ∧ ns = [] ∧ [x] <+: c.rest := by
  constructor
  · rintro ⟨hxs, h⟩
    simp only [outcome_anyChar, Option.map_eq_some_iff, Prod.mk.injEq] at h
    obtain ⟨_, hany, rfl, rfl⟩ := h
    obtain ⟨x, hx, heq⟩ := Cursor.any?_eq_some_iff.1 hany
    exact ⟨x, Cursor.eq_of_pass_eq hxs hx heq, rfl, hx⟩
  · rintro ⟨x, rfl, rfl, h⟩
    refine ⟨h, ?_⟩
    rw [outcome_anyChar, Cursor.any?_eq_some_iff.2 ⟨x, h, rfl⟩, Option.map_some]

lemma reads_atEnd_iff :
    (atEnd : Peg ρ).Reads c xs ns ↔ xs = [] ∧ ns = [] ∧ c.rest = [] := by
  rw [Reads]
  rw [outcome_atEnd]
  cases h : c.rest with
  | nil => simp +contextual [eq_comm]
  | cons x rest => simp

lemma reads_append_iff :
    (p ++ q).Reads c xs ns ↔ ∃ ys ms zs ks, p.Reads c ys ms ∧ q.Reads (c.pass ys) zs ks ∧
      xs = ys ++ zs ∧ ns = ms ++ ks := by
  constructor
  · rintro ⟨hxs, h⟩
    simp only [outcome_append, Option.bind_eq_some_iff, Option.map_eq_some_iff,
      Prod.mk.injEq, Prod.exists] at h
    obtain ⟨_, ms, hp, _, ks, hq, heq, rfl⟩ := h
    obtain ⟨ys, rfl, hys⟩ := exists_reads hp
    obtain ⟨zs, rfl, hzs⟩ := exists_reads hq
    rw [Cursor.pass_pass] at heq
    exact ⟨ys, ms, zs, ks, hys, hzs,
      (Cursor.eq_of_pass_eq (Cursor.append_prefix hys.1 hzs.1) hxs heq).symm, rfl⟩
  · rintro ⟨ys, ms, zs, ks, hp, hq, rfl, rfl⟩
    refine ⟨Cursor.append_prefix hp.1 hq.1, ?_⟩
    simp only [outcome_append, hp.2, Option.bind_some, hq.2, Option.map_some, Cursor.pass_pass]

lemma Reads.append (hp : p.Reads c xs ns) (hq : q.Reads (c.pass xs) ys ms) :
    (p ++ q).Reads c (xs ++ ys) (ns ++ ms) :=
  reads_append_iff.2 ⟨xs, ns, ys, ms, hp, hq, rfl, rfl⟩

lemma reads_choice_iff :
    (choice p q).Reads c xs ns ↔ p.Reads c xs ns ∨ p.Fails c ∧ q.Reads c xs ns := by
  unfold Reads
  rw [outcome_choice, Option.or_eq_some_iff, fails_iff, and_or_left, and_left_comm]

lemma fails_choice_iff : (choice p q).Fails c ↔ p.Fails c ∧ q.Fails c := by
  simp only [fails_iff, outcome_choice, Option.or_eq_none_iff]

lemma reads_ahead_iff : (ahead p).Reads c xs ns ↔ xs = [] ∧ ns = [] ∧ ∃ ys ms, p.Reads c ys ms := by
  constructor
  · rintro ⟨hxs, h⟩
    simp only [outcome_ahead, Option.map_eq_some_iff, Prod.mk.injEq] at h
    obtain ⟨r, hp, heq, rfl⟩ := h
    obtain ⟨ys, -, hys⟩ := exists_reads (show (p.read c).outcome = some (r.1, r.2) from hp)
    exact ⟨Cursor.eq_of_pass_eq hxs List.nil_prefix (by simp [← heq]), rfl, ys, r.2, hys⟩
  · rintro ⟨rfl, rfl, ys, ms, h⟩
    refine ⟨List.nil_prefix, ?_⟩
    rw [outcome_ahead, h.2, Option.map_some, Cursor.pass_nil]

lemma reads_notAhead_iff : (notAhead p).Reads c xs ns ↔ xs = [] ∧ ns = [] ∧ p.Fails c := by
  rw [fails_iff]
  rw [Reads]
  rw [outcome_notAhead]
  cases h : (p.read c).outcome with
  | some r => simp
  | none =>
    constructor
    · rintro ⟨hxs, heq⟩
      simp only [Option.isSome_none, Bool.false_eq_true, if_false, Option.some.injEq,
        Prod.mk.injEq] at heq
      exact ⟨Cursor.eq_of_pass_eq hxs List.nil_prefix (by simp [← heq.1]), heq.2.symm, rfl⟩
    · rintro ⟨rfl, rfl, -⟩
      simp

lemma reads_token_iff (rule : ρ) :
    (token rule p).Reads c xs ns ↔ ∃ ms, p.Reads c xs ms ∧
      ns = [.token rule ⟨c.offset, (c.pass xs).offset⟩ (String.ofList xs)] := by
  constructor
  · rintro ⟨hxs, h⟩
    simp only [outcome_token, Option.map_eq_some_iff, Prod.mk.injEq, Prod.exists] at h
    obtain ⟨_, ms, hp, rfl, rfl⟩ := h
    exact ⟨ms, ⟨hxs, hp⟩, by rw [Cursor.textTo_pass hxs]⟩
  · rintro ⟨ms, hp, rfl⟩
    refine ⟨hp.1, ?_⟩
    simp only [outcome_token, hp.2, Option.map_some, Cursor.textTo_pass hp.1]

lemma reads_branch_iff (rule : ρ) :
    (branch rule p).Reads c xs ns ↔ ∃ ms, p.Reads c xs ms ∧
      ns = [.branch rule ⟨c.offset, (c.pass xs).offset⟩ ms] := by
  constructor
  · rintro ⟨hxs, h⟩
    simp only [outcome_branch, Option.map_eq_some_iff, Prod.mk.injEq, Prod.exists] at h
    obtain ⟨_, ms, hp, rfl, rfl⟩ := h
    exact ⟨ms, ⟨hxs, hp⟩, rfl⟩
  · rintro ⟨ms, hp, rfl⟩
    refine ⟨hp.1, ?_⟩
    simp only [outcome_branch, hp.2, Option.map_some]

lemma reads_optional_iff :
    (optional p).Reads c xs ns ↔ p.Reads c xs ns ∨ p.Fails c ∧ xs = [] ∧ ns = [] := by
  rw [optional, reads_choice_iff, reads_exactly_iff]
  simp

/-! ### Repetition -/

/-- Every match of `p` is of a character or more. -/
def Nonempty (p : Peg ρ) : Prop :=
  ∀ c ns, ¬ p.Reads c [] ns

lemma Nonempty.consumes (h : p.Nonempty) : Consumes p.read := by
  intro c d ns hr
  obtain ⟨xs, rfl, hxs⟩ := exists_reads hr
  rw [hxs.rest_eq, List.length_append]
  cases xs with
  | nil => exact (h c ns hxs).elim
  | cons x xs => simp

lemma reads_many_of_fails (h : p.Nonempty) (hf : p.Fails c) : (many p).Reads c [] [] := by
  refine ⟨List.nil_prefix, ?_⟩
  rw [outcome_many h.consumes, fails_iff.1 hf, Cursor.pass_nil]

lemma Reads.many (h : p.Nonempty) (hp : p.Reads c xs ns) (hm : (many p).Reads (c.pass xs) ys ms) :
    (many p).Reads c (xs ++ ys) (ns ++ ms) := by
  refine ⟨Cursor.append_prefix hp.1 hm.1, ?_⟩
  rw [outcome_many h.consumes, hp.2]
  simp only [hm.2, Option.map_some, Cursor.pass_pass]

/-- A repetition matches, and what it matches is one match after another until there is none. -/
lemma many_induction (h : p.Nonempty) {motive : Cursor → List Char → List (Node ρ) → Prop}
    (stop : ∀ c, p.Fails c → motive c [] [])
    (more : ∀ c xs ns ys ms, p.Reads c xs ns → motive (c.pass xs) ys ms →
      motive c (xs ++ ys) (ns ++ ms)) (c : Cursor) :
    ∃ xs ns, (many p).Reads c xs ns ∧ motive c xs ns := by
  -- Every match shortens what comes next.
  induction hn : c.rest.length using Nat.strongRecOn generalizing c with
  | ind n ih =>
    by_cases hf : p.Fails c
    · exact ⟨[], [], reads_many_of_fails h hf, stop c hf⟩
    · obtain ⟨xs, ns, hp⟩ := not_fails_iff.1 hf
      have hlt : (c.pass xs).rest.length < n := hn ▸ h.consumes hp.2
      obtain ⟨ys, ms, hm, hmot⟩ := ih _ hlt (c.pass xs) rfl
      exact ⟨xs ++ ys, ns ++ ms, hp.many h hm, more c xs ns ys ms hp hmot⟩

/-- What holds of repetitions by induction holds of every match. -/
lemma Reads.many_induction (h : p.Nonempty) (hm : (Peg.many p).Reads c xs ns)
    {motive : Cursor → List Char → List (Node ρ) → Prop}
    (stop : ∀ c, p.Fails c → motive c [] [])
    (more : ∀ c xs ns ys ms, p.Reads c xs ns → motive (c.pass xs) ys ms →
      motive c (xs ++ ys) (ns ++ ms)) : motive c xs ns := by
  obtain ⟨ys, ms, hread, hmot⟩ := Peg.many_induction h stop more c
  obtain ⟨rfl, rfl⟩ := hm.unique hread
  exact hmot

/-! ### One character of a kind -/

/-- `p` matches the next character if it is of the kind `S`, and leaves no node. -/
def ReadsOne (p : Peg ρ) (S : Char → Prop) : Prop :=
  ∀ c xs ns, p.Reads c xs ns ↔ ∃ x, S x ∧ xs = [x] ∧ ns = [] ∧ [x] <+: c.rest

variable {S T : Char → Prop}

lemma readsOne_exactly (y : Char) : (exactly [y] : Peg ρ).ReadsOne (· = y) := by
  intro c xs ns
  simp [reads_exactly_iff]

lemma ReadsOne.fails_iff (h : p.ReadsOne S) : p.Fails c ↔ ∀ x ∈ c.rest.head?, ¬ S x := by
  constructor
  · intro hf x hx hS
    obtain ⟨rest, hrest⟩ := List.head?_eq_some_iff.1 hx
    exact hf [x] [] ((h c _ _).2 ⟨x, hS, rfl, rfl, by simp [hrest]⟩)
  · intro hstop xs ns hr
    obtain ⟨x, hS, -, -, rest, hrest⟩ := (h c xs ns).1 hr
    exact hstop x (by simp [← hrest]) hS

lemma ReadsOne.choice (hp : p.ReadsOne S) (hq : q.ReadsOne T) :
    (choice p q).ReadsOne fun x => S x ∨ T x := by
  intro c xs ns
  rw [reads_choice_iff, hp.fails_iff, hp c, hq c]
  constructor
  · rintro (⟨x, hx, h⟩ | ⟨-, x, hx, h⟩)
    · exact ⟨x, .inl hx, h⟩
    · exact ⟨x, .inr hx, h⟩
  · rintro ⟨x, hx, h⟩
    by_cases hS : S x
    · exact .inl ⟨x, hS, h⟩
    · refine .inr ⟨?_, x, hx.resolve_left hS, h⟩
      obtain ⟨rest, hrest⟩ := h.2.2
      simpa [← hrest] using hS

lemma ReadsOne.nonempty (h : p.ReadsOne S) : p.Nonempty := by
  intro c ns hr
  obtain ⟨x, -, hx, -⟩ := (h c [] ns).1 hr
  nomatch hx

/-- A repetition takes as many characters of the kind as there are. -/
lemma ReadsOne.reads_many_iff (h : p.ReadsOne S) :
    (many p).Reads c xs ns ↔
      ns = [] ∧ (∀ x ∈ xs, S x) ∧ ∃ rest, c.rest = xs ++ rest ∧ ∀ x ∈ rest.head?, ¬ S x := by
  constructor
  · intro hm
    refine hm.many_induction h.nonempty (motive := fun c xs ns => ns = [] ∧ (∀ x ∈ xs, S x) ∧
      ∃ rest, c.rest = xs ++ rest ∧ ∀ x ∈ rest.head?, ¬ S x) ?_ ?_
    · intro c hf
      exact ⟨rfl, by simp, c.rest, rfl, h.fails_iff.1 hf⟩
    · rintro c xs ns ys ms hp ⟨rfl, hys, rest, hrest, hstop⟩
      obtain ⟨x, hx, rfl, rfl, -⟩ := (h c xs ns).1 hp
      refine ⟨rfl, ?_, rest, ?_, hstop⟩
      · rintro y hy
        rcases List.mem_append.1 hy with hy | hy
        · rwa [List.mem_singleton.1 hy]
        · exact hys y hy
      · rw [hp.rest_eq, hrest, List.append_assoc]
  · rintro ⟨rfl, hxs, rest, hrest, hstop⟩
    induction xs generalizing c with
    | nil => exact reads_many_of_fails h.nonempty (h.fails_iff.2 (by simpa [hrest] using hstop))
    | cons x xs ih =>
      rw [List.forall_mem_cons] at hxs
      have hx : p.Reads c [x] [] := (h c _ _).2 ⟨x, hxs.1, rfl, rfl, by simp [hrest]⟩
      have hxs' : (many p).Reads (c.pass [x]) xs [] := by
        exact ih hxs.2 (Cursor.rest_pass hrest)
      exact hx.many h.nonempty hxs'

lemma ReadsOne.reads_many (h : p.ReadsOne S) (hxs : ∀ x ∈ xs, S x) (hrest : c.rest = xs ++ rest)
    (hstop : ∀ x ∈ rest.head?, ¬ S x) : (many p).Reads c xs [] :=
  h.reads_many_iff.2 ⟨rfl, hxs, rest, hrest, hstop⟩

end Peg

end Automata.Specification
