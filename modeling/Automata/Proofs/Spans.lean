import Automata.Proofs.Matching

/-!
# Spans of syntax nodes

The nodes of a match stand for pieces of the characters that it takes. The pieces come one behind
the other, and the parts of a node stand for pieces of its own piece. This holds of every
expression, so in every syntax tree the spans are nested, and those of siblings are in order and do
not overlap.
-/

namespace Automata.Specification

open String (utf8Len)

variable {ρ : Type} {a : Nat} {c d : Cursor} {xs ys text after : List Char} {n m : Node ρ}
  {ns ms : List (Node ρ)} {p : Peg ρ}

/-! ### Nodes over characters -/

/-- A node that was matched as a whole has the text `xs`. -/
def Node.Shows (xs : List Char) : Node ρ → Prop
  | .token _ _ text => text = String.ofList xs
  | .branch _ _ _ => True

/-- The nodes stand for pieces of the characters `xs`, which begin at the byte `a`. There may be
characters before a piece that belong to none. -/
inductive Covers : Nat → List Char → List (Node ρ) → Prop
  | nil (a : Nat) (xs : List Char) : Covers a xs []
  | cons {a : Nat} {gap xs rest : List Char} {n : Node ρ} {ns : List (Node ρ)}
      (hstart : n.span.start = a + utf8Len gap) (hstop : n.span.stop = n.span.start + utf8Len xs)
      (hshows : n.Shows xs) (hparts : Covers n.span.start xs n.children)
      (hrest : Covers n.span.stop rest ns) : Covers a (gap ++ (xs ++ rest)) (n :: ns)

namespace Covers

lemma single (hstart : n.span.start = a) (hstop : n.span.stop = a + utf8Len xs)
    (hshows : n.Shows xs) (hparts : Covers a xs n.children) : Covers a xs [n] := by
  subst hstart
  have hgap : n.span.start = n.span.start + utf8Len [] := rfl
  simpa using Covers.cons hgap hstop hshows hparts (.nil n.span.stop [])

lemma append_left (xs : List Char) (h : Covers (a + utf8Len xs) ys ns) :
    Covers a (xs ++ ys) ns := by
  cases h with
  | nil => exact .nil a _
  | cons hstart hstop hshows hparts hrest =>
    rw [← List.append_assoc]
    refine .cons ?_ hstop hshows hparts hrest
    rw [hstart, String.utf8Len_append, Nat.add_assoc]

lemma append (h : Covers a xs ns) (h' : Covers (a + utf8Len xs) ys ms) :
    Covers a (xs ++ ys) (ns ++ ms) := by
  induction h with
  | nil a xs => exact h'.append_left xs
  | @cons a gap xs rest n ns hstart hstop hshows hparts hrest _ ih =>
    have hend : a + utf8Len (gap ++ (xs ++ rest)) = n.span.stop + utf8Len rest := by
      rw [String.utf8Len_append, String.utf8Len_append]
      omega
    rw [List.append_assoc, List.append_assoc]
    exact .cons hstart hstop hshows hparts (ih (hend ▸ h'))

/-- The spans lie inside the characters, none of them ends before it starts, and each one starts
where the one before it has ended or later. -/
lemma spans (h : Covers a xs ns) :
    (∀ n ∈ ns, a ≤ n.span.start ∧ n.span.start ≤ n.span.stop ∧ n.span.stop ≤ a + utf8Len xs) ∧
      ns.Pairwise fun n m => n.span.stop ≤ m.span.start := by
  induction h with
  | nil => simp
  | @cons a gap xs rest n ns hstart hstop _ _ _ _ ih =>
    obtain ⟨hinside, hordered⟩ := ih
    simp only [String.utf8Len_append, List.forall_mem_cons, List.pairwise_cons]
    refine ⟨⟨by omega, fun m hm => ?_⟩, fun m hm => (hinside m hm).1, hordered⟩
    have := hinside m hm
    omega

end Covers

/-! ### The nodes of a match -/

lemma Cursor.offset_pass (c : Cursor) (xs : List Char) :
    (c.pass xs).offset = c.offset + utf8Len xs := by
  have hsum : (xs.map Char.utf8Size).sum = utf8Len xs := by
    induction xs with
    | nil => rfl
    | cons x xs ih => simp [ih, Nat.add_comm]
  rw [pass, hsum]

namespace Peg

variable {read : Cursor → Reading ρ} {r : Cursor × List (Node ρ)}

lemma outcome_readMany_of_none (h : (read c).outcome = none) (b : List Char) :
    (readMany read b c [] .none).outcome = some (c, []) := by
  rw [readMany.eq_def]
  simp [h]

lemma outcome_readMany_nil (h : (read c).outcome = some r) :
    (readMany read [] c [] .none).outcome = some r := by
  rw [readMany.eq_def]
  simp [h]

lemma outcome_readMany_cons (h : (read c).outcome = some r) (y : Char) (b : List Char) :
    (readMany read (y :: b) c [] .none).outcome =
      (readMany read b r.1 [] .none).outcome.map (Prod.map id (r.2 ++ ·)) := by
  rw [readMany.eq_def]
  simp only [h]
  rw [outcome_readMany_nodes _ _ _ _ _ .none, List.reverseAux_eq, List.append_nil,
    List.reverse_reverse]
  rfl

/-- What holds of no match, and of a match in front of matches of which it holds, holds of every
repetition. -/
lemma Reads.many_cons_induction (h : (Peg.many p).Reads c xs ns)
    {motive : Cursor → List Char → List (Node ρ) → Prop} (stop : ∀ c, motive c [] [])
    (more : ∀ c xs ns ys ms, p.Reads c xs ns → motive (c.pass xs) ys ms →
      motive c (xs ++ ys) (ns ++ ms)) : motive c xs ns := by
  suffices hall : ∀ b c d ns, (readMany p.read b c [] .none).outcome = some (d, ns) →
      ∃ xs, xs <+: c.rest ∧ d = c.pass xs ∧ motive c xs ns by
    obtain ⟨ys, hys, heq, hmotive⟩ := hall c.rest c _ _ h.2
    rwa [Cursor.eq_of_pass_eq h.1 hys heq]
  have hstop : ∀ c d ns, some (c, []) = some (d, ns) →
      ∃ xs, xs <+: c.rest ∧ d = c.pass xs ∧ motive c xs ns := by
    rintro c _ _ ⟨⟩
    exact ⟨[], List.nil_prefix, c.pass_nil.symm, stop c⟩
  intro b
  induction b with
  | nil =>
    intro c d ns hr
    cases hc : (p.read c).outcome with
    | none => exact hstop c d ns ((outcome_readMany_of_none hc []).symm.trans hr)
    | some r =>
      rw [outcome_readMany_nil hc] at hr
      obtain ⟨xs, rfl, hxs⟩ := exists_reads (hc.trans hr)
      exact ⟨xs, hxs.1, rfl, by simpa using more c xs ns [] [] hxs (stop _)⟩
  | cons y b ih =>
    intro c d ns hr
    cases hc : (p.read c).outcome with
    | none => exact hstop c d ns ((outcome_readMany_of_none hc _).symm.trans hr)
    | some r =>
      rw [outcome_readMany_cons hc] at hr
      obtain ⟨⟨d', ms⟩, hrest, heq⟩ := Option.map_eq_some_iff.1 hr
      cases heq
      obtain ⟨e, ks⟩ := r
      obtain ⟨xs, rfl, hxs⟩ := exists_reads hc
      obtain ⟨ys, hys, rfl, hmotive⟩ := ih _ _ _ hrest
      exact ⟨xs ++ ys, Cursor.append_prefix hxs.1 hys, Cursor.pass_pass c xs ys,
        more c xs ks ys ms hxs hmotive⟩

/-- The nodes of a match stand for pieces of what it takes. -/
lemma Reads.covers (h : p.Reads c xs ns) : Covers c.offset xs ns := by
  induction p generalizing c xs ns with
  | exactly zs =>
    obtain ⟨-, rfl, -⟩ := (reads_exactly_iff zs).1 h
    exact .nil _ _
  | anyChar =>
    obtain ⟨x, -, rfl, -⟩ := reads_anyChar_iff.1 h
    exact .nil _ _
  | atEnd =>
    obtain ⟨-, rfl, -⟩ := reads_atEnd_iff.1 h
    exact .nil _ _
  | seq p q ihp ihq =>
    obtain ⟨ys, ms, zs, ks, hp, hq, rfl, rfl⟩ := reads_append_iff.1 h
    exact (ihp hp).append (Cursor.offset_pass c ys ▸ ihq hq)
  | choice p q ihp ihq =>
    rcases reads_choice_iff.1 h with hp | ⟨-, hq⟩
    · exact ihp hp
    · exact ihq hq
  | many p ih =>
    refine h.many_cons_induction (motive := fun c xs ns => Covers c.offset xs ns) ?_ ?_
    · exact fun c => .nil _ _
    · exact fun c xs ns ys ms hp hrest => (ih hp).append (Cursor.offset_pass c xs ▸ hrest)
  | ahead p ih =>
    obtain ⟨-, rfl, -⟩ := reads_ahead_iff.1 h
    exact .nil _ _
  | notAhead p ih =>
    obtain ⟨-, rfl, -⟩ := reads_notAhead_iff.1 h
    exact .nil _ _
  | token rule p ih =>
    obtain ⟨ms, -, rfl⟩ := (reads_token_iff rule).1 h
    exact .single rfl (Cursor.offset_pass c xs) rfl (.nil _ _)
  | branch rule p ih =>
    obtain ⟨ms, hp, rfl⟩ := (reads_branch_iff rule).1 h
    exact .single rfl (Cursor.offset_pass c xs) trivial (ih hp)

end Peg

/-! ### Trees over a text -/

/-- `m` is `n`, or a part of it at some depth. -/
def Node.HasPart (n m : Node ρ) : Prop :=
  Relation.ReflTransGen (fun n m => m ∈ n.children) n m

/-- The span of `n` holds those of its parts, and these follow each other. -/
structure Node.Nests (n : Node ρ) : Prop where
  start_le_stop : n.span.start ≤ n.span.stop
  inside : ∀ m ∈ n.children, n.span.start ≤ m.span.start ∧ m.span.stop ≤ n.span.stop
  ordered : n.children.Pairwise fun m k => m.span.stop ≤ k.span.start

/-- The span of `n` delimits the piece `xs` of the text, which is what `n` shows. -/
structure Node.Delimits (text : List Char) (n : Node ρ) (xs : List Char) : Prop where
  piece : ∃ before after, text = before ++ (xs ++ after) ∧ n.span.start = utf8Len before
  stop_eq : n.span.stop = n.span.start + utf8Len xs
  shows : n.Shows xs

lemma Covers.exists_delimits (h : Covers a xs ns) (before : List Char) (ha : a = utf8Len before)
    (htext : text = before ++ (xs ++ after)) :
    ∀ n ∈ ns, ∃ ys, n.Delimits text ys ∧ Covers n.span.start ys n.children := by
  induction h generalizing before with
  | nil => simp
  | @cons a gap ys rest n ns hstart hstop hshows hparts hrest _ ih =>
    have hsplit : text = (before ++ gap) ++ (ys ++ (rest ++ after)) := by simp [htext]
    have hgap : n.span.start = utf8Len (before ++ gap) := by
      rw [hstart, ha, String.utf8Len_append]
    refine List.forall_mem_cons.2 ⟨⟨ys, ⟨⟨_, _, hsplit, hgap⟩, hstop, hshows⟩, hparts⟩, ?_⟩
    apply ih (before ++ gap ++ ys)
    · rw [hstop, hgap, ← String.utf8Len_append]
    · simp [hsplit]

/-- In the tree of a match each span delimits the text of its node and holds the spans of the parts,
one behind the other. -/
lemma Peg.Reads.spans (h : p.Reads (.start text) xs [n]) (hm : n.HasPart m) :
    m.Nests ∧ ∃ ys, m.Delimits text ys := by
  suffices hstep : ∃ ys, m.Delimits text ys ∧ Covers m.span.start ys m.children by
    obtain ⟨ys, hdelimits, hcovers⟩ := hstep
    have hstop := hdelimits.stop_eq
    obtain ⟨hinside, hordered⟩ := hcovers.spans
    refine ⟨⟨by omega, fun k hk => ?_, hordered⟩, ys, hdelimits⟩
    have := hinside k hk
    omega
  -- from a node to its parts
  induction hm with
  | refl =>
    obtain ⟨after, hafter⟩ := h.1
    exact h.covers.exists_delimits [] rfl hafter.symm n List.mem_cons_self
  | tail _ hk ih =>
    obtain ⟨ys, ⟨⟨before, after, htext, hstart⟩, -, -⟩, hcovers⟩ := ih
    exact hcovers.exists_delimits before hstart htext _ hk

end Automata.Specification
