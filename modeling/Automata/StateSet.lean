import Std.Data.TreeSet

/-!
# Sets of state labels

A set is kept as its members in ascending order, each once, so that two sets with the same members
are the same value.
-/

namespace Automata

/-- A finite set of labels, in ascending order. -/
structure StateSet where
  toList : List String
  sorted : toList.Pairwise (· < ·)
  deriving DecidableEq

namespace StateSet

instance : Membership String StateSet :=
  ⟨fun s x => x ∈ s.toList⟩

instance (x : String) (s : StateSet) : Decidable (x ∈ s) :=
  inferInstanceAs (Decidable (x ∈ s.toList))

@[simp] theorem mem_toList {x : String} {s : StateSet} : x ∈ s.toList ↔ x ∈ s := Iff.rfl

/-! ### Operations -/

def empty : StateSet := ⟨[], .nil⟩

instance : EmptyCollection StateSet := ⟨empty⟩

/-- The set of the members of a search tree. -/
def ofTree (t : Std.TreeSet String) : StateSet :=
  ⟨t.toList, t.ordered_toList.imp compareOfLessAndEq_eq_lt.1⟩

/-- The set of the labels in `l`. -/
def ofList (l : List String) : StateSet :=
  ofTree (.ofList l)

def singleton (x : String) : StateSet := ⟨[x], by simp⟩

def isEmpty (s : StateSet) : Bool := s.toList.isEmpty

def first? (s : StateSet) : Option String := s.toList.head?

/-! ### Members -/

@[simp] theorem not_mem_empty (x : String) : x ∉ (∅ : StateSet) :=
  fun h => nomatch (show x ∈ ([] : List String) from h)

@[simp] theorem mem_ofTree {t : Std.TreeSet String} {y : String} : y ∈ ofTree t ↔ y ∈ t :=
  Std.TreeSet.mem_toList (t := t)

@[simp] theorem mem_ofList {l : List String} {y : String} : y ∈ ofList l ↔ y ∈ l := by
  simp [ofList]

@[simp] theorem mem_singleton {x y : String} : y ∈ singleton x ↔ y = x :=
  List.mem_singleton

theorem isEmpty_iff {s : StateSet} : s.isEmpty = true ↔ s = ∅ := by
  obtain ⟨l, hl⟩ := s
  cases l <;> simp [isEmpty, EmptyCollection.emptyCollection, empty]

/-- Two sets with the same members are equal. -/
theorem ext {s t : StateSet} (h : ∀ x, x ∈ s ↔ x ∈ t) : s = t := by
  obtain ⟨l, hl⟩ := s
  obtain ⟨k, hk⟩ := t
  have nodup : ∀ {l : List String}, l.Pairwise (· < ·) → l.Nodup := fun hl =>
    hl.imp fun hab => by rintro rfl; exact String.lt_irrefl _ hab
  have perm : l.Perm k := (List.perm_ext_iff_of_nodup (nodup hl) (nodup hk)).2 h
  obtain rfl : l = k :=
    perm.eq_of_pairwise (fun _ _ _ _ hab hba => absurd hba (String.lt_asymm hab)) hl hk
  rfl

end StateSet

end Automata
