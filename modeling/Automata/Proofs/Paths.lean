import Automata.Files.System
import Mathlib.Data.List.Basic
import Mathlib.Tactic.MkIffOfInductiveProp

/-!
# Paths of entries

Joining a path with a name adds one part to its parts and one entry to its key. So the entries of a
directory are ordered by their names alone. What a directory holds is told by its listing, which has
the names, and by the answers of the file system, which tell what the names stand for.
-/

namespace Automata.Files

/-- A name that a directory can list. -/
@[mk_iff]
structure IsName (name : FileName) : Prop where
  ne_nil : name ≠ []
  no_slash : slash ∉ name
  no_nul : 0 ∉ name
  ne_dot : name ≠ [dot]
  ne_dots : name ≠ [dot, dot]

instance : DecidablePred IsName :=
  fun name => decidable_of_iff' _ (isName_iff name)

namespace Path

variable {directory : Path} {name name' : FileName}

/-! ### Parts -/

lemma parts_append_slash (l l' : List UInt8) :
    parts ⟨l ++ slash :: l'⟩ = parts ⟨l⟩ ++ parts ⟨l'⟩ :=
  List.splitOn_append_cons_self l l'

lemma parts_of_no_slash (h : slash ∉ name) : parts ⟨name⟩ = [name] :=
  List.splitOn_eq_singleton h

lemma parts_ne_nil (p : Path) : p.parts ≠ [] :=
  List.splitOn_ne_nil slash p.bytes

/-- The parts of a directory come before the name, less an empty one at the end. -/
lemma exists_parts_join (directory : Path) (h : slash ∉ name) :
    ∃ ps, (directory.join name).parts = ps ++ [name] ∧
      (directory.parts = ps ∨ directory.parts = ps ++ [[]]) := by
  obtain ⟨l⟩ := directory
  rcases l.eq_nil_or_concat' with rfl | ⟨l, b, rfl⟩
  · exact ⟨[], parts_of_no_slash h, .inr (parts_of_no_slash List.not_mem_nil)⟩
  · by_cases hb : b = slash
    · subst hb
      have hjoin : join ⟨l ++ [slash]⟩ name = ⟨l ++ slash :: name⟩ := by simp [join]
      refine ⟨parts ⟨l⟩, ?_, .inr ?_⟩
      · rw [hjoin, parts_append_slash, parts_of_no_slash h]
      · rw [parts_append_slash, parts_of_no_slash List.not_mem_nil]
    · have hjoin : join ⟨l ++ [b]⟩ name = ⟨l ++ [b] ++ slash :: name⟩ := by simp [join, hb]
      refine ⟨parts ⟨l ++ [b]⟩, ?_, .inl rfl⟩
      rw [hjoin, parts_append_slash, parts_of_no_slash h]

/-- What joining adds to the bytes of a path is the name, and perhaps a slash. -/
lemma exists_bytes_join (directory : Path) (name : FileName) :
    ∃ l, (directory.join name).bytes = directory.bytes ++ l ∧ l ⊆ slash :: name := by
  rw [join]
  split_ifs
  · exact ⟨name, rfl, List.subset_cons_self _ _⟩
  · exact ⟨slash :: name, rfl, List.Subset.refl _⟩

lemma le_length_join (directory : Path) (name : FileName) :
    directory.bytes.length + name.length ≤ (directory.join name).bytes.length := by
  rw [join]
  split_ifs <;> simp only [List.length_append, List.length_cons] <;> omega

lemma length_join_le (directory : Path) (name : FileName) :
    (directory.join name).bytes.length ≤ directory.bytes.length + 1 + name.length := by
  rw [join]
  split_ifs <;> simp only [List.length_append, List.length_cons] <;> omega

lemma isAbsolute_join (h : slash ∉ name) :
    (directory.join name).isAbsolute = directory.isAbsolute := by
  obtain ⟨l, hl, -⟩ := exists_bytes_join directory name
  by_cases hempty : directory.bytes = []
  · have hhead : name.head? ≠ some slash := fun hname => h (List.mem_of_head? hname)
    rw [isAbsolute, isAbsolute, join, if_pos (.inl hempty), hempty]
    simp [hhead]
  · rw [isAbsolute, isAbsolute, hl, List.head?_append_of_ne_nil _ hempty]

/-! ### Keys -/

lemma startKey_join (h : IsName name) : (directory.join name).startKey = directory.startKey := by
  have hdot : (directory.join name).parts.head? = some [dot] ↔
      directory.parts.head? = some [dot] := by
    obtain ⟨ps, hjoin, hparts⟩ := exists_parts_join directory h.no_slash
    cases ps with
    | nil =>
      have hempty : directory.parts = [[]] := hparts.resolve_left directory.parts_ne_nil
      simp [hjoin, hempty, h.ne_dot]
    | cons p ps => rcases hparts with hparts | hparts <;> simp [hjoin, hparts]
  rw [startKey, startKey, isAbsolute_join h.no_slash]
  simp only [hdot]

/-- The key of an entry is that of the directory and then that of the name. -/
lemma key_join (h : IsName name) :
    (directory.join name).key = directory.key ++ [3 :: name.map UInt8.toNat] := by
  have hname : partKey name = 3 :: name.map UInt8.toNat := if_neg h.ne_dots
  obtain ⟨ps, hjoin, hparts⟩ := exists_parts_join directory h.no_slash
  rw [key, key, startKey_join h, hjoin]
  rcases hparts with hparts | hparts <;> simp [hparts, h.ne_nil, h.ne_dot, hname]

/-- Different names in a directory have different keys. -/
lemma key_join_inj (h : IsName name) (h' : IsName name') :
    (directory.join name).key = (directory.join name').key ↔ name = name' := by
  have htoNat : Function.Injective UInt8.toNat := fun _ _ => UInt8.toNat_inj.1
  simp [key_join h, key_join h', htoNat.list_map.eq_iff]

end Path

/-! ### What directories hold -/

/-- What a directory holds, in the order in which it is listed: names with what they stand for, and in
between faults in place of what cannot be told. -/
abbrev Contents := List (Except FileFault (FileName × Kind))

/-- The entries that have names. -/
def Contents.entries (contents : Contents) : List (FileName × Kind) :=
  contents.filterMap Except.toOption

variable {contents contents' : Contents} {e : FileName × Kind}

lemma Contents.mem_entries : e ∈ contents.entries ↔ .ok e ∈ contents := by
  rw [entries, List.mem_filterMap]
  constructor
  · rintro ⟨_ | _, hitem, heq⟩
    · cases heq
    · cases heq
      exact hitem
  · exact fun he => ⟨_, he, rfl⟩

/-- The directory at `path` holds `contents`. The file system may not know what an entry is, but it
does not mistake it for something else. -/
structure FileSystem.Lists (fs : FileSystem) (path : Path) (contents : Contents) : Prop where
  list_eq : fs.list path = .ok (contents.map (Except.map Prod.fst))
  nodup : (contents.entries.map Prod.fst).Nodup
  isName : ∀ e ∈ contents.entries, IsName e.1
  kind_eq : ∀ e ∈ contents.entries, ∀ kind, fs.kind (path.join e.1) = .ok kind → kind = e.2

end Automata.Files
