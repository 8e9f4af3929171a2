import Automata.Files.Tree
import Automata.Proofs.Paths

/-!
# Directories in trees

The path of a directory, joined with a name, is followed to what has that name. Only a path that is
too long by then leads nowhere: so a tree lists its directories truly, and knows what an entry is
unless its path is too long.
-/

namespace Automata.Files

namespace Tree

variable {above : List Tree} {here entries : Tree} {e : Entry} {path : Path} {name part : FileName}
  {ps qs : List FileName}

/-! ### Following one part more -/

/-- What one part of a path other than two dots leads to. -/
def child (part : FileName) : Entry → Except FileFault Entry
  | .file _ => .error .notADirectory
  | .directory entries =>
    if part = [] ∨ part = [dot] then .ok (.directory entries)
    else if maxNameSize < part.length then .error .nameTooLong
    else (entries.lookup part).elim (.error .notFound) .ok

lemma follow_singleton (hpart : part ≠ [dot, dot]) (above : List Tree) (here : Tree) :
    follow above here [part] = child part (.directory here) := by
  simp only [follow, if_neg hpart, child]
  rcases here.lookup part with _ | _ | _ <;> rfl

/-- What further parts lead to depends on the directory that the parts before them lead to. If these do
not lead to a directory, then further parts fail, and the first of them fails already. -/
lemma follow_append (above : List Tree) (here : Tree) (ps : List FileName) :
    (∃ above' here', ∀ qs, follow above here (ps ++ qs) = follow above' here' qs) ∨
      ∃ fault, (∀ part qs, follow above here (ps ++ part :: qs) = .error fault) ∧
        ∀ part, (follow above here ps).bind (child part) = .error fault := by
  -- the empty path, a part that stays, one that goes up, and then names: too long, unknown, that of a
  -- directory, and that of a file at the end and before it
  fun_induction follow above here ps with
  | case1 above here => exact .inl ⟨above, here, fun _ => rfl⟩
  | case2 above here p rest hp ih => simpa only [List.cons_append, follow, if_pos hp] using ih
  | case3 above here rest hp ih =>
    simpa only [List.cons_append, follow, if_neg hp, if_true] using ih
  | case4 above here p rest hp hup hsize =>
    refine .inr ⟨.nameTooLong, fun part qs => ?_, fun part => rfl⟩
    rw [List.cons_append, follow, if_neg hp, if_neg hup, if_pos hsize]
  | case5 above here p rest hp hup hsize hlookup =>
    refine .inr ⟨.notFound, fun part qs => ?_, fun part => rfl⟩
    rw [List.cons_append, follow, if_neg hp, if_neg hup, if_neg hsize, hlookup]
  | case6 above here p rest hp hup hsize inside hlookup ih =>
    simpa only [List.cons_append, follow, if_neg hp, if_neg hup, if_neg hsize, hlookup] using ih
  | case7 above here p hp hup hsize content hlookup =>
    refine .inr ⟨.notADirectory, fun part qs => ?_, fun part => rfl⟩
    rw [List.cons_append, follow, if_neg hp, if_neg hup, if_neg hsize, hlookup]
    rfl
  | case8 above here p hp hup hsize content hlookup head tail =>
    refine .inr ⟨.notADirectory, fun part qs => ?_, fun part => rfl⟩
    rw [List.cons_append, follow, if_neg hp, if_neg hup, if_neg hsize, hlookup]
    rfl

/-- The last part is followed from what the parts before it lead to. -/
lemma follow_concat (hpart : part ≠ [dot, dot]) (above : List Tree) (here : Tree)
    (ps : List FileName) :
    follow above here (ps ++ [part]) = (follow above here ps).bind (child part) := by
  rcases follow_append above here ps with ⟨above', here', hqs⟩ | ⟨fault, hqs, hchild⟩
  · have hps : follow above here ps = .ok (.directory here') := by
      rw [← List.append_nil ps, hqs, follow]
    rw [hqs, hps, follow_singleton hpart]
    rfl
  · rw [hqs, hchild]

/-- A dot between parts does not matter. -/
lemma follow_append_dot (hqs : qs ≠ []) (above : List Tree) (here : Tree) (ps : List FileName) :
    follow above here (ps ++ [dot] :: qs) = follow above here (ps ++ qs) := by
  obtain ⟨q, qs, rfl⟩ := List.exists_cons_of_ne_nil hqs
  rcases follow_append above here ps with ⟨above', here', hfollow⟩ | ⟨fault, hfollow, -⟩
  · rw [hfollow, hfollow, follow, if_pos (.inr rfl)]
  · rw [hfollow, hfollow]

lemma child_empty_eq_ok_iff : child [] e = .ok (.directory entries) ↔ e = .directory entries := by
  cases e with
  | file content => exact ⟨nofun, nofun⟩
  | directory inside => exact ⟨by rintro ⟨⟩; rfl, by rintro ⟨⟩; rfl⟩

/-- From where the path of a directory leads, a name is followed to the entry that has it. -/
lemma follow_parts_join (hname : IsName name) (hsize : name.length ≤ maxNameSize)
    (h : follow above here (ps ++ path.parts) = .ok (.directory entries)) :
    follow above here (ps ++ (path.join name).parts) =
      (entries.lookup name).elim (.error .notFound) .ok := by
  obtain ⟨qs, hjoin, hparts⟩ := path.exists_parts_join hname.no_slash
  have hdirectory : follow above here (ps ++ qs) = .ok (.directory entries) := by
    rcases hparts with hparts | hparts
    · rwa [hparts] at h
    · rw [hparts, ← List.append_assoc, follow_concat (by decide)] at h
      cases hqs : follow above here (ps ++ qs) with
      | error fault =>
        rw [hqs] at h
        nomatch h
      | ok e =>
        rw [hqs] at h
        rw [child_empty_eq_ok_iff.1 h]
  rw [hjoin, ← List.append_assoc, follow_concat hname.ne_dots, hdirectory]
  show child name (.directory entries) = _
  rw [child, if_neg (not_or.2 ⟨hname.ne_nil, hname.ne_dot⟩), if_neg (Nat.not_lt.2 hsize)]

end Tree

open Automata.Files.Tree

/-! ### What is found -/

variable {d : Disk} {path : Path} {name : FileName} {entries : Tree} {e : FileName × Entry}

namespace Disk

lemma find_of_no_nul (hnul : 0 ∉ path.bytes) (hempty : path.bytes ≠ []) :
    d.find path = if maxPathSize < path.bytes.length then .error .nameTooLong
      else follow [] d.top (d.start path ++ path.parts) := by
  rw [find, if_neg hnul, if_neg hempty]

lemma find_eq_ok_iff {e : Entry} : d.find path = .ok e ↔
    0 ∉ path.bytes ∧ path.bytes ≠ [] ∧ path.bytes.length ≤ maxPathSize ∧
      follow [] d.top (d.start path ++ path.parts) = .ok e := by
  rw [find, ← Nat.not_lt]
  by_cases hnul : 0 ∈ path.bytes
  · simp [hnul]
  by_cases hempty : path.bytes = []
  · simp [hempty]
  by_cases hsize : maxPathSize < path.bytes.length
  · simp [hnul, hempty, hsize]
  · simp [hnul, hempty, hsize]

lemma list_of_find (h : d.find path = .ok (.directory entries)) :
    d.list path = .ok (entries.map fun e => .ok e.1) := by
  rw [list, h]
  rfl

/-- A name in a directory is found, unless its path is too long. -/
lemma find_join (h : d.find path = .ok (.directory entries)) (hname : IsName name)
    (hsize : name.length ≤ maxNameSize) : d.find (path.join name) =
      if maxPathSize < (path.join name).bytes.length then .error .nameTooLong
      else (entries.lookup name).elim (.error .notFound) .ok := by
  obtain ⟨hnul, hempty, -, hfollow⟩ := find_eq_ok_iff.1 h
  obtain ⟨l, hl, hsub⟩ := path.exists_bytes_join name
  have hnul' : 0 ∉ (path.join name).bytes := by
    rw [hl, List.mem_append]
    rintro (hmem | hmem)
    · exact hnul hmem
    · rcases List.mem_cons.1 (hsub hmem) with hslash | hmem
      · nomatch hslash
      · exact hname.no_nul hmem
  have hempty' : (path.join name).bytes ≠ [] := by
    rw [hl]
    exact List.append_ne_nil_of_left_ne_nil hempty l
  have hstart : d.start (path.join name) = d.start path := by
    rw [start, start, Path.isAbsolute_join hname.no_slash]
  rw [find_of_no_nul hnul' hempty', hstart, follow_parts_join hname hsize hfollow]

/-- A dot in front of a path stays where it is. -/
lemma find_dot_slash {e : Entry} (h : d.find path = .ok e) (hrelative : path.isAbsolute = false)
    (hsize : path.bytes.length + 2 ≤ maxPathSize) : d.find ⟨dot :: slash :: path.bytes⟩ = .ok e := by
  obtain ⟨hnul, hempty, -, hfollow⟩ := find_eq_ok_iff.1 h
  have hparts : Path.parts ⟨dot :: slash :: path.bytes⟩ = [dot] :: path.parts :=
    Path.parts_append_slash [dot] path.bytes
  have hstart : d.start ⟨dot :: slash :: path.bytes⟩ = d.start path := by
    rw [start, start, hrelative]
    rfl
  refine find_eq_ok_iff.2 ⟨?_, List.cons_ne_nil _ _, hsize, ?_⟩
  · simpa [dot, slash] using hnul
  · rwa [hparts, hstart, follow_append_dot path.parts_ne_nil]

end Disk

/-! ### Entries of a directory -/

/-- The names of a directory are names that are not too long, and they are different. -/
@[mk_iff]
structure IsListing (entries : Tree) : Prop where
  nodup : (entries.map Prod.fst).Nodup
  isName : ∀ e ∈ entries, IsName e.1
  size_le : ∀ e ∈ entries, e.1.length ≤ maxNameSize

instance : DecidablePred IsListing :=
  fun entries => decidable_of_iff' _ (isListing_iff entries)

lemma lookup_of_mem (hnodup : (entries.map Prod.fst).Nodup) (he : e ∈ entries) :
    entries.lookup e.1 = some e.2 := by
  obtain ⟨before, after, rfl⟩ := List.append_of_mem he
  rw [List.lookup_eq_some_iff]
  refine ⟨before, after, rfl, fun e' he' => bne_iff_ne.2 fun heq => ?_⟩
  rw [List.map_append, List.map_cons] at hnodup
  exact (List.nodup_append.1 hnodup).2.2 _ (List.mem_map_of_mem he') _ List.mem_cons_self heq.symm

lemma Disk.find_of_mem (h : d.find path = .ok (.directory entries)) (hl : IsListing entries)
    (he : e ∈ entries) : d.find (path.join e.1) =
      if maxPathSize < (path.join e.1).bytes.length then .error .nameTooLong else .ok e.2 := by
  rw [find_join h (hl.isName e he) (hl.size_le e he), lookup_of_mem hl.nodup he]
  rfl

lemma Disk.kind_of_mem (h : d.find path = .ok (.directory entries)) (hl : IsListing entries)
    (he : e ∈ entries) : d.fileSystem.kind (path.join e.1) =
      if maxPathSize < (path.join e.1).bytes.length then .error .nameTooLong else .ok e.2.kind := by
  show (d.find _).map _ = _
  rw [find_of_mem h hl he]
  split_ifs <;> rfl

/-- What the entries of a tree are for a file system. -/
def contentsOf (entries : Tree) : Contents :=
  entries.map fun e => .ok (e.1, e.2.kind)

lemma entries_contentsOf (entries : Tree) :
    (contentsOf entries).entries = entries.map fun e => (e.1, e.2.kind) := by
  rw [contentsOf, Contents.entries, List.filterMap_map]
  exact congrFun List.filterMap_eq_map entries

theorem Disk.lists (h : d.find path = .ok (.directory entries)) (hl : IsListing entries) :
    d.fileSystem.Lists path (contentsOf entries) where
  list_eq := by
    rw [contentsOf, List.map_map]
    exact list_of_find h
  nodup := by
    rw [entries_contentsOf, List.map_map]
    exact hl.nodup
  isName := by
    rw [entries_contentsOf, List.forall_mem_map]
    exact hl.isName
  kind_eq := by
    rw [entries_contentsOf, List.forall_mem_map]
    intro e he kind hkind
    rw [kind_of_mem h hl he] at hkind
    split_ifs at hkind
    exact (Except.ok.inj hkind).symm

/-- Where the path of a directory is short enough, all that it holds is known. -/
lemma Disk.kind_of_mem_contentsOf (h : d.find path = .ok (.directory entries))
    (hl : IsListing entries) (hpath : path.bytes.length + 1 + maxNameSize ≤ maxPathSize)
    {kind : Kind} (hmem : .ok (name, kind) ∈ contentsOf entries) :
    d.fileSystem.kind (path.join name) = .ok kind := by
  obtain ⟨e, he, heq⟩ := List.mem_map.1 hmem
  obtain ⟨rfl, rfl⟩ := Prod.mk.inj (Except.ok.inj heq)
  have hsize := path.length_join_le e.1
  have hname := hl.size_le e he
  rw [kind_of_mem h hl he, if_neg (by omega)]

end Automata.Files
