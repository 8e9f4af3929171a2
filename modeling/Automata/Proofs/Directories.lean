import Automata.Proofs.Layout
import Automata.Proofs.Trees

/-!
# Directories of specifications

Each specification file of a directory is loaded by itself and gives one result, and so does each item
of the listing that is a fault. The failures come first, as they are listed; the successes are
ascending by path, so the order of the listing does not show in them. All this holds in any file
system. But a directory is told from a file by asking what its path leads to: if that cannot be told,
a directory with the name of a specification file is taken for one.
-/

namespace Automata.Files

variable {fs : FileSystem} {path : Path} {contents contents' : Contents}
  {results results' : List Loaded}

/-! ### Names of specification files -/

/-- The name has the extension, and something before it. -/
def IsSpecificationName (name : FileName) : Prop :=
  ∃ stem, stem ≠ [] ∧ name = stem ++ dot :: specificationExtension

lemma extension?_eq_some_iff (name : FileName) :
    extension? name = some specificationExtension ↔ IsSpecificationName name := by
  -- behind the last dot is what the reversed name starts with
  rw [extension?, List.span_eq_takeWhile_dropWhile]
  constructor
  · intro h
    have hname := List.takeWhile_append_dropWhile (p := (· != dot)) (l := name.reverse)
    split at h
    · rename_i ext x y rest heq
      obtain ⟨htake, hdrop⟩ := Prod.mk.inj heq
      have hx : x = dot := by
        have := List.head_dropWhile_not (· != dot) (l := name.reverse) (by simp [hdrop])
        simpa [hdrop] using this
      rw [htake, hdrop, hx] at hname
      refine ⟨(y :: rest).reverse, by simp, ?_⟩
      rw [← Option.some.inj h, ← List.reverse_inj, ← hname]
      simp
    · nomatch h
  · rintro ⟨stem, hstem, rfl⟩
    have hspelling : specificationExtension = [0x66, 0x61] := by decide
    have hext : ∀ x ∈ specificationExtension.reverse, (x != dot) = true := by
      simp [hspelling, dot]
    have hreverse : (stem ++ dot :: specificationExtension).reverse =
        specificationExtension.reverse ++ dot :: stem.reverse := by
      simp
    obtain ⟨y, rest, hrest⟩ := List.exists_cons_of_ne_nil
      (by simpa using hstem : stem.reverse ≠ [])
    rw [hreverse, List.takeWhile_append_of_pos hext, List.dropWhile_append_of_pos hext, hrest]
    simp

instance : DecidablePred IsSpecificationName :=
  fun name => decidable_of_iff _ (extension?_eq_some_iff name)

/-! ### The order of the results -/

/-- The failures come first, then the successes, ascending by path. -/
def Ordered (results : List Loaded) : Prop :=
  ∃ (failures : List Error) (successes : List (Path × Automaton)),
    results = failures.map .error ++ successes.map .ok ∧
      successes.Pairwise fun a b => compare a.1 b.1 = .lt

instance : Std.TransOrd Path :=
  inferInstanceAs (Std.TransCmp (compareOn Path.key))

lemma compare_eq_iff (p q : Path) : compare p q = .eq ↔ p.key = q.key := by
  show compare p.key q.key = .eq ↔ _
  exact Std.LawfulEqOrd.compare_eq_iff_eq

/-- The order of `arrange`. -/
def notAfter (a b : Loaded) : Bool :=
  (compare (orderKey a) (orderKey b)).isLE

lemma notAfter_trans (a b c : Loaded) (hab : notAfter a b) (hbc : notAfter b c) : notAfter a c :=
  Std.TransCmp.isLE_trans hab hbc

lemma notAfter_total (a b : Loaded) : notAfter a b || notAfter b a := by
  rw [notAfter, notAfter, Std.OrientedOrd.eq_swap (a := orderKey b)]
  cases compare (orderKey a) (orderKey b) <;> rfl

lemma arrange_perm (results : List Loaded) : (arrange results).Perm results :=
  List.mergeSort_perm results _

lemma pairwise_arrange (results : List Loaded) :
    (arrange results).Pairwise fun a b => notAfter a b :=
  List.pairwise_mergeSort notAfter_trans notAfter_total results

/-- A failure has no key, so no success is before it. -/
lemma eq_failures_append_successes
    (h : results.Pairwise fun a b => notAfter a b) :
    results = (results.filterMap failure?).map .error ++ (results.filterMap success?).map .ok := by
  induction results with
  | nil => rfl
  | cons r results ih =>
    obtain ⟨hr, hresults⟩ := List.pairwise_cons.1 h
    cases r with
    | error e => exact congrArg (.error e :: ·) (ih hresults)
    | ok s =>
      have hno : results.filterMap failure? = [] := by
        refine List.filterMap_eq_nil_iff.2 fun r' hr' => ?_
        cases r' with
        | error e => nomatch hr _ hr'
        | ok s' => rfl
      have hrest : results = (results.filterMap success?).map .ok := by
        simpa [hno] using ih hresults
      show .ok s :: results = (results.filterMap failure?).map .error ++
        .ok s :: (results.filterMap success?).map .ok
      rw [hno, ← hrest]
      rfl

lemma failures_sublist (results : List Loaded) :
    ((results.filterMap failure?).map Except.error).Sublist results := by
  induction results with
  | nil => exact .slnil
  | cons r results ih =>
    cases r with
    | error e => exact ih.cons_cons _
    | ok s => exact ih.cons _

/-- Failures have one key, so they stay as they come. -/
lemma filterMap_failure?_arrange (results : List Loaded) :
    (arrange results).filterMap failure? = results.filterMap failure? := by
  have htied : ((results.filterMap failure?).map Except.error : List Loaded).Pairwise
      fun a b => notAfter a b :=
    List.pairwise_map.2 (List.pairwise_of_forall fun _ _ => rfl)
  have hsublist := (List.sublist_mergeSort notAfter_trans notAfter_total htied
    (failures_sublist results)).filterMap failure?
  have hfailures : ((results.filterMap failure?).map Except.error : List Loaded).filterMap failure? =
      results.filterMap failure? := by
    rw [List.filterMap_map]
    exact List.filterMap_some
  rw [hfailures] at hsublist
  exact (hsublist.eq_of_length ((arrange_perm results).filterMap failure?).length_eq.symm).symm

/-- The successes are strictly ascending if no two of them have one key. -/
lemma ordered_arrange (h : ((results.filterMap success?).map (·.1.key)).Nodup) :
    Ordered (arrange results) := by
  refine ⟨_, _, eq_failures_append_successes (pairwise_arrange results), ?_⟩
  have hle : ((arrange results).filterMap success?).Pairwise
      fun a b => (compare a.1 b.1).isLE := by
    refine (pairwise_arrange results).filterMap success? fun r r' hrr' s hs s' hs' => ?_
    rwa [notAfter, orderKey, orderKey, hs, hs'] at hrr'
  have hdistinct := ((((arrange_perm results).filterMap success?).map (·.1.key)).nodup_iff).2 h
  refine (hle.and (List.pairwise_map.1 hdistinct)).imp fun ⟨hle, hne⟩ => ?_
  exact (Ordering.isLE_iff_eq_lt_or_eq_eq.1 hle).resolve_right (mt (compare_eq_iff _ _).1 hne)

lemma filterMap_success?_append (failures : List Error) (successes : List (Path × Automaton)) :
    (failures.map Except.error ++ successes.map Except.ok).filterMap success? = successes := by
  rw [List.filterMap_append, List.filterMap_map, List.filterMap_map]
  have hfailures : failures.filterMap (success? ∘ Except.error (α := Path × Automaton)) = [] :=
    List.filterMap_eq_nil_iff.2 fun _ _ => rfl
  rw [hfailures]
  exact List.filterMap_some

/-- The same results in order have the same successes, one after the other. -/
lemma Ordered.successes_eq (h : Ordered results) (h' : Ordered results')
    (hperm : results.Perm results') :
    results.filterMap success? = results'.filterMap success? := by
  have hsuccesses := hperm.filterMap success?
  obtain ⟨failures, successes, rfl, hsorted⟩ := h
  obtain ⟨failures', successes', rfl, hsorted'⟩ := h'
  rw [filterMap_success?_append, filterMap_success?_append] at hsuccesses ⊢
  refine hsuccesses.eq_of_pairwise (fun a b _ _ hab hba => ?_) hsorted hsorted'
  rw [Std.OrientedOrd.eq_swap, hba] at hab
  nomatch hab

/-! ### Loading one file -/

/-- The result is the automaton at the path, with the path, or tells that there is none and why. -/
structure Loads (fs : FileSystem) (path : Path) (r : Loaded) : Prop where
  automaton : ∀ p m, r = .ok (p, m) ↔ p = path ∧ fs.load path = .ok m
  failure : ∀ e, r = .error e → ∃ cause, fs.load path = .error cause ∧ e.kind = .file ∧ e.message =
    "File error: Failed to load automaton from " ++ path.display ++ ": " ++ cause.message

lemma loads_loadNamed (fs : FileSystem) (path : Path) : Loads fs path (fs.loadNamed path) := by
  rw [FileSystem.loadNamed]
  cases hload : fs.load path with
  | ok m => exact ⟨by simp [hload, eq_comm], nofun⟩
  | error cause => exact ⟨by simp [hload], by rintro e ⟨⟩; exact ⟨cause, hload, rfl, rfl⟩⟩

lemma fromUTF8?_eq_some_iff (content : ByteArray) (text : String) :
    String.fromUTF8? content = some text ↔ content = text.toByteArray := by
  rw [String.fromUTF8?]
  split_ifs with h
  · rw [Option.some.injEq, ← String.toByteArray_inj]
    exact Iff.rfl
  · refine ⟨nofun, ?_⟩
    rintro rfl
    exact absurd text.isValidUTF8 h

/-- A file holds an automaton just if its content is a text that specifies it. -/
lemma load_eq_ok_iff (fs : FileSystem) (path : Path) (m : Automaton) : fs.load path = .ok m ↔
    ∃ text : String, fs.read path = .ok text.toByteArray ∧ Specification.parse text = .ok m := by
  rw [FileSystem.load]
  cases fs.read path with
  | error fault => simp [loadContent]
  | ok content =>
    simp only [Except.ok.injEq, ← fromUTF8?_eq_some_iff, loadContent]
    cases String.fromUTF8? content <;> simp

/-! ### The items of a directory -/

/-- The result is what an item comes to: a fault is told, and an entry is loaded. -/
inductive Tells (fs : FileSystem) (path : Path) : Except FileFault (FileName × Kind) → Loaded → Prop
  | fault {fault : FileFault} {e : Error} (hkind : e.kind = .file)
      (hmessage : e.message = "File error: Failed to read directory entry: " ++ fault.message) :
      Tells fs path (.error fault) (.error e)
  | entry {e : FileName × Kind} {r : Loaded} (h : Loads fs (path.join e.1) r) :
      Tells fs path (.ok e) r

/-- The item is a fault, or a specification file: it has such a name, and is not a directory. -/
def IsDue : Except FileFault (FileName × Kind) → Prop
  | .error _ => True
  | .ok e => IsSpecificationName e.1 ∧ e.2 ≠ .directory

instance : DecidablePred IsDue
  | .error _ => inferInstanceAs (Decidable True)
  | .ok e => inferInstanceAs (Decidable (IsSpecificationName e.1 ∧ e.2 ≠ .directory))

/-- It cannot be told what the path leads to. -/
def IsUnknown (fs : FileSystem) (path : Path) : Prop :=
  ∃ fault, fs.kind path = .error fault

instance (fs : FileSystem) : DecidablePred (IsUnknown fs) := fun path =>
  decidable_of_iff ((fs.kind path).toOption = none) <| by
    rw [IsUnknown]
    cases fs.kind path <;> simp [Except.toOption]

/-- The item is a fault, a specification file, or what is taken for one. -/
def IsTaken (fs : FileSystem) (path : Path) : Except FileFault (FileName × Kind) → Prop
  | .error _ => True
  | .ok e => IsSpecificationName e.1 ∧ (e.2 ≠ .directory ∨ IsUnknown fs (path.join e.1))

instance (fs : FileSystem) (path : Path) : DecidablePred (IsTaken fs path)
  | .error _ => inferInstanceAs (Decidable True)
  | .ok e => inferInstanceAs
    (Decidable (IsSpecificationName e.1 ∧ (e.2 ≠ .directory ∨ IsUnknown fs (path.join e.1))))

/-- The result for an item that gives one. -/
def loadItem (fs : FileSystem) (path : Path) : Except FileFault (FileName × Kind) → Loaded
  | .error fault => .error (.unreadableEntry fault)
  | .ok e => fs.loadNamed (path.join e.1)

lemma tells_loadItem (fs : FileSystem) (path : Path) (item : Except FileFault (FileName × Kind)) :
    Tells fs path item (loadItem fs path item) := by
  cases item with
  | error fault => exact .fault rfl rfl
  | ok e => exact .entry (loads_loadNamed fs (path.join e.1))

lemma isDirectory_eq (h : fs.Lists path contents) {e : FileName × Kind} (he : e ∈ contents.entries) :
    fs.isDirectory (path.join e.1) = false ↔ e.2 ≠ .directory ∨ IsUnknown fs (path.join e.1) := by
  rw [FileSystem.isDirectory, IsUnknown]
  cases hkind : fs.kind (path.join e.1) with
  | error fault => simp
  | ok kind =>
    rw [← h.kind_eq e he kind hkind]
    cases kind <;> simp

lemma loadItem?_eq (h : fs.Lists path contents) {item : Except FileFault (FileName × Kind)}
    (hitem : item ∈ contents) : fs.loadItem? path (item.map Prod.fst) =
      if IsTaken fs path item then some (loadItem fs path item) else none := by
  cases item with
  | error fault => rfl
  | ok e =>
    have htaken : fs.isSpecification path e.1 = true ↔ IsTaken fs path (.ok e) := by
      rw [FileSystem.isSpecification, Bool.and_eq_true, Bool.not_eq_true', beq_iff_eq,
        isDirectory_eq h (Contents.mem_entries.2 hitem), extension?_eq_some_iff, and_comm]
      exact Iff.rfl
    show (if fs.isSpecification path e.1 = true then _ else _) = _
    simp only [htaken]
    rfl

lemma loadDirectory_eq (h : fs.Lists path contents) : fs.loadDirectory path =
    arrange ((contents.filter (IsTaken fs path ·)).map (loadItem fs path)) := by
  have hitems : contents.filterMap (fun item => fs.loadItem? path (item.map Prod.fst)) =
      (contents.filter (IsTaken fs path ·)).map (loadItem fs path) := by
    rw [← List.filterMap_eq_map, List.filterMap_filter]
    refine List.filterMap_congr fun item hitem => (loadItem?_eq h hitem).trans ?_
    simp
  rw [← hitems]
  simp only [FileSystem.loadDirectory, h.list_eq, List.filterMap_map, Function.comp_def]

/-- The successes have the paths of some entries, in the order of these. -/
lemma successes_sublist (fs : FileSystem) (path : Path) (contents : Contents) :
    (((contents.map (loadItem fs path)).filterMap success?).map (·.1.key)).Sublist
      (contents.entries.map fun e => (path.join e.1).key) := by
  induction contents with
  | nil => exact .slnil
  | cons item contents ih =>
    cases item with
    | error fault => exact ih
    | ok e =>
      rw [List.map_cons, loadItem, FileSystem.loadNamed]
      cases fs.load (path.join e.1) with
      | ok m => exact ih.cons_cons _
      | error cause => exact ih.cons _

lemma nodup_keys (h : fs.Lists path contents) :
    (contents.entries.map fun e => (path.join e.1).key).Nodup := by
  have hkeys := h.nodup.map_on (f := fun name => (path.join name).key) fun name hname name' hname' => by
    obtain ⟨e, he, rfl⟩ := List.mem_map.1 hname
    obtain ⟨e', he', rfl⟩ := List.mem_map.1 hname'
    exact (Path.key_join_inj (h.isName e he) (h.isName e' he')).1
  rwa [List.map_map] at hkeys

/-! ### Loading a directory -/

/-- The results are those of the items, one for each, in order. Failures stay as the items are
listed. -/
structure LoadsAll (fs : FileSystem) (path : Path) (items : Contents) (results : List Loaded) :
    Prop where
  each : ∃ results', List.Forall₂ (Tells fs path) items results' ∧ results.Perm results' ∧
    results.filterMap failure? = results'.filterMap failure?
  ordered : Ordered results

lemma LoadsAll.length_eq {items : Contents} (h : LoadsAll fs path items results) :
    results.length = items.length := by
  obtain ⟨results', htells, hperm, -⟩ := h.each
  rw [hperm.length_eq, htells.length_eq]

lemma loadsAll_loadDirectory (h : fs.Lists path contents) :
    LoadsAll fs path (contents.filter (IsTaken fs path ·)) (fs.loadDirectory path) := by
  rw [loadDirectory_eq h]
  constructor
  · refine ⟨_, ?_, arrange_perm _, filterMap_failure?_arrange _⟩
    rw [List.forall₂_map_right_iff]
    exact List.forall₂_same.2 fun item _ => tells_loadItem fs path item
  · have hentries : (Contents.entries (contents.filter (IsTaken fs path ·))).Sublist
        contents.entries :=
      List.filter_sublist.filterMap Except.toOption
    exact ordered_arrange ((nodup_keys h).sublist
      ((successes_sublist fs path _).trans (hentries.map fun e => (path.join e.1).key)))

/-- Just the faults and the specification files give results, unless a directory with such a name is
not known to be one. -/
lemma loadsAll_isDue_iff (h : fs.Lists path contents) :
    LoadsAll fs path (contents.filter (IsDue ·)) (fs.loadDirectory path) ↔
      ∀ name, .ok (name, .directory) ∈ contents → IsSpecificationName name →
        fs.kind (path.join name) = .ok .directory := by
  have htaken := loadsAll_loadDirectory h
  constructor
  · intro hdue name hmem hname
    have hsublist : (contents.filter (IsDue ·)).Sublist (contents.filter (IsTaken fs path ·)) := by
      refine List.monotone_filter_right contents fun item hitem => ?_
      rw [decide_eq_true_iff] at hitem ⊢
      cases item with
      | error fault => trivial
      | ok e => exact ⟨hitem.1, .inl hitem.2⟩
    have hlength : (contents.filter (IsDue ·)).length =
        (contents.filter (IsTaken fs path ·)).length :=
      hdue.length_eq.symm.trans htaken.length_eq
    cases hkind : fs.kind (path.join name) with
    | ok kind =>
      rw [h.kind_eq _ (Contents.mem_entries.2 hmem) kind hkind]
    | error fault =>
      have hmem' : .ok (name, .directory) ∈ contents.filter (IsTaken fs path ·) :=
        List.mem_filter.2 ⟨hmem, decide_eq_true ⟨hname, .inr ⟨fault, hkind⟩⟩⟩
      rw [← hsublist.eq_of_length hlength] at hmem'
      exact absurd rfl (of_decide_eq_true (List.mem_filter.1 hmem').2).2
  · intro hknown
    have hfilter : contents.filter (IsDue ·) = contents.filter (IsTaken fs path ·) := by
      refine List.filter_congr fun item hitem => decide_eq_decide.2 ?_
      cases item with
      | error fault => exact Iff.rfl
      | ok e =>
        obtain ⟨name, kind⟩ := e
        refine and_congr_right fun hname => ⟨.inl, fun hor hdirectory => ?_⟩
        obtain rfl : kind = .directory := hdirectory
        obtain ⟨fault, hfault⟩ := hor.resolve_left (not_not_intro rfl)
        nomatch (hknown name hitem hname).symm.trans hfault
    rwa [hfilter]

/-- What is loaded depends on what there is, and not on how it is listed. -/
lemma loadDirectory_perm (h : fs.Lists path contents) {list' : Path → Except FileFault Listing}
    (h' : FileSystem.Lists { fs with list := list' } path contents')
    (hperm : contents'.Perm contents) :
    (FileSystem.loadDirectory { fs with list := list' } path).Perm (fs.loadDirectory path) := by
  rw [loadDirectory_eq h, loadDirectory_eq h']
  refine (arrange_perm _).trans (.trans ?_ (arrange_perm _).symm)
  exact (hperm.filter _).map _

/-- Loading a directory gives one result for each fault in its listing and for each specification file
and none for any other entry, in order, just if every directory with the name of a specification file
is known to be one; an unknown one is taken for a file. A file gives the automaton that its text
specifies, and fails if it has no such text. The results are the same however the directory is listed,
the successes also in their order. -/
theorem loadDirectory_of_lists (h : fs.Lists path contents) :
    (LoadsAll fs path (contents.filter (IsDue ·)) (fs.loadDirectory path) ↔
      ∀ name, .ok (name, .directory) ∈ contents → IsSpecificationName name →
        fs.kind (path.join name) = .ok .directory) ∧
    LoadsAll fs path (contents.filter (IsTaken fs path ·)) (fs.loadDirectory path) ∧
    (∀ p m, fs.load p = .ok m ↔
      ∃ text : String, fs.read p = .ok text.toByteArray ∧ Specification.parse text = .ok m) ∧
    ∀ list' contents', FileSystem.Lists { fs with list := list' } path contents' →
      contents'.Perm contents →
      (FileSystem.loadDirectory { fs with list := list' } path).Perm (fs.loadDirectory path) ∧
      (FileSystem.loadDirectory { fs with list := list' } path).filterMap success? =
        (fs.loadDirectory path).filterMap success? := by
  have hall := loadsAll_loadDirectory h
  refine ⟨loadsAll_isDue_iff h, hall, load_eq_ok_iff fs, fun list' contents' h' hperm => ?_⟩
  have hresults := loadDirectory_perm h h' hperm
  exact ⟨hresults, (loadsAll_loadDirectory h').ordered.successes_eq hall.ordered hresults⟩

/-- The tree of one directory. -/
def oneDirectory (entries : Tree) : Tree :=
  [(.ofText "d", .directory entries)]

lemma find_oneDirectory (entries : Tree) :
    (oneDirectory entries).disk.find "d" = .ok (.directory entries) :=
  rfl

/-- Entries of all kinds. One has a name that is no text. -/
def mixedEntries : Tree :=
  [(.ofText "x.fa", .directory [(.ofText "y.fa", .file Specification.oneStateText.toByteArray)]),
    (.ofText ".fa", .file Specification.oneStateText.toByteArray),
    (.ofText "b.fa", .file Specification.oneStateText.toByteArray),
    (.ofText "bytes.fa", .file ⟨#[0xff]⟩),
    (.ofText "b.txt", .file Specification.oneStateText.toByteArray),
    (0xff :: FileName.ofText ".fa", .file Specification.oneStateText.toByteArray),
    (.ofText "empty.fa", .file "".toByteArray)]

/-- Four of them are specification files. -/
theorem loadDirectory_mixed :
    (oneDirectory mixedEntries).fileSystem.Lists "d" (contentsOf mixedEntries) ∧
      LoadsAll (oneDirectory mixedEntries).fileSystem "d"
        [.ok (.ofText "b.fa", .file), .ok (.ofText "bytes.fa", .file),
          .ok (0xff :: FileName.ofText ".fa", .file), .ok (.ofText "empty.fa", .file)]
        ((oneDirectory mixedEntries).fileSystem.loadDirectory "d") ∧
      (oneDirectory mixedEntries).fileSystem.load (Path.join "d" (.ofText "b.fa")) =
        .ok Specification.oneState := by
  have hlisting : IsListing mixedEntries := by decide
  have hlists := Disk.lists (find_oneDirectory mixedEntries) hlisting
  obtain ⟨hall, -, hload, -⟩ := loadDirectory_of_lists hlists
  refine ⟨hlists, hall.2 fun name hmem _ => ?_, ?_⟩
  · exact Disk.kind_of_mem_contentsOf (find_oneDirectory mixedEntries) hlisting (by decide) hmem
  · exact (hload _ _).2 ⟨_, rfl, Specification.parse_oneStateText⟩

/-- The directory `d` by a path of many steps. -/
def dotted : Nat → Path
  | 0 => "d"
  | n + 1 => ⟨dot :: slash :: (dotted n).bytes⟩

lemma length_dotted (n : Nat) : (dotted n).bytes.length = 2 * n + 1 := by
  induction n with
  | zero => rfl
  | succ n ih =>
    rw [dotted, List.length_cons, List.length_cons, ih]
    omega

lemma find_dotted {d : Disk} {entries : Tree} (h : d.find "d" = .ok (.directory entries)) (n : Nat)
    (hn : 2 * n + 1 ≤ Tree.maxPathSize) : d.find (dotted n) = .ok (.directory entries) := by
  induction n with
  | zero => exact h
  | succ n ih =>
    refine Disk.find_dot_slash (ih (by omega)) ?_ (by rw [length_dotted]; omega)
    cases n <;> rfl

/-- A directory that is taken for a file: its path has 4104 bytes. -/
theorem loadDirectory_dotted :
    (oneDirectory [(.ofText "directory.fa", .directory [])]).fileSystem.Lists (dotted 2045)
        [.ok (.ofText "directory.fa", .directory)] ∧
      ¬ LoadsAll (oneDirectory [(.ofText "directory.fa", .directory [])]).fileSystem (dotted 2045) []
        ((oneDirectory [(.ofText "directory.fa", .directory [])]).fileSystem.loadDirectory
          (dotted 2045)) := by
  have hlisting : IsListing [(.ofText "directory.fa", .directory [])] := by decide
  have hfind := find_dotted (find_oneDirectory [(.ofText "directory.fa", .directory [])]) 2045
    (by decide)
  have hlists := Disk.lists hfind hlisting
  refine ⟨hlists, fun hall => ?_⟩
  have hknown := (loadsAll_isDue_iff hlists).1 hall _ List.mem_cons_self (by decide)
  have hlong : Tree.maxPathSize < ((dotted 2045).join (.ofText "directory.fa")).bytes.length := by
    refine lt_of_lt_of_le ?_ ((dotted 2045).le_length_join _)
    rw [length_dotted]
    decide
  have hunknown := Disk.kind_of_mem hfind hlisting List.mem_cons_self
  rw [if_pos hlong] at hunknown
  nomatch hunknown.symm.trans hknown

end Automata.Files
