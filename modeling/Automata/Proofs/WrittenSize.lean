import Automata.Proofs.RoundTrip

/-!
# The size of what is written

What is written for an automaton that was read from a text is no longer than the text, but for one
byte on each line that omits its symbol, where the marker of the empty move is written. So it is read
back unless those bytes take it over the limit, and then it is refused for its size.
-/

namespace Automata.Specification

open String (utf8Len)

variable {α : Type} {Holds : List Char → α → Prop} {m : Automaton} {t : Transition}
  {l a b c : List Char} {ls : List (List Char)} {marker s x : String} {entries : List α}
  {ss : List String}

/-! ### Lines that omit their symbol -/

/-- Whether a `>` follows the first colon, with spaces and tabs at most between them. -/
def omitsSymbol : List Char → Bool
  | [] => false
  | x :: l =>
    if x = ':' then (l.dropWhile fun x => x == ' ' || x == '\t').head? == some '>'
    else omitsSymbol l

example : ["a:>b", "a: \t>b", "a:$>b", "a", "#initial"].map (fun l => omitsSymbol l.toList) =
    [true, true, false, false, false] := rfl

lemma HoldsLabel.ne_colon (h : HoldsLabel l s) : ∀ x ∈ l, x ≠ ':' := by
  obtain ⟨a, b, ha, hb, hs, rfl⟩ := h
  have blank : ∀ {a : List Char}, Blank a → ∀ x ∈ a, x ≠ ':' := by
    intro a ha x hx
    rcases ha x hx with rfl | rfl <;> decide
  simp only [List.forall_mem_append]
  refine ⟨blank ha, ?_, blank hb⟩
  rintro x hx rfl
  exact hs.not_separator ':' hx (by simp [separators])

lemma omitsSymbol_of_blank (ha : ∀ x ∈ a, x ≠ ':') (hb : Blank b) :
    omitsSymbol (a ++ ':' :: (b ++ '>' :: c)) = true := by
  induction a with
  | nil =>
    have hdrop : (b ++ '>' :: c).dropWhile (fun x => x == ' ' || x == '\t') = '>' :: c := by
      rw [List.dropWhile_append_of_pos fun x hx => by simpa using hb x hx]
      rfl
    rw [List.nil_append, omitsSymbol, if_pos rfl, hdrop]
    rfl
  | cons x a ih =>
    obtain ⟨hx, ha⟩ := List.forall_mem_cons.1 ha
    rw [List.cons_append, omitsSymbol, if_neg hx, ih ha]

/-! ### The size of a line -/

/-- `s` is no longer than the line, or by one byte if the line omits its symbol. -/
def Bounds (l : List Char) (s : String) : Prop :=
  s.utf8ByteSize ≤ utf8Len l + (omitsSymbol l).toNat

lemma HoldsLabel.size_le (h : HoldsLabel l s) : s.utf8ByteSize ≤ utf8Len l := by
  obtain ⟨a, b, -, -, -, rfl⟩ := h
  simp only [String.utf8Len_append, String.utf8Len_toList]
  omega

lemma HoldsLabels.size_le (h : HoldsLabels l ss) :
    (",".intercalate ss).utf8ByteSize ≤ utf8Len l := by
  induction h with
  | last h => simpa using h.size_le
  | @more l ls s ss h h' ih =>
    have hs := h.size_le
    cases ss with
    | nil => nomatch h'
    | cons s' ss =>
      rw [String.intercalate_cons_cons]
      simp only [String.utf8ByteSize_append, String.utf8Len_append, String.utf8Len_cons]
      have : ",".utf8ByteSize = ','.utf8Size := by decide
      omega

lemma HoldsTransition.bounds (h : HoldsTransition l t) : Bounds l (transitionLine t) := by
  obtain ⟨a, b, c, rfl, ha, hb, hc⟩ := h
  have hsource := ha.size_le
  have htargets := hc.size_le
  have hsymbol : t.symbol.utf8ByteSize ≤
      utf8Len b + (omitsSymbol (a ++ ':' :: (b ++ '>' :: c))).toNat := by
    rcases hb with hb | ⟨hb, hsymbol⟩
    · exact Nat.le_add_right_of_le hb.size_le
    · rw [hsymbol, omitsSymbol_of_blank ha.ne_colon hb]
      exact Nat.le_add_left 1 _
  have hmarks : ":".utf8ByteSize = ':'.utf8Size ∧ ">".utf8ByteSize = '>'.utf8Size := by decide
  rw [Bounds, transitionLine, Transition.key]
  simp only [String.utf8ByteSize_append, String.utf8Len_append, String.utf8Len_cons]
  omega

/-- A section is written in lines that its own lines bound. -/
lemma HoldsSection.bounds {write : α → String} (h : HoldsSection marker Holds entries ls)
    (hwrite : ∀ l v, Holds l v → Bounds l (write v)) :
    List.Forall₂ Bounds ls (marker :: entries.map write) := by
  obtain ⟨b, body, -, rfl, hbody⟩ := h
  refine .cons ?_ (List.forall₂_map_right_iff.2 (hbody.imp hwrite))
  rw [Bounds, String.utf8Len_append, String.utf8Len_toList]
  omega

/-- The lines that are written for an automaton are bounded by those that declare it. -/
lemma Declares.bounds (h : Declares ls m) : List.Forall₂ Bounds ls (linesOf m) := by
  obtain ⟨ls₁, ls₂, ls₃, ls₄, ls₅, rfl, h₁, h₂, h₃, h₄, h₅⟩ := h
  have label : ∀ l s, HoldsLabel l s → Bounds l (id s) :=
    fun _ _ h => Nat.le_add_right_of_le h.size_le
  have hlines : linesOf m = "#states" :: m.states.map id ++ ("#initial" :: m.initial.map id ++
      ("#accepting" :: m.accepting.map id ++ ("#alphabet" :: m.alphabet.map id ++
        "#transitions" :: m.transitions.map transitionLine))) := by
    simp [linesOf]
  rw [hlines]
  exact List.rel_append (h₁.bounds label) (List.rel_append (h₂.bounds label)
    (List.rel_append (h₃.bounds label) (List.rel_append (h₄.bounds label)
      (h₅.bounds fun _ _ h => h.bounds))))

/-! ### The size of a text -/

/-- The bytes of lines when each of them has a line feed. -/
def sizeOfLines : List (List Char) → Nat
  | [] => 0
  | l :: ls => utf8Len l + 1 + sizeOfLines ls

lemma sizeOfLines_modifyHead_le (y : Char) (ls : List (List Char)) :
    sizeOfLines (ls.modifyHead (y :: ·)) ≤ sizeOfLines ls + y.utf8Size := by
  cases ls with
  | nil => exact Nat.zero_le _
  | cons l ls =>
    simp only [List.modifyHead_cons, sizeOfLines, String.utf8Len_cons]
    omega

lemma sizeOfLines_filter_le (p : List Char → Bool) (ls : List (List Char)) :
    sizeOfLines (ls.filter p) ≤ sizeOfLines ls := by
  induction ls with
  | nil => exact Nat.le_refl _
  | cons l ls ih =>
    rw [List.filter_cons]
    split
    · exact Nat.add_le_add_left ih _
    · exact Nat.le_add_left_of_le ih

/-- A line end takes a byte or two, and a text has one less of them than lines. -/
lemma sizeOfLines_cutLines_le (text : List Char) :
    sizeOfLines (cutLines text) ≤ utf8Len text + 1 := by
  -- the end of the text, `\r\n`, another line end, and a character of the line
  fun_induction cutLines text with
  | case1 => exact Nat.le_refl _
  | case2 text ih =>
    have := '\r'.utf8Size_pos
    simp only [sizeOfLines, String.utf8Len_nil, String.utf8Len_cons]
    omega
  | case3 y text _ _ ih =>
    have := y.utf8Size_pos
    simp only [sizeOfLines, String.utf8Len_nil, String.utf8Len_cons]
    omega
  | case4 y text _ _ ih =>
    have := sizeOfLines_modifyHead_le y (cutLines text)
    rw [String.utf8Len_cons]
    omega

lemma sizeOfLines_contentLines_le (text : List Char) :
    sizeOfLines (contentLines text) ≤ utf8Len text + 1 :=
  Nat.le_trans (sizeOfLines_filter_le _ _) (sizeOfLines_cutLines_le text)

/-- Joined lines have one line feed less than lines. -/
lemma size_intercalate (ss : List String) (hne : ss ≠ []) :
    ("\n".intercalate ss).utf8ByteSize + 1 = sizeOfLines (ss.map String.toList) := by
  induction ss with
  | nil => exact (hne rfl).elim
  | cons s ss ih =>
    cases ss with
    | nil => simp [sizeOfLines]
    | cons s' ss =>
      have hfeed : "\n".utf8ByteSize = 1 := by decide
      rw [String.intercalate_cons_cons, List.map_cons, sizeOfLines, ← ih (by simp)]
      simp only [String.utf8ByteSize_append, String.utf8Len_toList]
      omega

/-- Strings of `k` bytes at most take up to `k + 1` each when a separator of one byte joins them. -/
lemma size_intercalate_le {k : Nat} (sep : String) (hsep : sep.utf8ByteSize = 1)
    (h : ∀ s ∈ ss, s.utf8ByteSize ≤ k) :
    (sep.intercalate ss).utf8ByteSize ≤ ss.length * (k + 1) := by
  induction ss with
  | nil => simp
  | cons s ss ih =>
    obtain ⟨hs, hss⟩ := List.forall_mem_cons.1 h
    have ih := ih hss
    cases ss with
    | nil =>
      rw [String.intercalate_singleton, List.length_singleton, Nat.one_mul]
      exact Nat.le_add_right_of_le hs
    | cons s' ss =>
      rw [String.intercalate_cons_cons, List.length_cons, Nat.succ_mul]
      simp only [String.utf8ByteSize_append]
      omega

lemma sizeOfLines_le_of_bounds (h : List.Forall₂ Bounds ls ss) :
    sizeOfLines (ss.map String.toList) ≤ sizeOfLines ls + ls.countP omitsSymbol := by
  induction h with
  | nil => exact Nat.le_refl _
  | @cons l s ls ss h _ ih =>
    have hcount : (omitsSymbol l).toNat = if omitsSymbol l = true then 1 else 0 := by
      cases omitsSymbol l <;> rfl
    rw [Bounds] at h
    simp only [List.map_cons, sizeOfLines, String.utf8Len_toList, List.countP_cons]
    omega

/-- What is written is longer than a text that declares it by the symbols that the text omits. -/
lemma size_encode_le {text : String} (h : Declares (contentLines text.toList) m) :
    (encode m).utf8ByteSize ≤
      text.utf8ByteSize + (contentLines text.toList).countP omitsSymbol := by
  have hlines := sizeOfLines_le_of_bounds h.bounds
  have htext := sizeOfLines_contentLines_le text.toList
  have hsize : (encode m).utf8ByteSize + 1 = sizeOfLines ((linesOf m).map String.toList) :=
    size_intercalate _ (by simp [linesOf])
  rw [String.utf8Len_toList] at htext
  omega

/-! ### Texts with an empty move -/

/-- A state `s` with an empty move to itself, and a state `x`. -/
def emptyMove (x : String) : Automaton :=
  ⟨["s", x], ["s"], [], [], [⟨"s", "$", ["s"]⟩]⟩

/-- A text for it that omits the symbol of the empty move. -/
def emptyMoveText (x : String) : String :=
  "#states\ns\n" ++ x ++ "\n#initial\ns\n#accepting\n#alphabet\n#transitions\ns:>s"

lemma encode_emptyMove (x : String) : encode (emptyMove x) =
    "#states\ns\n" ++ x ++ "\n#initial\ns\n#accepting\n#alphabet\n#transitions\ns:$>s" := by
  rw [← String.toList_inj, toList_encode]
  simp [linesOf, emptyMove, transitionLine, Transition.key]

lemma size_emptyMoveText (x : String) : (emptyMoveText x).utf8ByteSize = x.utf8ByteSize + 60 := by
  have hstates : "#states\ns\n".utf8ByteSize = 10 := by decide
  have hrest : "\n#initial\ns\n#accepting\n#alphabet\n#transitions\ns:>s".utf8ByteSize = 50 := by
    decide
  rw [emptyMoveText, String.utf8ByteSize_append, String.utf8ByteSize_append]
  omega

lemma size_encode_emptyMove (x : String) :
    (encode (emptyMove x)).utf8ByteSize = x.utf8ByteSize + 61 := by
  have hstates : "#states\ns\n".utf8ByteSize = 10 := by decide
  have hrest : "\n#initial\ns\n#accepting\n#alphabet\n#transitions\ns:$>s".utf8ByteSize = 51 := by
    decide
  rw [encode_emptyMove, String.utf8ByteSize_append, String.utf8ByteSize_append]
  omega

lemma declares_emptyMoveText (hx : IsLabel x.toList) :
    Declares (contentLines (emptyMoveText x).toList) (emptyMove x) := by
  have hs : HoldsLabel "s".toList "s" := IsLabel.holdsLabel (by decide)
  have ht : HoldsTransition "s:>s".toList ⟨"s", "$", ["s"]⟩ :=
    ⟨['s'], [], ['s'], rfl, hs, .inr ⟨blank_nil, rfl⟩, .last hs⟩
  have h : Declares ["#states".toList, "s".toList, x.toList, "#initial".toList, "s".toList,
      "#accepting".toList, "#alphabet".toList, "#transitions".toList, "s:>s".toList]
      (emptyMove x) :=
    ⟨["#states".toList, "s".toList, x.toList], ["#initial".toList, "s".toList],
      ["#accepting".toList], ["#alphabet".toList], ["#transitions".toList, "s:>s".toList], rfl,
      holdsSection_cons (.cons hs (.cons hx.holdsLabel .nil)), holdsSection_cons (.cons hs .nil),
      holdsSection_cons .nil, holdsSection_cons .nil, holdsSection_cons (.cons ht .nil)⟩
  rw [← contentLines_intercalate h.content] at h
  simpa [emptyMoveText] using h

lemma wellFormed_emptyMove (hx : x ≠ "s") : (emptyMove x).WellFormed where
  states_ne_nil := by simp [emptyMove]
  nodup_states := by simpa [emptyMove] using hx.symm
  initial_ne_nil := by simp [emptyMove]
  initial_subset := by simp [emptyMove]
  accepting_subset := by simp [emptyMove]
  source_mem := by simp [emptyMove]
  targets_subset := by simp [emptyMove]
  symbol_mem := by simp [emptyMove, epsilon]
  targets_ne_nil := by simp [emptyMove]
  nodup_targets := by simp [emptyMove]
  nodup_keys := by simp [emptyMove]

/-- The text is read if it is not too long. -/
lemma parse_emptyMoveText (hx : IsLabel x.toList) (hne : x ≠ "s")
    (hsize : x.utf8ByteSize + 60 ≤ maxSpecificationSize) :
    parse (emptyMoveText x) = .ok (emptyMove x) :=
  Outcome.parse_eq (.sound (by rwa [size_emptyMoveText]) (declares_emptyMoveText hx)
    (wellFormed_emptyMove hne))

/-! ### Writing what was read -/

lemma HoldsSection.forall_isLabel (h : HoldsSection marker HoldsLabel ss ls) :
    ∀ s ∈ ss, IsLabel s.toList := by
  obtain ⟨b, body, -, rfl, hbody⟩ := h
  induction hbody with
  | nil => simp
  | cons h _ ih =>
    obtain ⟨_, _, -, -, hs, -⟩ := h
    exact List.forall_mem_cons.2 ⟨hs, ih⟩

/-- What lines declare has labels for states and symbols. -/
lemma Declares.isLabelled (h : Declares ls m) : IsLabelled m := by
  obtain ⟨_, _, _, _, _, -, hstates, -, -, halphabet, -⟩ := h
  exact ⟨hstates.forall_isLabel, halphabet.forall_isLabel⟩

/-- An automaton that was read is read again if what is written for it is not too long, and that is
refused for its size only. It is longer than the text by the symbols at most that the text omits. -/
theorem parse_encode_of_parse {text : String} (h : parse text = .ok m) :
    (parse (encode m) = .ok m ↔ (encode m).utf8ByteSize ≤ maxSpecificationSize) ∧
      (maxSpecificationSize < (encode m).utf8ByteSize →
        parse (encode m) = .error (.oversized (encode m).utf8ByteSize)) ∧
      (encode m).utf8ByteSize ≤
        text.utf8ByteSize + (contentLines text.toList).countP omitsSymbol ∧
      ((∀ l ∈ contentLines text.toList, omitsSymbol l = false) → parse (encode m) = .ok m) := by
  have hw := wellFormed_of_parse h
  obtain ⟨htext, hread, -⟩ := (parse_eq_ok_iff _ _).1 h
  have hm := ((read_eq_ok_iff _ _).1 hread).1
  have hsize := size_encode_le hm
  have hparse := parse_encode_of_size_le hw hm.isLabelled
  refine ⟨⟨?_, hparse⟩, fun hlt => Outcome.parse_eq (.oversized hlt), hsize, ?_⟩
  · intro h'
    exact ((parse_eq_ok_iff _ _).1 h').1
  · intro hno
    have hcount : (contentLines text.toList).countP omitsSymbol = 0 := by
      simpa [List.countP_eq_zero] using hno
    exact hparse (by omega)

/-- What is written for a short text is a byte longer, and it is read again. -/
theorem parse_encode_emptyMove_short :
    parse (emptyMoveText "t") = .ok (emptyMove "t") ∧
      (encode (emptyMove "t")).utf8ByteSize = (emptyMoveText "t").utf8ByteSize + 1 ∧
      parse (encode (emptyMove "t")) = .ok (emptyMove "t") := by
  have h := parse_emptyMoveText (x := "t") (by decide) (by decide) (by decide)
  refine ⟨h, by rw [size_encode_emptyMove, size_emptyMoveText], ?_⟩
  refine (parse_encode_of_parse h).1.2 ?_
  rw [size_encode_emptyMove]
  decide

/-- With a label that makes the text as long as a text may be, what is written is too long. -/
lemma parse_encode_emptyMove (hx : IsLabel x.toList)
    (hsize : x.utf8ByteSize + 60 = maxSpecificationSize) :
    parse (emptyMoveText x) = .ok (emptyMove x) ∧
      parse (encode (emptyMove x)) = .error (.oversized (maxSpecificationSize + 1)) := by
  have hne : x ≠ "s" := by
    rintro rfl
    exact absurd hsize (by decide)
  have hwritten : (encode (emptyMove x)).utf8ByteSize = maxSpecificationSize + 1 := by
    rw [size_encode_emptyMove, ← hsize]
  refine ⟨parse_emptyMoveText hx hne (Nat.le_of_eq hsize), ?_⟩
  rw [← hwritten]
  exact Outcome.parse_eq (.oversized (by rw [hwritten]; exact Nat.lt_succ_self _))

/-- The label of `n` letters. -/
def longLabel (n : Nat) : String :=
  String.ofList (List.replicate n 'a')

lemma size_longLabel (n : Nat) : (longLabel n).utf8ByteSize = n := by
  rw [longLabel, String.utf8ByteSize_ofList]
  induction n with
  | zero => rfl
  | succ n ih =>
    rw [List.replicate_succ, String.utf8Len_cons, ih]
    rfl

lemma isLabel_longLabel {n : Nat} (hn : n ≠ 0) : IsLabel (longLabel n).toList := by
  rw [longLabel, String.toList_ofList]
  refine ⟨by simpa using hn, by simp [List.head?_replicate], ?_⟩
  intro y hy
  rw [List.eq_of_mem_replicate hy]
  decide

/-- A text that is read, and what is written for it is refused. -/
theorem parse_encode_emptyMove_longLabel :
    parse (emptyMoveText (longLabel 65476)) = .ok (emptyMove (longLabel 65476)) ∧
      parse (encode (emptyMove (longLabel 65476))) = .error (.oversized 65537) :=
  parse_encode_emptyMove (isLabel_longLabel (by decide)) (by rw [size_longLabel]; rfl)

end Automata.Specification
