import Automata.Proofs.Defects
import Automata.Proofs.Quoting

/-!
# The report on an automaton

Validation reports on every automaton: it is sound, or it has one first defect, which is the error. The
message of the error says which rule is broken and quotes the offenders one by one, so that the defect
can be read off the message.
-/

namespace Automata

variable {m : Automaton} {d d' : Defect}

/-! ### Messages about defects -/

/-- How the messages about the rules begin, as far as it takes to tell them apart. -/
def Defect.headlines : List (List Char) :=
  ["No states defined", "Duplicate states:", "No initial state ", "Initial states ar",
    "Accepting states ", "Transitions refer", "Transitions use s", "Transitions witho",
    "Transitions with "].map String.toList

lemma take_toList_append {start : String} {k : Nat} (h : k ≤ start.toList.length) (rest : String) :
    (start ++ rest).toList.take k = start.toList.take k := by
  rw [String.toList_append, List.take_append_of_le_length h]

lemma Defect.getElem?_headlines (d : Defect) :
    headlines[d.rank]? = some (d.message.toList.take 17) := by
  cases d with
  | noStates => rfl
  | noInitialState => rfl
  | _ labels =>
    refine congrArg some (Eq.symm ((take_toList_append ?_ (Text.quotedList labels)).trans ?_))
    · decide
    · rfl

lemma Defect.rank_eq_of_message_eq (h : d.message = d'.message) : d.rank = d'.rank := by
  have hrank := d.getElem?_headlines
  have hrank' := d'.getElem?_headlines
  have hdistinct : headlines.Nodup := by decide
  have hlt : d.rank < headlines.length := (List.getElem?_eq_some_iff.1 hrank).1
  rw [← List.getElem?_inj hlt hdistinct, hrank, hrank', h]

/-- The message says which rule is broken and what breaks it. -/
theorem Defect.message_inj : d.message = d'.message ↔ d = d' := by
  have quoted_inj : ∀ {start : String} {labels labels' : List String},
      start ++ Text.quotedList labels = start ++ Text.quotedList labels' → labels = labels' :=
    fun h => Text.quotedList_inj.1 (String.append_right_inj _ |>.1 h)
  constructor
  · intro h
    have hrank := rank_eq_of_message_eq h
    cases d <;> cases d' <;> simp [rank] at hrank
    all_goals first | rfl | rw [quoted_inj h]
  · rintro rfl
    rfl

/-! ### Validation -/

lemma Automaton.validate_eq_error_iff {e : Error} :
    m.validate = .error e ↔ ∃ d, m.FirstDefect d ∧ e = .unsound d := by
  simp only [← defect?_eq_some_iff, validate]
  cases m.defect? with
  | none => simp
  | some d => simp [eq_comm]

/-- An automaton that is not sound has one first defect. -/
lemma Automaton.existsUnique_firstDefect (hm : ¬ m.Sound) : ∃! d, m.FirstDefect d := by
  rw [← validate_eq_ok_iff] at hm
  cases hv : m.validate with
  | ok => exact (hm hv).elim
  | error e =>
    obtain ⟨d, hd, -⟩ := validate_eq_error_iff.1 hv
    refine ⟨d, hd, fun d' hd' => ?_⟩
    rw [← defect?_eq_some_iff] at hd hd'
    exact Option.some.inj (hd'.symm.trans hd)

lemma Error.message_unsound_inj :
    (Error.unsound d).message = (Error.unsound d').message ↔ d = d' := by
  rw [← Defect.message_inj]
  exact String.append_right_inj _

/-- Validation accepts the automata that break none of the rules, and no others. Any other automaton
has one first defect; this defect, with all its offenders, is the error. It is also the only one that
the message of the error can be about. -/
theorem Automaton.validate_exact (m : Automaton) :
    (m.validate = .ok () ↔ m.Sound) ∧
      (m.Sound ∨ ∃! d, m.FirstDefect d) ∧
      (∀ d, m.validate = .error (.unsound d) ↔ m.FirstDefect d) ∧
      ∀ d, (∃ e, m.validate = .error e ∧ e.message = (Error.unsound d).message) ↔
        m.FirstDefect d := by
  have herror : ∀ d, m.validate = .error (.unsound d) ↔ m.FirstDefect d := by
    intro d
    rw [validate_eq_error_iff]
    constructor
    · rintro ⟨d', hd', heq⟩
      rwa [Error.unsound.inj heq]
    · exact fun hd => ⟨d, hd, rfl⟩
  refine ⟨m.validate_eq_ok_iff, ?_, herror, fun d => ⟨?_, fun hd => ?_⟩⟩
  · exact (Classical.em m.Sound).imp_right existsUnique_firstDefect
  · rintro ⟨e, he, hmessage⟩
    obtain ⟨d', hd', rfl⟩ := validate_eq_error_iff.1 he
    rwa [← Error.message_unsound_inj.1 hmessage]
  · exact ⟨.unsound d, (herror d).2 hd, rfl⟩

end Automata
