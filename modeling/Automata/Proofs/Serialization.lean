import Automata.Json.Codec
import Automata.Proofs.JsonTexts

/-!
# Round trips through JSON

Automata, transitions, edges, classes and graphs are read back from the text they are written as. So
every text that is read, however it is spelt, has one normal form, which is read as the same value.
-/

namespace Automata

namespace JsonCodec

open Json

/-- What is written is read back, and there is no literal name and no number in it. -/
class Faithful (α : Type) [JsonCodec α] : Prop where
  decode?_encode (a : α) : decode? (encode a) = some a
  wordless_encode (a : α) : (encode a).Wordless

open Faithful

variable {α : Type} [JsonCodec α]

/-! ### Lists -/

lemma mapM_map_of_eq {ι β γ : Type} {f : ι → β} {g : β → Option γ} {h : ι → γ} {l : List ι}
    (hl : ∀ i ∈ l, g (f i) = some (h i)) : (l.map f).mapM g = some (l.map h) := by
  induction l with
  | nil => rfl
  | cons i l ih =>
    obtain ⟨hi, hl⟩ := List.forall_mem_cons.1 hl
    simp [hi, ih hl]

instance : Faithful String where
  decode?_encode _ := rfl
  wordless_encode := wordless_ofString

instance [Faithful α] : Faithful (List α) where
  decode?_encode l := by
    show (l.map encode).mapM decode? = some l
    rw [mapM_map_of_eq fun a _ => decode?_encode a, List.map_id']
  wordless_encode l := wordless_array (by simp [wordless_encode])

instance : Faithful Determinism where
  decode?_encode d := by cases d <;> rfl
  wordless_encode d := wordless_ofString d.name

/-! ### Records -/

variable {fields : List (String × Json)} {name : String} {v : Json}

/-- Among fields with different names each name has one value. -/
lemma filter_of_mem (h : (fields.map Prod.fst).Nodup) (hmem : (name, v) ∈ fields) :
    fields.filter (·.1 == name) = [(name, v)] := by
  induction fields with
  | nil => simp at hmem
  | cons field fields ih =>
    obtain ⟨hnot, h⟩ := List.nodup_cons.1 h
    rcases List.mem_cons.1 hmem with rfl | hmem
    · have hrest : fields.filter (·.1 == name) = [] := by
        refine List.filter_eq_nil_iff.2 fun other hother hname => hnot ?_
        exact List.mem_map.2 ⟨other, hother, beq_iff_eq.1 hname⟩
      simp [hrest]
    · have hne : ¬ field.1 = name := by
        rintro rfl
        exact hnot (List.mem_map.2 ⟨_, hmem, rfl⟩)
      simp [hne, ih h hmem]

lemma fieldOf?_of_mem (h : (fields.map Prod.fst).Nodup) (hmem : (name, v) ∈ fields) :
    fieldOf? (fields.map fun (name, v) => (some name, v)) name = some v := by
  have hfilter := filter_of_mem h hmem
  simp [fieldOf?, List.filter_map, Function.comp_def, hfilter]

/-- The object of a record has the value of every field. -/
lemma fieldsOf?_ofFields (h : (fields.map Prod.fst).Nodup) :
    fieldsOf? (fields.map Prod.fst) (ofFields fields) = some (fields.map Prod.snd) := by
  show (if (fields.map fun (name, v) => (some name, v)).all (·.1.isSome) then _ else none) = _
  rw [if_pos (by simp)]
  exact mapM_map_of_eq fun field hfield => fieldOf?_of_mem h hfield

lemma bind_fieldsOf?_ofFields {β : Type} {k : List Json → Option β}
    (h : (fields.map Prod.fst).Nodup) :
    (fieldsOf? (fields.map Prod.fst) (ofFields fields)).bind k = k (fields.map Prod.snd) := by
  rw [fieldsOf?_ofFields h, Option.bind_some]

lemma wordless_ofFields (h : ∀ field ∈ fields, field.2.Wordless) : (ofFields fields).Wordless :=
  wordless_object (List.forall_mem_map.2 h)

instance : Faithful Transition where
  decode?_encode t := by
    refine (bind_fieldsOf?_ofFields (by simp)).trans ?_
    simp [decode?_encode]
  wordless_encode t := wordless_ofFields (by simp [wordless_encode])

instance : Faithful Automaton where
  decode?_encode m := by
    refine (bind_fieldsOf?_ofFields (by simp)).trans ?_
    simp [decode?_encode]
  wordless_encode m := wordless_ofFields (by simp [wordless_encode])

instance : Faithful Edge where
  decode?_encode e := by
    refine (bind_fieldsOf?_ofFields (by simp)).trans ?_
    simp [decode?_encode]
  wordless_encode e := wordless_ofFields (by simp [wordless_encode])

/-! ### Graphs -/

variable {rows : List (String × List Edge)}

/-- A label that is missing is entered at the end. -/
lemma updateRow_of_notMem {f : List Edge → List Edge} {label : String}
    (h : label ∉ rows.map (·.1)) : Graph.updateRow f label rows = rows ++ [(label, f [])] := by
  induction rows with
  | nil => rfl
  | cons row rows ih =>
    obtain ⟨hne, h⟩ := not_or.1 (mt List.mem_cons.2 h)
    rw [Graph.updateRow, if_neg (Ne.symm hne), ih h, List.cons_append]

/-- Rows with labels of their own are entered one behind the other. -/
lemma foldlM_addRow? {g g' : Graph} (h : g'.adjacency = g.adjacency ++ rows) :
    (rows.map fun (v, es) => (some v, encode es)).foldlM addRow? g = some g' := by
  induction rows generalizing g with
  | nil =>
    obtain ⟨adjacency, nodup⟩ := g
    obtain ⟨adjacency', nodup'⟩ := g'
    obtain rfl : adjacency' = adjacency := by simpa using h
    rfl
  | cons row rows ih =>
    obtain ⟨v, es⟩ := row
    -- `g'` has every vertex once, so this one was not entered before.
    have hnew : v ∉ g.adjacency.map (·.1) := by
      have hnodup := g'.nodup
      rw [h, List.map_append, List.nodup_append] at hnodup
      exact fun hv => hnodup.2.2 v hv v (by simp) rfl
    have hstep : addRow? g (some v, encode es) = some (g.setEdges v es) := by
      simp [addRow?, decode?_encode]
    have hrows : (g.setEdges v es).adjacency = g.adjacency ++ [(v, es)] := updateRow_of_notMem hnew
    rw [List.map_cons, List.foldlM_cons, hstep]
    exact ih (by rw [h, hrows, List.append_assoc, List.singleton_append])

instance : Faithful Graph where
  decode?_encode g := by
    refine (bind_fieldsOf?_ofFields (by simp)).trans ?_
    exact foldlM_addRow? rfl
  wordless_encode g := by
    refine wordless_ofFields (List.forall_mem_singleton.2 (wordless_object ?_))
    rintro _ hmember
    obtain ⟨row, -, rfl⟩ := List.mem_map.1 hmember
    exact wordless_encode row.2

/-! ### Texts -/

/-- The text that is written for what a text is read as. -/
def normalize? (α : Type) [JsonCodec α] (text : String) : Option String :=
  (parse? α text).map write

/-- Every value is read back from its text. A text that is read has a normal form: it is read as the
same value and is its own normal form. Texts share their normal form if they are read as the same
value, and only then. -/
structure RoundTrips (α : Type) [JsonCodec α] : Prop where
  parse?_write (a : α) : parse? α (write a) = some a
  parse?_normalize {text text' : String} (h : normalize? α text = some text') :
    parse? α text' = parse? α text
  normalize?_normalize {text text' : String} (h : normalize? α text = some text') :
    normalize? α text' = some text'
  normalize?_inj {text text' : String} :
    normalize? α text = normalize? α text' ↔ parse? α text = parse? α text'

lemma parse?_write_of_faithful [Faithful α] (a : α) : parse? α (write a) = some a := by
  rw [parse?, write, Json.parse?_compact (wordless_encode a), Option.bind_some, decode?_encode]

lemma write_injective [Faithful α] : Function.Injective (write : α → String) := by
  intro a b h
  have hread := parse?_write_of_faithful a
  rw [h, parse?_write_of_faithful] at hread
  exact (Option.some.inj hread).symm

lemma RoundTrips.of_faithful [Faithful α] : RoundTrips α := by
  have stable : ∀ {text text'}, normalize? α text = some text' →
      parse? α text' = parse? α text := by
    intro text text' h
    obtain ⟨a, ha, rfl⟩ := Option.map_eq_some_iff.1 h
    rw [parse?_write_of_faithful, ha]
  exact
    { parse?_write := parse?_write_of_faithful
      parse?_normalize := stable
      normalize?_normalize := fun h => by rw [normalize?, stable h, ← h, normalize?]
      normalize?_inj := (Option.map_injective write_injective).eq_iff }

/-- Automata, transitions, edges, classes and graphs make the round trip through JSON. The order of
the vertices of a graph and of the edges of each vertex is kept, since both belong to the graph. -/
theorem roundTrips_automata_graphs :
    RoundTrips Automaton ∧ RoundTrips Transition ∧ RoundTrips Edge ∧ RoundTrips Determinism ∧
      RoundTrips Graph :=
  ⟨.of_faithful, .of_faithful, .of_faithful, .of_faithful, .of_faithful⟩

/-- A graph in loose spelling: it has a field more, an edge as an array, escapes, and a vertex with
two rows, of which the first gives the place and the second the edges. -/
def looseGraph : String :=
  "\x7b\"note\": [1e3, null], \"adjacency\" : \x7b\"p\": [],\n" ++
    "\"\\u0071\": [[\"p\", \"\\/\\u001F\"]],\n" ++
    "\"p\": [\x7b\"weight\": \"\\ud83d\\ude00\\u0022\", \"destination\": \"r\"\x7d]\x7d\x7d"

/-- The same graph as it is written. -/
def plainGraph : String :=
  "\x7b\"adjacency\":\x7b\"p\":[\x7b\"destination\":\"r\",\"weight\":\"😀\\\"\"\x7d]," ++
    "\"q\":[\x7b\"destination\":\"p\",\"weight\":\"/\\u001f\"\x7d]\x7d\x7d"

theorem roundTrips_looseGraph :
    normalize? Graph looseGraph = some plainGraph ∧
      parse? Graph plainGraph = parse? Graph looseGraph ∧
      normalize? Graph plainGraph = some plainGraph := by
  have h : normalize? Graph looseGraph = some plainGraph := by decide +kernel
  obtain ⟨-, -, -, -, hgraph⟩ := roundTrips_automata_graphs
  exact ⟨h, hgraph.parse?_normalize h, hgraph.normalize?_normalize h⟩

end JsonCodec

end Automata
