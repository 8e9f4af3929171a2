/-!
# Labelled multigraphs

Vertices keep the order in which they were entered, and so do the edges that leave a vertex. Parallel
edges are kept apart, and the destination of an edge need not be a vertex.

For every operation two equations say what it does: one for the edges of a vertex, one for the
vertices.
-/

namespace Automata

/-- An edge as its source keeps it: where it leads and what it is labelled with. -/
structure Edge where
  destination : String
  weight : String
  deriving DecidableEq

/-- A graph: every vertex once, with the edges that leave it. -/
structure Graph where
  adjacency : List (String × List Edge)
  nodup : (adjacency.map (·.1)).Nodup
  deriving DecidableEq

namespace Graph

/-! ### Rows of the adjacency table -/

/-- Applies `f` to the edges of `label`, which is entered at the end without edges if it is missing. -/
def updateRow (f : List Edge → List Edge) (label : String) :
    List (String × List Edge) → List (String × List Edge)
  | [] => [(label, f [])]
  | (v, es) :: rows => if v = label then (v, f es) :: rows else (v, es) :: updateRow f label rows

/-- Applies `f` to the edges of `label` if it is there. -/
def mapRow (f : List Edge → List Edge) (label : String) (rows : List (String × List Edge)) :
    List (String × List Edge) :=
  rows.map fun row => if row.1 = label then (row.1, f row.2) else row

theorem keys_updateRow (f : List Edge → List Edge) (label : String)
    (rows : List (String × List Edge)) :
    (updateRow f label rows).map (·.1) =
      if label ∈ rows.map (·.1) then rows.map (·.1) else rows.map (·.1) ++ [label] := by
  induction rows with
  | nil => simp [updateRow]
  | cons row rows ih =>
    obtain ⟨v, es⟩ := row
    unfold updateRow
    by_cases h : v = label
    · simp [h]
    · have h' : ¬ label = v := fun e => h e.symm
      simp only [h, if_false, List.map_cons, ih, List.mem_cons, h', false_or]
      split <;> simp

theorem nodup_updateRow (f : List Edge → List Edge) (label : String)
    {rows : List (String × List Edge)} (h : (rows.map (·.1)).Nodup) :
    ((updateRow f label rows).map (·.1)).Nodup := by
  rw [keys_updateRow]
  split
  · exact h
  · next hn =>
    refine List.nodup_append.2 ⟨h, by simp, fun a ha b hb => ?_⟩
    rintro rfl
    exact hn (List.mem_singleton.1 hb ▸ ha)

@[simp] theorem keys_mapRow (f : List Edge → List Edge) (label : String)
    (rows : List (String × List Edge)) : (mapRow f label rows).map (·.1) = rows.map (·.1) := by
  simp only [mapRow, List.map_map]
  refine List.map_congr_left fun row _ => ?_
  simp only [Function.comp]
  split <;> rfl

theorem lookup_row (v w : String) (es : List Edge) (rows : List (String × List Edge)) :
    ((w, es) :: rows).lookup v = if v = w then some es else rows.lookup v := by
  by_cases h : v = w
  · simp [h]
  · have hb : (v == w) = false := by simpa using h
    simp [List.lookup_cons, h, hb]

theorem lookup_updateRow (f : List Edge → List Edge) (label v : String)
    (rows : List (String × List Edge)) :
    (updateRow f label rows).lookup v =
      if v = label then some (f ((rows.lookup label).getD [])) else rows.lookup v := by
  induction rows with
  | nil => simp [updateRow, lookup_row]
  | cons row rows ih =>
    obtain ⟨w, es⟩ := row
    unfold updateRow
    by_cases hw : w = label
    · subst hw
      by_cases h : v = w <;> simp [lookup_row, h]
    · have hl : ¬label = w := fun e => hw e.symm
      simp only [hw, if_false, lookup_row, ih, hl]
      by_cases h : v = label <;> simp [h, hl]

theorem lookup_mapRow (f : List Edge → List Edge) (label v : String)
    (rows : List (String × List Edge)) :
    (mapRow f label rows).lookup v =
      if v = label then (rows.lookup v).map f else rows.lookup v := by
  induction rows with
  | nil => simp [mapRow]
  | cons row rows ih =>
    obtain ⟨w, es⟩ := row
    simp only [mapRow, List.map_cons] at ih ⊢
    by_cases hw : w = label
    · subst hw
      by_cases h : v = w <;> simp_all [lookup_row]
    · simp only [hw, if_false, lookup_row, ih]
      by_cases h : v = w <;> simp [h, hw]

theorem lookup_filter_ne (label v : String) (rows : List (String × List Edge)) :
    (rows.filter (·.1 != label)).lookup v = if v = label then none else rows.lookup v := by
  induction rows with
  | nil => simp
  | cons row rows ih =>
    obtain ⟨w, es⟩ := row
    by_cases hw : w = label
    · subst hw
      rw [List.filter_cons_of_neg (by simp), lookup_row, ih]
      by_cases h : v = w <;> simp [h]
    · rw [List.filter_cons_of_pos (by simpa using hw), lookup_row, lookup_row, ih]
      by_cases h : v = w <;> simp [h, hw]

/-! ### Operations -/

def empty : Graph := ⟨[], .nil⟩

/-- Enters `label` with the edges `es`; a vertex that is there keeps its place. -/
def setEdges (g : Graph) (label : String) (es : List Edge) : Graph :=
  ⟨updateRow (fun _ => es) label g.adjacency, nodup_updateRow _ _ g.nodup⟩

/-- Enters `label` without edges; a vertex that is there keeps its place and loses its edges. -/
def addVertex (g : Graph) (label : String) : Graph :=
  g.setEdges label []

/-- Appends an edge to those of `source`, which is entered if it is missing. -/
def addEdge (g : Graph) (source destination weight : String) : Graph :=
  ⟨updateRow (· ++ [⟨destination, weight⟩]) source g.adjacency, nodup_updateRow _ _ g.nodup⟩

/-- Drops every edge from `source` to `destination`. -/
def removeEdge (g : Graph) (source destination : String) : Graph :=
  ⟨mapRow (·.filter (·.destination != destination)) source g.adjacency, by simpa using g.nodup⟩

/-- Drops `label` and the edges that leave it; edges that lead to it stay. -/
def removeVertex (g : Graph) (label : String) : Graph :=
  ⟨g.adjacency.filter (·.1 != label), g.nodup.sublist (List.filter_sublist.map _)⟩

/-! ### Queries -/

/-- The edges that leave `label`, unless it is no vertex. -/
def edges? (g : Graph) (label : String) : Option (List Edge) :=
  g.adjacency.lookup label

def contains (g : Graph) (label : String) : Bool :=
  g.adjacency.any (·.1 == label)

/-- The vertices in the order they were entered. -/
def vertices (g : Graph) : List String :=
  g.adjacency.map (·.1)

def vertexCount (g : Graph) : Nat :=
  g.adjacency.length

def edgeCount (g : Graph) : Nat :=
  (g.adjacency.flatMap (·.2)).length

/-! ### What the operations do to the edges of a vertex -/

@[simp] theorem edges?_empty (v : String) : empty.edges? v = none := rfl

@[simp] theorem edges?_setEdges (g : Graph) (label v : String) (es : List Edge) :
    (g.setEdges label es).edges? v = if v = label then some es else g.edges? v :=
  lookup_updateRow _ _ _ _

@[simp] theorem edges?_addVertex (g : Graph) (label v : String) :
    (g.addVertex label).edges? v = if v = label then some [] else g.edges? v :=
  edges?_setEdges _ _ _ _

@[simp] theorem edges?_addEdge (g : Graph) (source destination weight v : String) :
    (g.addEdge source destination weight).edges? v =
      if v = source then some ((g.edges? source).getD [] ++ [⟨destination, weight⟩])
      else g.edges? v :=
  lookup_updateRow _ _ _ _

@[simp] theorem edges?_removeEdge (g : Graph) (source destination v : String) :
    (g.removeEdge source destination).edges? v =
      if v = source then (g.edges? v).map (·.filter (·.destination != destination))
      else g.edges? v :=
  lookup_mapRow _ _ _ _

@[simp] theorem edges?_removeVertex (g : Graph) (label v : String) :
    (g.removeVertex label).edges? v = if v = label then none else g.edges? v :=
  lookup_filter_ne _ _ _

/-! ### What the operations do to the vertices -/

@[simp] theorem vertices_setEdges (g : Graph) (label : String) (es : List Edge) :
    (g.setEdges label es).vertices =
      if label ∈ g.vertices then g.vertices else g.vertices ++ [label] :=
  keys_updateRow _ _ _

@[simp] theorem vertices_addVertex (g : Graph) (label : String) :
    (g.addVertex label).vertices =
      if label ∈ g.vertices then g.vertices else g.vertices ++ [label] :=
  keys_updateRow _ _ _

@[simp] theorem vertices_addEdge (g : Graph) (source destination weight : String) :
    (g.addEdge source destination weight).vertices =
      if source ∈ g.vertices then g.vertices else g.vertices ++ [source] :=
  keys_updateRow _ _ _

@[simp] theorem vertices_removeEdge (g : Graph) (source destination : String) :
    (g.removeEdge source destination).vertices = g.vertices :=
  keys_mapRow _ _ _

@[simp] theorem vertices_removeVertex (g : Graph) (label : String) :
    (g.removeVertex label).vertices = g.vertices.filter (· != label) := by
  simp [removeVertex, vertices, List.filter_map, Function.comp_def]

theorem edges?_eq_none_iff {g : Graph} {label : String} :
    g.edges? label = none ↔ label ∉ g.vertices := by
  simp only [edges?, vertices]
  induction g.adjacency with
  | nil => simp
  | cons row rows ih =>
    obtain ⟨v, es⟩ := row
    by_cases h : label = v <;> simp [lookup_row, h, ih]

/-! ### Text -/

/-- One edge, as `(weight, destination)`. -/
def showEdge (e : Edge) : String :=
  "(" ++ e.weight ++ ", " ++ e.destination ++ ") "

/-- One line: a vertex, an arrow and its edges. -/
def showRow (row : String × List Edge) : String :=
  row.1 ++ " -> " ++ String.join (row.2.map showEdge) ++ "\n"

/-- One line for every vertex. -/
def display (g : Graph) : String :=
  String.join (g.adjacency.map showRow)

end Graph

end Automata
