import Automata.Graph
import Std.Data.TreeMap

/-!
# Graphs by label

In the table of a graph a vertex is found by going through the rows. An index finds it in a search
tree, and finds the same edges.
-/

namespace Automata.Graph

/-- A search tree with the edges of every vertex of `g`. -/
structure Index (g : Graph) where
  tree : Std.TreeMap String (List Edge)
  tree_eq (label : String) : tree[label]? = g.edges? label

/-- A search tree made of rows finds what going through them finds, if their labels differ. -/
theorem getElem?_ofList (label : String) {rows : List (String × List Edge)}
    (h : (rows.map (·.1)).Nodup) : (Std.TreeMap.ofList rows)[label]? = rows.lookup label := by
  cases hl : rows.lookup label with
  | none =>
    refine Std.TreeMap.getElem?_ofList_of_contains_eq_false ?_
    simpa using fun es hes => by simpa using List.lookup_eq_none_iff.1 hl _ hes
  | some es =>
    obtain ⟨before, after, rfl, _⟩ := List.lookup_eq_some_iff.1 hl
    refine Std.TreeMap.getElem?_ofList_of_mem (k := label) (by simp) ?_ (by simp)
    exact (List.pairwise_map.1 h).imp fun hne => by simpa using hne

def index (g : Graph) : Index g :=
  ⟨.ofList g.adjacency, fun label => getElem?_ofList label g.nodup⟩

namespace Index

variable {g : Graph}

/-- The edges that leave `label`, unless it is no vertex. -/
def edges? (i : Index g) (label : String) : Option (List Edge) :=
  i.tree[label]?

@[simp] theorem edges?_eq (i : Index g) (label : String) : i.edges? label = g.edges? label :=
  i.tree_eq label

end Index

end Automata.Graph
