/-!
# Reverse Cuthill–McKee ordering

The ordering numbers the vertices of an undirected graph breadth first, neighbours of small
degree before those of large degree, and then reverses the list. It keeps the entries of the
factors of a sparse matrix close to the diagonal.

A round `t` looks at the vertex in place `t` of the list so far and appends its neighbours that
are not in the list. Where the list has no place `t` yet, a component is finished, and a vertex
of least degree that is not in the list starts the next one. After as many rounds as there are
vertices every vertex is in the list, once.
-/

namespace SymSolve

/-- An undirected graph on `n` vertices: the neighbours of each vertex, ascending. A vertex may
be its own neighbour. -/
structure Graph (n : Nat) where
  neighbours : Vector (List (Fin n)) n

namespace Graph

variable {n : Nat}

/-- The graph with the given edges, in either direction and any number of times. -/
def ofEdges (edges : List (Fin n × Fin n)) : Graph n where
  neighbours := Vector.ofFn fun i =>
    (List.finRange n).filter fun j => edges.contains (i, j) || edges.contains (j, i)

/-- The number of neighbours; a vertex that is its own neighbour counts itself twice. -/
def degree (g : Graph n) (v : Fin n) : Nat :=
  (g.neighbours.get v).length + if (g.neighbours.get v).contains v then 1 else 0

/-- Sorts vertices by degree; those of equal degree keep their order. -/
def byDegree (g : Graph n) (vertices : List (Fin n)) : List (Fin n) :=
  vertices.mergeSort fun u v => g.degree u ≤ g.degree v

/-- The list with a vertex in place `t`, if any vertex is left to go there. -/
def withSeed (g : Graph n) (visited : List (Fin n)) (t : Nat) : List (Fin n) :=
  if t < visited.length then visited
  else
    let left := (List.finRange n).filter fun v => !visited.contains v
    visited ++ (g.byDegree left).head?.toList

/-- One round: the unvisited neighbours of the vertex in place `t` are appended. -/
def round (g : Graph n) (visited : List (Fin n)) (t : Nat) : List (Fin n) :=
  let visited := g.withSeed visited t
  match visited[t]? with
  | none => visited
  | some v => visited ++ g.byDegree ((g.neighbours.get v).filter fun w => !visited.contains w)

/-- The vertices breadth first. -/
def breadthFirst (g : Graph n) : List (Fin n) := (List.range n).foldl g.round []

/-- The reverse Cuthill–McKee ordering. -/
def narrowOrder (g : Graph n) : List (Fin n) := g.breadthFirst.reverse

end Graph

end SymSolve
