/-!
# Trees

Finitely branching trees with a label at every node.  `subtrees` lists a forest in pre-order by
recursion; `walk` lists it with an explicit stack, the nodes still to visit in front.
-/

namespace CityScene

inductive Tree (α : Type) where
  | node (label : α) (children : List (Tree α))

namespace Tree

variable {α β : Type}

def label : Tree α → α
  | node a _ => a

def children : Tree α → List (Tree α)
  | node _ cs => cs

/-! ## Listings by recursion -/

mutual

/-- The tree and all trees below it, in pre-order. -/
def subtrees : Tree α → List (Tree α)
  | node a cs => node a cs :: forestSubtrees cs

/-- All trees of a forest, in pre-order. -/
def forestSubtrees : List (Tree α) → List (Tree α)
  | [] => []
  | t :: rest => t.subtrees ++ forestSubtrees rest

end

mutual

/-- The labels in pre-order, each with its depth below a root at the given depth. -/
def outline (depth : Nat) : Tree α → List (Nat × α)
  | node a cs => (depth, a) :: forestOutline (depth + 1) cs

def forestOutline (depth : Nat) : List (Tree α) → List (Nat × α)
  | [] => []
  | t :: rest => t.outline depth ++ forestOutline depth rest

end

mutual

/-- The labels in pre-order. -/
def labels : Tree α → List α
  | node a cs => a :: forestLabels cs

def forestLabels : List (Tree α) → List α
  | [] => []
  | t :: rest => t.labels ++ forestLabels rest

end

mutual

/-- The tree with every label changed. -/
def map (f : α → β) : Tree α → Tree β
  | node a cs => node (f a) (forestMap f cs)

def forestMap (f : α → β) : List (Tree α) → List (Tree β)
  | [] => []
  | t :: rest => t.map f :: forestMap f rest

end

mutual

/-- The number of nodes. -/
def size : Tree α → Nat
  | node _ cs => 1 + forestSize cs

def forestSize : List (Tree α) → Nat
  | [] => 0
  | t :: rest => t.size + forestSize rest

end

/-! ## The listing with a stack -/

@[simp]
theorem forestSize_append (s t : List (Tree α)) :
    forestSize (s ++ t) = forestSize s + forestSize t := by
  induction s with
  | nil => simp [forestSize]
  | cons a s ih => simp only [List.cons_append, forestSize, ih, Nat.add_assoc]

/-- Visits the first tree of the stack and puts its children in its place, until none is left. -/
def walk : List (Tree α) → List (Tree α)
  | [] => []
  | node a cs :: stack => node a cs :: walk (cs ++ stack)
termination_by stack => forestSize stack
decreasing_by simp [forestSize, size]

/-- The first tree in pre-order that a property holds of. -/
def find? (p : α → Bool) (forest : List (Tree α)) : Option (Tree α) :=
  (walk forest).find? (p ·.label)

end Tree

end CityScene
