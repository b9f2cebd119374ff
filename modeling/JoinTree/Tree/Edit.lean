import JoinTree.Tree.Node

/-!
Changing one subtree. A path goes from the root through the children that are there.
-/

namespace JoinTree

namespace Node

-- The node with another tree for one of its children, if it has that child.
def withChild? (n : Node) (i : Nat) (child : Node) : Option Node :=
  match n, i with
  | column name source (some _), 0 => some (column name source (some child))
  | function name _, 0 => some (function name child)
  | list nodes, i => if i < nodes.length then some (list (nodes.set i child)) else none
  | join spec _ r e, 0 => some (join spec child r e)
  | join spec l _ e, 1 => some (join spec l child e)
  | join spec l r (some _), 2 => some (join spec l r (some child))
  | runtimeFilter id _, 0 => some (runtimeFilter id child)
  | _, _ => none

-- The subtree at the end of a path.
def at? (n : Node) : List Nat → Option Node
  | [] => some n
  | i :: path => n.children[i]?.bind (at? · path)

-- The tree with another subtree at the end of a path.
def replaceAt? (n : Node) (path : List Nat) (new : Node) : Option Node :=
  match path with
  | [] => some new
  | i :: path => do
    let child ← (← n.children[i]?).replaceAt? path new
    n.withChild? i child

-- One argument of a function exchanged for another.
def withArgument? (n : Node) (i : Nat) (argument : Node) : Option Node :=
  match n with
  | function name args =>
    if i < args.argumentsOf.length then some (function name (list (args.argumentsOf.set i argument))) else none
  | _ => none

end Node

end JoinTree
