import JoinTree.Tree.Node

/-!
The indented text of a tree. Nodes are numbered in the order in which they are written.
-/

namespace JoinTree

-- What a header says of a node behind its type and number.
def Scalars.dumpText : Scalars → String
  | identifier parts => s!", identifier: {Identifier.full parts}"
  | constant v => s!", constant_value: {v.text}, constant_value_type: {v.typeText}"
  | column name source => s!", column_name: {name}, column_source: {source.text}"
  | function name => s!", function_name: {name}"
  | list => ""
  | table name asName => s!", table_name: {name}" ++ (asName.map fun a => s!", alias: {a}").getD ""
  | join spec => s!", locality: {spec.locality.text}, strictness: {spec.strictness.text}, kind: {spec.kind.text}"
  | runtimeFilter id => s!", filter_id: {id.toNat}"

namespace Node

def blanks (n : Nat) : String := .ofList (List.replicate n ' ')

def header (indent id : Nat) (n : Node) : String := s!"{blanks indent}{n.type.text} id: {id}{n.scalars.dumpText}"

def title (indent : Nat) (s : String) : String := s!"\n{blanks (indent + 2)}{s}\n"

-- The text of a tree whose first node has the given number, and the number behind its last.
mutual
def dumpFrom (indent id : Nat) (n : Node) : String × Nat :=
  let head := header indent id n
  match n with
  | identifier _ | constant _ | table _ _ => (head, id + 1)
  | column _ _ e => let (s, id) := dumpSection indent (id + 1) "EXPRESSION" e; (head ++ s, id)
  | function _ args =>
    let (s, id) := dumpFrom (indent + 4) (id + 1) args
    (head ++ title indent "ARGUMENTS" ++ s, id)
  | list nodes => let (s, next) := dumpEntries (indent + 2) (id + 1) nodes; (s!"{head}, nodes: {nodes.length}{s}", next)
  | join _ l r e =>
    let (left, id) := dumpFrom (indent + 4) (id + 1) l
    let (right, id) := dumpFrom (indent + 4) id r
    let (expression, id) := dumpSection indent id "JOIN EXPRESSION" e
    (head ++ title indent "LEFT TABLE EXPRESSION" ++ left ++ title indent "RIGHT TABLE EXPRESSION" ++ right ++ expression,
      id)
  | runtimeFilter _ c =>
    let (s, id) := dumpFrom (indent + 4) (id + 1) c
    (head ++ title indent "EXPRESSION" ++ s, id)
def dumpSection (indent id : Nat) (name : String) : Option Node → String × Nat
  | none => ("", id)
  | some n => let (s, id) := dumpFrom (indent + 4) id n; (title indent name ++ s, id)
def dumpEntries (indent id : Nat) : List Node → String × Nat
  | [] => ("", id)
  | n :: ns =>
    let (s, id) := dumpFrom indent id n
    let (rest, id) := dumpEntries indent id ns
    ("\n" ++ s ++ rest, id)
end

-- The output with the dump appended to it.
def dumpOnto (out : String) (indent : Nat) (n : Node) : String := out ++ (n.dumpFrom indent 0).1

def dump (n : Node) : String := (n.dumpFrom 0 0).1

end Node

end JoinTree
