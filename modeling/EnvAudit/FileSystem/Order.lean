import EnvAudit.FileSystem.Basic

/-!
# Trees in order

A tree whose directories list their entries in the order of their names.
-/

namespace EnvAudit.Node

/-- Puts an entry in front of the first one whose name is not less. -/
def insertEntry (name : String) (node : Node) : List (String × Node) → List (String × Node)
  | [] => [(name, node)]
  | (n, other) :: rest =>
    if name ≤ n then (name, node) :: (n, other) :: rest
    else (n, other) :: insertEntry name node rest

mutual

/-- The tree with the entries of every directory in order. -/
def inOrder : Node → Node
  | dir entries => dir (entriesInOrder entries)
  | file bytes => file bytes
  | locked => locked
  | link target => link target

/-- The entries in order, and those of all directories below. -/
def entriesInOrder : List (String × Node) → List (String × Node)
  | [] => []
  | (name, node) :: rest => insertEntry name node.inOrder (entriesInOrder rest)

end

end EnvAudit.Node
