import EnvAudit.FileSystem.Basic

/-!
# Contents of a tree

The files of a tree, the targets of its links, and the files that one tree has and another one lacks
or holds with other content.
-/

namespace EnvAudit

namespace Node

mutual

/-- The files of a tree that can be read, with the names that lead to them; links are not
followed. -/
def files (names : List String) : Node → List (List String × ByteArray)
  | file bytes => [(names, bytes)]
  | locked | link _ => []
  | dir entries => filesIn names entries

def filesIn (names : List String) : List (String × Node) → List (List String × ByteArray)
  | [] => []
  | (name, node) :: rest => node.files (names ++ [name]) ++ filesIn names rest

end

mutual

def linkTargets : Node → List String
  | file _ | locked => []
  | link target => [target]
  | dir entries => linkTargetsIn entries

def linkTargetsIn : List (String × Node) → List String
  | [] => []
  | (_, node) :: rest => node.linkTargets ++ linkTargetsIn rest

end

/-- Whether a file stands at the end of a list of names and holds the bytes. -/
def holds (node : Node) (names : List String) (bytes : ByteArray) : Bool :=
  match node.at? names with
  | some (.file found) => found.toList == bytes.toList
  | _ => false

/-- The files that are new in `after` or have other content than in `before`. -/
def changedFiles (before after : Node) : List (List String × ByteArray) :=
  (after.files []).filter fun (names, bytes) => !before.holds names bytes

end Node

end EnvAudit
