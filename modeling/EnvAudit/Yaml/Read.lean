import EnvAudit.Text.Newline
import EnvAudit.Text.Utf8
import EnvAudit.Yaml.Node
import EnvAudit.Yaml.Scalars

/-!
# Reading documents

A text has the value of its outermost node.  Of several faults the one nearest to the outermost node
counts, and of those equally near the first.
-/

namespace EnvAudit.Yaml

/-- A fault and how far from the outermost node it is. -/
structure DeepFault where
  depth : Nat
  fault : Fault
deriving Repr

/-- A result that may be a fault at some depth. -/
abbrev Deep (α : Type) := Except DeepFault α

namespace Deep

def fail {α : Type} (depth : Nat) (fault : Fault) : Deep α := .error ⟨depth, fault⟩

/-- Both results; of two faults the less deep one, and of equally deep ones the first. -/
def both {α β : Type} (a : Deep α) (b : Deep β) : Deep (α × β) :=
  match a, b with
  | .ok x, .ok y => .ok (x, y)
  | .error e, .ok _ => .error e
  | .ok _, .error e => .error e
  | .error d, .error e => if e.depth < d.depth then .error e else .error d

def all {α : Type} : List (Deep α) → Deep (List α)
  | [] => .ok []
  | a :: rest => (both a (all rest)).map fun (x, xs) => x :: xs

/-- The first result, if there is no fault in the second one either. -/
def also {α : Type} (a : Deep α) (b : Deep Unit) : Deep α := (both a b).map (·.1)

end Deep

namespace Graph

def node (g : Graph) (i : Nat) : Node := g.getD i { kind := .null, body := .scalar [] }

/-- Whether a key is that of the plain value of a map. -/
def isValueKey (g : Graph) (key : Nat) : Bool := (g.node key).kind == .value

/-- The text of a scalar; a map stands for the scalar of its plain value. -/
def scalarText? (g : Graph) : (fuel : Nat) → (i : Nat) → Option (List Char)
  | 0, _ => none
  | fuel + 1, i =>
    match (g.node i).body with
    | .scalar text => some text
    | .list _ => none
    | .map entries =>
      match entries.find? fun (key, _) => g.isValueKey key with
      | some (_, value) => g.scalarText? fuel value
      | none => none

mutual

/-- The entries of a map with those that its merge keys bring in front of its own; `none` if the
value of a merge key is no map and no list of maps.  `merging` holds the maps around that are being
merged. -/
def entries? (g : Graph) : (fuel : Nat) → (merging : List Nat) → (i : Nat) →
    Option (List (Nat × Nat))
  | 0, _, _ => none
  | fuel + 1, merging, i =>
    match (g.node i).body with
    | .map entries =>
      let own := entries.filter fun (key, _) => (g.node key).kind != .merge
      if merging.contains i then some own
      else do
        let merged ← g.mergedEntries? fuel (i :: merging) entries
        return merged ++ own
    | _ => none

/-- The entries that merge keys bring; of several maps in a list the last comes first. -/
def mergedEntries? (g : Graph) : (fuel : Nat) → (merging : List Nat) →
    (entries : List (Nat × Nat)) → Option (List (Nat × Nat))
  | 0, _, _ => none
  | _ + 1, _, [] => some []
  | fuel + 1, merging, (key, value) :: rest =>
    if (g.node key).kind == .merge then do
      let here ← match (g.node value).body with
        | .list maps => do
          let each ← maps.mapM (g.entries? fuel merging)
          pure each.reverse.flatten
        | _ => g.entries? fuel merging value
      return here ++ (← g.mergedEntries? fuel merging rest)
    else g.mergedEntries? fuel merging rest

end

/-- An amount of steps that suffices for every walk without a circle. -/
def fuel (g : Graph) : Nat := g.foldl (fun sum n => sum + match n.body with
  | .map entries => entries.length + 2
  | _ => 2) 2

/-- The value of a node below the collections `above`, given by number and kind. -/
def value (g : Graph) : (fuel : Nat) → (above : List Nat) → (i : Nat) → Deep Value
  | 0, above, _ => .fail above.length .malformed
  | fuel + 1, above, i =>
    let n := g.node i
    let depth := above.length
    let inside := g.value fuel (i :: above)
    let wrong {α : Type} : Deep α := .fail (depth + 1) .malformed
    match above.findIdx? (· == i) with
    | some level => .ok (.around level (n.kind == .map))
    | none =>
      match n.kind with
      | .list =>
        match n.body with
        | .list items => (Deep.all (items.map inside)).map .list
        | _ => wrong
      | .pairs =>
        match n.body with
        | .list items =>
          let pairOf (item : Nat) : Deep Value :=
            match (g.node item).body with
            | .map [(key, v)] => (Deep.both (inside key) (inside v)).map fun (a, b) => .pair a b
            | _ => wrong
          (Deep.all (items.map pairOf)).map .list
        | _ => wrong
      | .map | .set =>
        match g.entries? g.fuel [] i with
        | none => wrong
        | some entries =>
          let keyOf (key : Nat) : Deep Value :=
            if g.isValueKey key then
              match (g.node key).body with
              | .scalar text => .ok (.text (String.ofList text))
              | _ => wrong
            else (inside key).also (if (g.node key).kind.isCollection then wrong else .ok ())
          let entryOf (entry : Nat × Nat) : Deep (Value × Value) :=
            Deep.both (keyOf entry.1) (inside entry.2)
          (Deep.all (entries.map entryOf)).map fun entries =>
            let entries := entries.foldl (fun known (k, v) => Value.putEntry k v known) []
            if n.kind == .map then .map entries else .set (entries.map (·.1))
      | kind =>
        match g.scalarText? g.fuel i with
        | none => .fail depth .malformed
        | some text => (Scalar.value kind text).mapError fun fault => ⟨depth, fault⟩

end Graph

/-- The value of a text. -/
def readText (text : List Char) : Except Fault Value :=
  let text := Text.unifyNewlines text
  if !text.all isAllowed then .error .malformed
  else do
    let (g, root) ← graph text
    match root with
    | none => .ok .null
    | some i => (g.value (g.size + 2) [] i).mapError (·.fault)

/-- The value of the text in some bytes.  All of them are decoded first, and collections may be nested to any
depth; a reader that goes through a file piece by piece finds an earlier fault of the notation before bytes
that are no text, and one that limits its depth gives up on some documents. -/
def read (bytes : ByteArray) : Except Fault Value :=
  match Text.Utf8.decode? bytes with
  | none => .error .undecodable
  | some text => readText text

end EnvAudit.Yaml
