import EnvAudit.Yaml.Kind
import EnvAudit.Yaml.Tokens

/-!
# The nodes of a document

A document is a graph of nodes, each given by its number.  An alias stands for the node of its
anchor, which may be a node around it, so the graph can have circles.
-/

namespace EnvAudit.Yaml

/-- What a node holds. -/
inductive NodeBody
  | scalar (text : List Char)
  | list (items : List Nat)
  | map (entries : List (Nat × Nat))
deriving Repr, Inhabited

/-- A node. -/
structure Node where
  kind : Kind
  body : NodeBody
deriving Repr, Inhabited

abbrev Graph := Array Node

/-- How far the nodes of a document are known. -/
structure Draft where
  nodes : Graph := #[]
  anchors : List (List Char × Nat) := []
  tokens : List Token
  /-- What the handles in front of tags stand for. -/
  handles : List (List Char × List Char)

abbrev Reading := StateT Draft (Except Fault)

namespace Reading

def fail {α : Type} : Reading α := throw .malformed

/-- The next token; at a fault the reading ends with it. -/
def peek? : Reading (Option Token) := do
  match (← get).tokens with
  | [] => return none
  | .fault cause :: _ => throw cause
  | t :: _ => return some t

def sees (t : Token) : Reading Bool := do return (← peek?) == some t

def seesAny (ts : List Token) : Reading Bool := do return (← peek?).any ts.contains

def drop : Reading Unit := modify fun d => { d with tokens := d.tokens.drop 1 }

/-- Drops the next token if it is the given one, and tells whether it was. -/
def dropIf (t : Token) : Reading Bool := do
  if ← sees t then
    drop
    return true
  else return false

/-- Drops the next token, which has to be the given one. -/
def expect (t : Token) : Reading Unit := do
  if !(← dropIf t) then fail

def add (kind : Kind) (body : NodeBody) : Reading Nat := do
  let d ← get
  set { d with nodes := d.nodes.push { kind, body } }
  return d.nodes.size

def addNothing : Reading Nat := add .null (.scalar [])

def fill (i : Nat) (body : NodeBody) : Reading Unit :=
  modify fun d => { d with nodes := d.nodes.modify i fun n => { n with body } }

/-- Names a node; a name can be given once. -/
def bind (anchor : Option (List Char)) (i : Nat) : Reading Unit :=
  modify fun d =>
    match anchor with
    | none => d
    | some name => { d with anchors := (name, i) :: d.anchors }

def isBound (anchor : Option (List Char)) : Reading Bool := do
  match anchor with
  | none => return false
  | some name => return ((← get).anchors.lookup name).isSome

def anchor? : Reading (Option (List Char)) := do
  match ← peek? with
  | some (.anchor name) =>
    drop
    return some name
  | _ => return none

/-- Reads a tag, if there is one, and puts in what its handle stands for. -/
def tag? : Reading (Option (List Char)) := do
  match ← peek? with
  | some (.tag spelling) =>
    drop
    match spelling.handle with
    | none => return some spelling.suffix
    | some handle =>
      match (← get).handles.lookup handle with
      | some stands => return some (stands ++ spelling.suffix)
      | none => fail
  | _ => return none

/-- The tag that leaves the kind open. -/
def openTag : List Char := ['!']

def scalarKind (tag : Option (List Char)) (plain : Bool) (text : List Char) : Kind :=
  match tag with
  | none => if plain then Spelling.kind text else .text
  | some tag => if tag = openTag then Spelling.kind text else .ofTag tag

/-- The kind of a collection, which is `default` unless a tag names another one. -/
def collectionKind (tag : Option (List Char)) (default : Kind) : Kind :=
  match tag with
  | none => default
  | some tag => if tag = openTag then default else .ofTag tag

mutual

/-- Reads a node.  A block can begin if `block`, and a list without indentation if `bare`. -/
def node : (fuel : Nat) → (block bare : Bool) → Reading Nat
  | 0, _, _ => fail
  | fuel + 1, block, bare => do
    if let some (.alias name) ← peek? then
      drop
      match (← get).anchors.lookup name with
      | some i => return i
      | none => fail
    else
      let first ← anchor?
      let tag ← tag?
      let anchor ← if first.isNone && tag.isSome then anchor? else pure first
      let listBody (items : Reading (List Nat)) : Reading Nat := do
        let i ← add (collectionKind tag .list) (.list [])
        bind anchor i
        fill i (.list (← items))
        return i
      let mapBody (entries : Reading (List (Nat × Nat))) : Reading Nat := do
        let i ← add (collectionKind tag .map) (.map [])
        bind anchor i
        fill i (.map (← entries))
        return i
      let scalar (text : List Char) (plain : Bool) : Reading Nat := do
        let i ← add (scalarKind tag plain text) (.scalar text)
        bind anchor i
        return i
      if ← isBound anchor then fail
      match ← peek? with
      | some .listItem =>
        if bare then listBody (bareItems fuel)
        else if anchor.isSome || tag.isSome then scalar [] true else fail
      | some (.scalar text plain) =>
        drop
        scalar text plain
      | some .flowListStart =>
        drop
        listBody (flowItems fuel true)
      | some .flowMapStart =>
        drop
        mapBody (flowEntries fuel true)
      | some .blockListStart =>
        if block then
          drop
          listBody (blockItems fuel)
        else if anchor.isSome || tag.isSome then scalar [] true else fail
      | some .blockMapStart =>
        if block then
          drop
          mapBody (blockEntries fuel)
        else if anchor.isSome || tag.isSome then scalar [] true else fail
      | _ => if anchor.isSome || tag.isSome then scalar [] true else fail

/-- Reads a node, or nothing in front of one of the given tokens. -/
def nodeUnless : (fuel : Nat) → (stops : List Token) → (block bare : Bool) → Reading Nat
  | 0, _, _, _ => fail
  | fuel + 1, stops, block, bare => do
    if ← seesAny stops then addNothing else node fuel block bare

/-- Reads the items of a block list up to its end. -/
def blockItems : (fuel : Nat) → Reading (List Nat)
  | 0 => fail
  | fuel + 1 => do
    if ← dropIf .listItem then
      let item ← nodeUnless fuel [.listItem, .blockEnd] true false
      return item :: (← blockItems fuel)
    else
      expect .blockEnd
      return []

/-- Reads the items of a list that has no indentation of its own. -/
def bareItems : (fuel : Nat) → Reading (List Nat)
  | 0 => fail
  | fuel + 1 => do
    if ← dropIf .listItem then
      let item ← nodeUnless fuel [.listItem, .key, .value, .blockEnd] true false
      return item :: (← bareItems fuel)
    else return []

/-- Reads the entries of a block map up to its end. -/
def blockEntries : (fuel : Nat) → Reading (List (Nat × Nat))
  | 0 => fail
  | fuel + 1 => do
    let stops : List Token := [.key, .value, .blockEnd]
    if ← dropIf .blockEnd then return []
    else
      expect .key
      let key ← nodeUnless fuel stops true true
      let value ← if ← dropIf .value then nodeUnless fuel stops true true else addNothing
      return (key, value) :: (← blockEntries fuel)

/-- Reads the items of a list in brackets up to its end. -/
def flowItems : (fuel : Nat) → (first : Bool) → Reading (List Nat)
  | 0, _ => fail
  | fuel + 1, first => do
    if ← dropIf .flowListEnd then return []
    else
      if !first then expect .comma
      if ← dropIf .key then
        let i ← add .map (.map [])
        let key ← nodeUnless fuel [.value, .comma, .flowListEnd] false false
        let value ← if ← dropIf .value then nodeUnless fuel [.comma, .flowListEnd] false false
          else addNothing
        fill i (.map [(key, value)])
        return i :: (← flowItems fuel false)
      else if ← dropIf .flowListEnd then return []
      else
        let item ← node fuel false false
        return item :: (← flowItems fuel false)

/-- Reads the entries of a map in braces up to its end. -/
def flowEntries : (fuel : Nat) → (first : Bool) → Reading (List (Nat × Nat))
  | 0, _ => fail
  | fuel + 1, first => do
    if ← dropIf .flowMapEnd then return []
    else
      if !first then expect .comma
      if ← dropIf .key then
        let key ← nodeUnless fuel [.value, .comma, .flowMapEnd] false false
        let value ← if ← dropIf .value then nodeUnless fuel [.comma, .flowMapEnd] false false
          else addNothing
        return (key, value) :: (← flowEntries fuel false)
      else if ← dropIf .flowMapEnd then return []
      else
        let key ← node fuel false false
        let value ← addNothing
        return (key, value) :: (← flowEntries fuel false)

end

def defaultHandles : List (List Char × List Char) :=
  [(['!'], ['!']), (['!', '!'], Kind.tagPrefix)]

/-- Reads the directives of a document; `versioned` tells that there was a version. -/
def directives : (fuel : Nat) → (versioned : Bool) → (handles : List (List Char × List Char)) →
    Reading (List (List Char × List Char))
  | 0, _, _ => fail
  | fuel + 1, versioned, handles => do
    match ← peek? with
    | some (.directive (.version major)) =>
      if versioned || major != 1 then fail
      drop
      directives fuel true handles
    | some (.directive (.handle name stands)) =>
      if (handles.lookup name).isSome then fail
      drop
      directives fuel versioned ((name, stands) :: handles)
    | some (.directive .other) =>
      drop
      directives fuel versioned handles
    | _ => return handles

/-- Reads a whole text that holds at most one document; gives its outermost node, if there is
one. -/
def document (fuel : Nat) : Reading (Option Nat) := do
  match ← peek? with
  | none => return none
  | some t =>
    let marked := match t with
      | .directive _ | .documentStart => true
      | _ => false
    let root ←
      if marked then
        let handles ← directives fuel false []
        modify fun d => { d with handles := handles ++ defaultHandles }
        expect .documentStart
        match ← peek? with
        | none | some (.directive _) | some .documentStart | some .documentEnd => addNothing
        | some _ => node fuel true false
      else node fuel true false
    let left := (← get).tokens.dropWhile (· == .documentEnd)
    match left with
    | [] => return some root
    | .fault cause :: _ => throw cause
    | _ => fail

end Reading

/-- The nodes of a text and its outermost node, if there is one. -/
def graph (text : List Char) : Except Fault (Graph × Option Nat) := do
  let ts := tokens text
  let draft : Draft := { tokens := ts, handles := Reading.defaultHandles }
  let (root, draft) ← (Reading.document (4 * ts.length + 8)).run draft
  return (draft.nodes, root)

end EnvAudit.Yaml
