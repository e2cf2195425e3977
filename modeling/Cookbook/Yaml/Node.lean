import Cookbook.Yaml.Token

/-!
# Nodes of a document

A document is a tree of scalars, sequences and mappings in which an alias stands for a node that
was anchored before it. Anchored nodes get numbers as they are met; a name that is anchored again
takes a new number, counted by the names in use, and the last node to get a number keeps it.

Every three steps of the recursion use up at least one token, which bounds its depth by the number
of tokens.

## Main definitions

* `Yaml.Node`, `Yaml.Document`: the tree and its anchored nodes.
* `Yaml.Document.ofTokens`: the only document of a list of tokens.
-/

namespace Cookbook

namespace Yaml

/-- A node of a document. -/
inductive Node where
  /-- A scalar with its tag, whether it is written plainly, and its text. -/
  | scalar (tag : Option String) (plain : Bool) (text : String)
  /-- A sequence. -/
  | seq (tag : Option String) (items : List Node)
  /-- A mapping. -/
  | map (tag : Option String) (entries : List (Node × Node))
  /-- A reference to an anchored node by its number. -/
  | alias (number : Nat)
  /-- The content of a text without a document. -/
  | absent
  deriving Inhabited

/-- An empty plain scalar. -/
def Node.blank : Node := .scalar none true ""

mutual

/-- The number of marks a node is made of: one for a scalar or an alias, a start and an end for a
collection. -/
def Node.size : Node → Nat
  | .seq _ items => 2 + Node.sizeItems items
  | .map _ entries => 2 + Node.sizeEntries entries
  | _ => 1

/-- The size of all items together. -/
def Node.sizeItems : List Node → Nat
  | [] => 0
  | n :: rest => n.size + Node.sizeItems rest

/-- The size of all entries together. -/
def Node.sizeEntries : List (Node × Node) → Nat
  | [] => 0
  | (k, v) :: rest => k.size + v.size + Node.sizeEntries rest

end

/-- A document: its root and the nodes that aliases stand for. -/
structure Document where
  /-- The root. -/
  root : Node
  /-- The anchored nodes by number. -/
  anchored : List (Nat × Node)

/-- The node with a number. -/
def Document.anchored? (d : Document) (number : Nat) : Option Node :=
  (d.anchored.find? (fun e => e.1 == number)).map Prod.snd

/-! ### Reading tokens -/

/-- The state of building a tree. -/
structure Builder where
  /-- The tokens still to be read. -/
  tokens : List Token
  /-- The number of each anchor name. -/
  names : List (String × Nat) := []
  /-- How many anchors have been met. -/
  met : Nat := 0
  /-- Anchored nodes: number, when the anchor was met, node. -/
  anchored : List (Nat × Nat × Node) := []

/-- A step of building a tree. -/
abbrev BuildM := StateT Builder (Except Failure)

namespace BuildM

/-- The next token. -/
def peek : BuildM (Option Token) := do return (← get).tokens.head?

/-- Move over the next token. -/
def drop : BuildM Unit := modify fun b => { b with tokens := b.tokens.drop 1 }

/-- Move over the next token if it is this one. -/
def dropIf (t : Token) : BuildM Bool := do
  if (← peek) == some t then
    drop
    return true
  return false

/-- Whether one of these tokens, or the end, comes next. -/
def comesOneOf (ts : List Token) : BuildM Bool := do
  return (← peek).all ts.contains

/-- Give the name a number when its anchor is met. -/
def anchor (name? : Option String) : BuildM (Option (Nat × Nat)) := do
  match name? with
  | none => return none
  | some name =>
    let b ← get
    let number := b.names.length
    set { b with
      names := (name, number) :: b.names.filter (fun e => e.1 != name), met := b.met + 1 }
    return some (number, b.met)

/-- Keep a node for its aliases. -/
def keep (place? : Option (Nat × Nat)) (n : Node) : BuildM Node := do
  match place? with
  | none => return n
  | some (number, met) =>
    modify fun b => { b with anchored := (number, met, n) :: b.anchored }
    return n

/-- The anchor and the tag in front of a node, in either order. -/
def properties : BuildM (Option String × Option (String × String)) := do
  let anchor? : BuildM (Option String) := do
    match ← peek with
    | some (.anchor name) => drop; return some name
    | _ => return none
  let tag? : BuildM (Option (String × String)) := do
    match ← peek with
    | some (.tag handle suffix) => drop; return some (handle, suffix)
    | _ => return none
  match ← anchor? with
  | some name => return (some name, ← tag?)
  | none =>
    let tag ← tag?
    if tag.isSome then return (← anchor?, tag) else return (none, none)

/-- The full tag: the start that its handle stands for and the rest. -/
def fullTag (handles : List (String × String)) :
    Option (String × String) → BuildM (Option String)
  | none => return none
  | some ("", suffix) => return some suffix
  | some (handle, suffix) =>
    match handles.find? (fun h => h.1 == handle) with
    | some (_, start) => return some (start ++ suffix)
    | none => throw (.unexpectedToken "found undefined tag handle")

variable (handles : List (String × String))

mutual

/-- Read a node. In a block, collections may be in block form; as the value of a mapping, a sequence
may stand at the indentation of the mapping. -/
def node : Nat → Bool → Bool → BuildM Node
  | 0, _, _ => throw (.unexpectedToken "did not find expected node content")
  | fuel + 1, block, level => do
    if let some (.alias name) := ← peek then
      drop
      match (← get).names.find? (fun e => e.1 == name) with
      | some (_, number) => return .alias number
      | none => throw (.unknownAnchor name)
    let (name?, tag?) ← properties
    let tag ← fullTag handles tag?
    match ← peek with
    | some (.scalar plain text) =>
      drop
      -- the tag that is only an exclamation mark leaves a scalar to its own notation
      keep (← anchor name?) (.scalar (if tag = some "!" then none else tag) plain text)
    | some .blockEntry =>
      if level then
        let place ← anchor name?
        keep place (.seq tag (← levelItems fuel))
      else blankNode name? tag
    | some .openSequence =>
      drop
      let place ← anchor name?
      keep place (.seq tag (← flowItems fuel true))
    | some .openMapping =>
      drop
      let place ← anchor name?
      keep place (.map tag (← flowEntries fuel true))
    | some .blockSequence =>
      if block then
        drop
        let place ← anchor name?
        keep place (.seq tag (← blockItems fuel))
      else blankNode name? tag
    | some .blockMapping =>
      if block then
        drop
        let place ← anchor name?
        keep place (.map tag (← blockEntries fuel))
      else blankNode name? tag
    | _ => blankNode name? tag
where
  /-- A node of which only the anchor or the tag is written. -/
  blankNode (name? : Option String) (tag : Option String) : BuildM Node := do
    if name?.isNone && tag.isNone then
      throw (.unexpectedToken "did not find expected node content")
    keep (← anchor name?) (.scalar tag true "")

/-- Read a node, or nothing before one of these tokens. -/
def nodeBefore (stops : List Token) : Nat → Bool → Bool → BuildM Node
  | 0, _, _ => throw (.unexpectedToken "did not find expected node content")
  | fuel + 1, block, level => do
    if (← peek).any stops.contains then return .blank
    node fuel block level

/-- Read the items of a sequence in block form. -/
def blockItems : Nat → BuildM (List Node)
  | 0 => throw (.unexpectedToken "did not find expected '-' indicator")
  | fuel + 1 => do
    if ← dropIf .blockEntry then
      let item ← nodeBefore [.blockEntry, .blockEnd] fuel true false
      return item :: (← blockItems fuel)
    if ← dropIf .blockEnd then return []
    throw (.unexpectedToken "did not find expected '-' indicator")

/-- Read the items of a sequence at the indentation of the mapping around it. -/
def levelItems : Nat → BuildM (List Node)
  | 0 => throw (.unexpectedToken "did not find expected '-' indicator")
  | fuel + 1 => do
    if ← dropIf .blockEntry then
      let item ← nodeBefore [.blockEntry, .key, .value, .blockEnd] fuel true false
      return item :: (← levelItems fuel)
    return []

/-- Read the entries of a mapping in block form. -/
def blockEntries : Nat → BuildM (List (Node × Node))
  | 0 => throw (.unexpectedToken "did not find expected key")
  | fuel + 1 => do
    if ← dropIf .key then
      let stops := [.key, .value, .blockEnd]
      let k ← nodeBefore stops fuel true true
      let v ← if ← dropIf .value then nodeBefore stops fuel true true else pure .blank
      return (k, v) :: (← blockEntries fuel)
    if ← dropIf .blockEnd then return []
    throw (.unexpectedToken "did not find expected key")

/-- Read the items of a sequence in brackets, from after the opening one or from a comma on. An
item may be a mapping with one entry. -/
def flowItems : Nat → Bool → BuildM (List Node)
  | 0, _ => throw (.unexpectedToken "did not find expected ',' or ']'")
  | fuel + 1, first => do
    if ← dropIf .closeSequence then return []
    if !first then
      if !(← dropIf .flowEntry) then
        throw (.unexpectedToken "did not find expected ',' or ']'")
    if ← dropIf .key then
      let k ←
        if ← comesOneOf [.value, .flowEntry, .closeSequence] then
          drop
          pure .blank
        else node fuel false false
      let v ←
        if ← dropIf .value then nodeBefore [.flowEntry, .closeSequence] fuel false false
        else pure .blank
      return .map none [(k, v)] :: (← flowItems fuel false)
    if ← dropIf .closeSequence then return []
    let item ← node fuel false false
    return item :: (← flowItems fuel false)

/-- Read the entries of a mapping in braces, from after the opening one or from a comma on. A node
without a colon is a key without a value. -/
def flowEntries : Nat → Bool → BuildM (List (Node × Node))
  | 0, _ => throw (.unexpectedToken "did not find expected ',' or '\x7d'")
  | fuel + 1, first => do
    if ← dropIf .closeMapping then return []
    if !first then
      if !(← dropIf .flowEntry) then
        throw (.unexpectedToken "did not find expected ',' or '\x7d'")
    if ← dropIf .key then
      let k ← nodeBefore [.value, .flowEntry, .closeMapping] fuel false false
      let v ←
        if ← dropIf .value then nodeBefore [.flowEntry, .closeMapping] fuel false false
        else pure .blank
      return (k, v) :: (← flowEntries fuel false)
    if ← dropIf .closeMapping then return []
    let k ← node fuel false false
    return (k, .blank) :: (← flowEntries fuel false)

end

/-! ### Documents -/

/-- The handles every document has. -/
def standardHandles : List (String × String) := [("!", "!"), ("!!", "tag:yaml.org,2002:")]

/-- Read the directives before a document: the tag handles it sets. -/
def directives : List Token → Bool → List (String × String) →
    Except Failure (List (String × String) × List Token)
  | .version major minor :: rest, versioned, handles =>
    if versioned then .error (.unexpectedToken "found duplicate %YAML directive")
    else if major ≠ 1 ∨ (minor ≠ 1 ∧ minor ≠ 2) then
      .error (.unexpectedToken "found incompatible YAML document")
    else directives rest true handles
  | .tagHandle handle start :: rest, versioned, handles =>
    if handles.any (fun h => h.1 == handle) then
      .error (.unexpectedToken "found duplicate %TAG directive")
    else directives rest versioned (handles ++ [(handle, start)])
  | rest, _, handles => .ok (handles, rest)

/-- Whether the token starts or ends a document. -/
def isBoundary : Token → Bool
  | .version .. | .tagHandle .. | .documentStart | .documentEnd => true
  | _ => false

end BuildM

open BuildM in
/-- The document of a list of tokens. Without tokens there is none; a second one is refused. -/
def Document.ofTokens (tokens : List Token) : Except Failure Document := do
  let fuel := 3 * tokens.length + 3
  let build (handles : List (String × String)) (ts : List Token) :
      Except Failure (Node × Builder) :=
    (node (handles ++ standardHandles) fuel true false).run { tokens := ts }
  let (root, b) ← match tokens with
    | [] => pure (Node.absent, { tokens := [] })
    | t :: _ =>
      if !isBoundary t || t == .documentEnd then build [] tokens
      else do
        let (handles, ts) ← directives tokens false []
        match ts with
        | .documentStart :: ts =>
          if ts.head?.all isBoundary then pure (Node.blank, { tokens := ts })
          else build handles ts
        | _ => throw (.unexpectedToken "did not find expected <document start>")
  if !(b.tokens.dropWhile (· == .documentEnd)).isEmpty then throw .severalDocuments
  let latest (number : Nat) : Nat :=
    ((b.anchored.filter (fun e => e.1 == number)).map (fun e => e.2.1)).foldl max 0
  let anchored := b.anchored.filter (fun e => e.2.1 == latest e.1)
  return { root, anchored := anchored.map (fun e => (e.1, e.2.2)) }

end Yaml

end Cookbook
