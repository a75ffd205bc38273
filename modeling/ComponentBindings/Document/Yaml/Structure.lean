import ComponentBindings.Document.Yaml.Token

/-!
# The structure of a text

From the tokens of a text to its nodes. A node may have a name, and an alias
stands for the node with a name that was given before it, which may be a node
around the alias. So that nothing is written twice, a node with a name stands
in a table, and where it is written and where an alias is there is only its
number.

A text holds one document, which may have a mark in front and marks behind.
-/

namespace ComponentBindings.Yaml

/-- A node. Sequences and mappings have numbers, by which they are told apart
from others with the same content. -/
inductive Node where
  /-- A scalar, plain or quoted. -/
  | scalar (text : List Char) (plain : Bool)
  /-- Nodes in order. -/
  | sequence (number : Nat) (items : List Node)
  /-- Keys with their values in order. -/
  | mapping (number : Nat) (pairs : List (Node × Node))
  /-- The node of the table with a number. -/
  | shared (number : Nat)
  deriving Inhabited

/-- A node without content. -/
def Node.empty : Node := .scalar [] true

/-- **The nodes of a document.** -/
structure NodeGraph where
  /-- The node that the document is. -/
  root : Node
  /-- The nodes with names, by their numbers, in the order in which they end. -/
  named : List (Nat × Node)

/-- Whether a number is that of a mapping with a name. -/
def NodeGraph.isMapping (g : NodeGraph) (number : Nat) : Bool :=
  match g.named.lookup number with
  | some (.mapping ..) => true
  | _ => false

/-- What is left of the tokens, and the nodes so far. -/
structure Input where
  /-- The tokens. -/
  tokens : List Token
  /-- Why there are no more tokens, unless the text is at its end. -/
  stop : Option Fault
  /-- How many nodes have been met. -/
  count : Nat := 0
  /-- The names that have been given, with the numbers of their nodes. -/
  names : List (List Char × Nat) := []
  /-- The nodes with names that have ended, the last one first. -/
  named : List (Nat × Node) := []

/-- Computations that take tokens and may fail. -/
abbrev Reader := StateT Input (Except Fault)

/-- The text does not have a structure. -/
def unreadable {α : Type} : Reader α := throw .unreadable

/-- The next token, which stays. -/
def peek : Reader (Option Token) := do
  let i ← get
  match i.tokens, i.stop with
  | t :: _, _ => return some t
  | [], some fault => throw fault
  | [], none => return none

/-- The next token is taken. -/
def drop : Reader Unit := modify fun i => { i with tokens := i.tokens.drop 1 }

/-- The next token has to be the given one, and is taken. -/
def expect (t : Token) : Reader Unit := do
  if (← peek) = some t then drop else unreadable

/-- Whether the next token is the given one, which is then taken. -/
def take (t : Token) : Reader Bool := do
  if (← peek) = some t then
    drop
    return true
  else return false

/-- The number of a node that starts here. -/
def number : Reader Nat := do
  let i ← get
  set { i with count := i.count + 1 }
  return i.count

/-- A node with a number is given a name, which nothing else may have. -/
def giveName (name : List Char) (number : Nat) : Reader Unit := do
  let i ← get
  if i.names.any (·.1 = name) then unreadable
  else set { i with names := (name, number) :: i.names }

/-- The node that has a name. -/
def nodeNamed (name : List Char) : Reader Node := do
  match (← get).names.lookup name with
  | some number => return .shared number
  | none => unreadable

/-- A node with a name has ended. -/
def keepNamed (number : Nat) (n : Node) : Reader Node := do
  modify fun i => { i with named := (number, n) :: i.named }
  return .shared number

mutual

/-- A node. Inside a block there may be block collections, and where a
mapping value is due, a block sequence that is not indented. -/
def node (block indentless : Bool) : Nat → Reader Node
  | 0 => unreadable
  | fuel + 1 => do
    match ← peek with
    | some (.aliasOf name) =>
      drop
      nodeNamed name
    | some (.anchor name) =>
      drop
      let n ← number
      giveName name n
      keepNamed n (← content block indentless true n fuel)
    | _ => content block indentless false (← number) fuel

/-- A node with a number, without its name. Only a node with a name may be
empty here. -/
def content (block indentless named : Bool) (n : Nat) : Nat → Reader Node
  | 0 => unreadable
  | fuel + 1 => do
    match ← peek with
    | some (.scalar text plain) =>
      drop
      return .scalar text plain
    | some .openBracket =>
      drop
      return .sequence n (← flowItems true fuel)
    | some .openBrace =>
      drop
      return .mapping n (← flowPairs true fuel)
    | some .blockSequence =>
      if !block then unreadable
      drop
      let items ← blockItems [.blockEnd] fuel
      expect .blockEnd
      return .sequence n items
    | some .blockMapping =>
      if !block then unreadable
      drop
      let pairs ← blockPairs fuel
      expect .blockEnd
      return .mapping n pairs
    | some .entry =>
      if indentless then return .sequence n (← blockItems [.key, .value, .blockEnd] fuel)
      else if named then return .empty
      else unreadable
    | _ => if named then return .empty else unreadable

/-- The entries of a block sequence. An entry in front of another one or of
one of the tokens that follow the sequence is empty. -/
def blockItems (ends : List Token) : Nat → Reader (List Node)
  | 0 => unreadable
  | fuel + 1 => do
    if ← take .entry then
      let empty := (← peek).all fun t => t = .entry || ends.contains t
      let item ← if empty then pure .empty else node true false fuel
      return item :: (← blockItems ends fuel)
    else return []

/-- The keys and values of a block mapping. A value needs a key. -/
def blockPairs : Nat → Reader (List (Node × Node))
  | 0 => unreadable
  | fuel + 1 => do
    let part : Reader Node := do
      if (← peek).all ([Token.key, .value, .blockEnd].contains ·) then return .empty
      else node true true fuel
    if ← take .key then
      let key ← part
      let value ← if ← take .value then part else pure .empty
      return (key, value) :: (← blockPairs fuel)
    else return []

/-- The entries of a flow sequence up to its closing bracket. An entry with a
key is a mapping with one pair. -/
def flowItems (first : Bool) : Nat → Reader (List Node)
  | 0 => unreadable
  | fuel + 1 => do
    if ← take .closeBracket then return []
    if !first then expect .comma
    if ← take .closeBracket then return []
    let part (ends : List Token) : Reader Node := do
      if (← peek).all (ends.contains ·) then return .empty else node false false fuel
    let item ←
      if ← take .key then do
        let n ← number
        let key ← part [.value, .comma, .closeBracket]
        let value ← if ← take .value then part [.comma, .closeBracket] else pure .empty
        pure (.mapping n [(key, value)])
      else node false false fuel
    return item :: (← flowItems false fuel)

/-- The keys and values of a flow mapping up to its closing brace. A node
without a mark is a key without a value. -/
def flowPairs (first : Bool) : Nat → Reader (List (Node × Node))
  | 0 => unreadable
  | fuel + 1 => do
    if ← take .closeBrace then return []
    if !first then expect .comma
    if ← take .closeBrace then return []
    let part (ends : List Token) : Reader Node := do
      if (← peek).all (ends.contains ·) then return .empty else node false false fuel
    let pair ←
      if ← take .key then do
        let key ← part [.value, .comma, .closeBrace]
        let value ← if ← take .value then part [.comma, .closeBrace] else pure .empty
        pure (key, value)
      else do
        let key ← node false false fuel
        pure (key, .empty)
    return pair :: (← flowPairs false fuel)

end

/-- The marks of an ended document at the front of the tokens are taken. -/
def dropEnds : Nat → Reader Unit
  | 0 => pure ()
  | fuel + 1 => do
    if ← take .documentEnd then dropEnds fuel

/-- The nodes that tokens spell. -/
def document (fuel : Nat) : Reader Node := do
  let marked ← take .documentStart
  let root ← match ← peek with
    | none => pure .empty
    | some .documentStart | some .documentEnd => if marked then pure .empty else unreadable
    | some _ => node true false fuel
  dropEnds fuel
  match ← peek with
  | none => return root
  | some _ => unreadable

/-- **The nodes of a text.** -/
def NodeGraph.ofText (text : List Char) : Except Fault NodeGraph := do
  let ⟨tokens, stop⟩ := Tokens.ofText text
  let (root, i) ← (document (4 * tokens.length + 8)).run { tokens, stop }
  return { root, named := i.named.reverse }

end ComponentBindings.Yaml
