import ComponentBindings.Document.Yaml.Plain
import ComponentBindings.Document.Yaml.Structure

/-!
# What nodes stand for

From the nodes of a text to the document it is. A plain scalar is resolved, a
sequence is a list, and a mapping is an object. Its keys have to be scalars;
a key that comes twice keeps its first place and has its last value.

The plain key `<<` merges: the pairs of the mapping that is its value, or of
each of several mappings in a sequence, stand in front of the pairs of the
mapping that it is a key of, so that these win. The plain key `=` is a text.
As a value neither of the two stands for anything.

Of several faults the one that is nearest to the root is reported, and of
several that are equally near the first one (`FaultAt.nearest?`). A fault of a
collection in its own pairs, such as a collection as a key, lies where the
collection lies, and so do the faults of the scalars in it.

Nodes with names are taken in the order in which they end. So an alias to a
node that has ended finds what it stands for, and an alias to a node that has
not ended is inside of that node: it becomes a label in the document, and the
collections between the node and the alias are marked as recurring.
-/

namespace ComponentBindings.Yaml

/-- A fault and how many collections there are between it and the node that
it is seen from. -/
structure FaultAt where
  /-- The number of collections. -/
  depth : Nat
  /-- The fault. -/
  fault : Fault

/-- The fault that is nearest to the root, and the first of equally near
ones. -/
def FaultAt.nearest? : List FaultAt → Option FaultAt
  | [] => none
  | f :: rest =>
    match nearest? rest with
    | some g => if g.depth < f.depth then some g else some f
    | none => some f

/-- What is known of a collection. -/
structure Summary where
  /-- The document that it stands for, if there is no fault. -/
  document : Document
  /-- The numbers of the nodes around it that come again in it. -/
  loose : List Nat := []
  /-- The fault nearest to it. -/
  fault : Option FaultAt := none

/-- **What a node stands for.** -/
inductive Value where
  /-- A scalar. -/
  | scalar (s : Scalar)
  /-- A plain scalar that stands for nothing. -/
  | faulty (f : Fault)
  /-- The plain scalar `<<`. -/
  | merge
  /-- The plain scalar `=`. -/
  | equals
  /-- A sequence with its values. -/
  | sequence (items : List Value) (summary : Summary)
  /-- A mapping with its pairs, those that are merged into it in front, or
  none if they cannot be merged. -/
  | mapping (pairs : Option (List (Value × Value))) (summary : Summary)
  /-- The node around it with a number, and whether that is a mapping. -/
  | around (number : Nat) (isMapping : Bool)

namespace Value

/-- What a scalar stands for. -/
def ofScalar (text : List Char) (plain : Bool) : Value :=
  if !plain then scalar (.text (String.ofList text))
  else if text = ['<', '<'] then merge
  else if text = ['='] then equals
  else match plainValue text with
    | .ok s => scalar s
    | .error what => faulty (.unrepresentable what)

/-- The document that a value is. -/
def document : Value → Document
  | scalar s => .scalar s
  | sequence _ summary | mapping _ summary => summary.document
  | around number _ => .again number
  | faulty _ | merge | equals => .null

/-- The numbers of the nodes around a value that come again in it. -/
def loose : Value → List Nat
  | sequence _ summary | mapping _ summary => summary.loose
  | around number _ => [number]
  | scalar _ | faulty _ | merge | equals => []

/-- The fault of a value in a collection, as it is seen from the
collection. -/
def faultInside : Value → Option FaultAt
  | faulty f => some ⟨0, f⟩
  | merge | equals => some ⟨0, .unreadable⟩
  | sequence _ summary | mapping _ summary =>
    summary.fault.map fun f => { f with depth := f.depth + 1 }
  | scalar _ | around .. => none

/-- What is known of a collection with a number that holds values. -/
def summarize (number : Nat) (content : Document) (values : List Value)
    (faults : List FaultAt) : Summary :=
  let loose := (values.flatMap Value.loose).eraseDups
  { document := if loose.isEmpty then content else .recurring number content
    loose := loose.filter (· ≠ number)
    fault := FaultAt.nearest? faults }

/-- A sequence of values. -/
def ofItems (number : Nat) (items : List Value) : Value :=
  sequence items (summarize number (.list (items.map document)) items
    (items.filterMap faultInside))

/-- The pairs that merging a value brings. A mapping around the place brings
none, because its pairs are not complete. -/
def mergedPairs : Value → Option (List (Value × Value))
  | mapping pairs _ => pairs
  | around _ true => some []
  | _ => none

/-- The pairs that the value of a merging key brings. Of several mappings the
last one comes first, so that the first one wins. -/
def broughtPairs : Value → Option (List (Value × Value))
  | sequence items _ => (items.mapM mergedPairs).map fun pairs => pairs.reverse.flatten
  | other => other.mergedPairs

/-- Whether a value is the merging key. -/
def isMerge : Value → Bool
  | merge => true
  | _ => false

/-- The pairs of a mapping with those that are merged into it. -/
def withMerged (pairs : List (Value × Value)) : Option (List (Value × Value)) := do
  let brought ← (pairs.filter fun (key, _) => key.isMerge).mapM fun (_, value) =>
    value.broughtPairs
  some (brought.flatten ++ pairs.filter fun (key, _) => !key.isMerge)

/-- The name of a member that a key is. -/
def key : Value → Except Fault Scalar
  | scalar s => .ok s
  | equals => .ok (.text "=")
  | faulty f => .error f
  | _ => .error .unreadable

/-- The members of an object with given keys and values. -/
def members (pairs : List (Value × Value)) : List (Scalar × Document) :=
  pairs.foldl (fun members (k, value) =>
    match k.key with
    | .ok name => Document.put members name value.document
    | .error _ => members) []

/-- The faults of a key and its value. -/
def pairFaults : Value × Value → List FaultAt
  | (k, value) =>
    match k.key with
    | .ok _ => value.faultInside.toList
    | .error f => ⟨0, f⟩ :: value.faultInside.toList

/-- A mapping with keys and values. -/
def ofPairs (number : Nat) (pairs : List (Value × Value)) : Value :=
  match withMerged pairs with
  | some pairs =>
    mapping pairs (summarize number (.object (members pairs)) (pairs.map Prod.snd)
      (pairs.flatMap pairFaults))
  | none => mapping none { document := .null, fault := some ⟨0, .unreadable⟩ }

mutual

/-- **What a node stands for**, given what the nodes with names that have
ended stand for. -/
def ofNode (g : NodeGraph) (named : List (Nat × Value)) : Node → Value
  | .scalar text plain => ofScalar text plain
  | .sequence number items => ofItems number (ofNodes g named items)
  | .mapping number pairs => ofPairs number (ofNodePairs g named pairs)
  | .shared number => (named.lookup number).getD (around number (g.isMapping number))

/-- What several nodes stand for. -/
def ofNodes (g : NodeGraph) (named : List (Nat × Value)) : List Node → List Value
  | [] => []
  | n :: rest => ofNode g named n :: ofNodes g named rest

/-- What keys and their values stand for. -/
def ofNodePairs (g : NodeGraph) (named : List (Nat × Value)) :
    List (Node × Node) → List (Value × Value)
  | [] => []
  | (k, n) :: rest => (ofNode g named k, ofNode g named n) :: ofNodePairs g named rest

end

/-- The document that a value is, with the nodes that come again in it put in
place of their labels if they are not around it. -/
def closedDocument (named : List (Nat × Value)) (value : Value) : Document :=
  if value.loose.isEmpty then value.document
  else
    named.foldl (fun document (number, v) => Document.fill number v.document document)
      value.document

/-- The fault of the node that is the root. -/
def rootFault? (value : Value) : Option Fault := value.faultInside.map FaultAt.fault

end Value

/-- The document of a graph of nodes. -/
def NodeGraph.document (g : NodeGraph) : Except Fault Document :=
  let named := g.named.foldl (fun named (number, n) =>
    named ++ [(number, Value.ofNode g named n)]) []
  let root := Value.ofNode g named g.root
  match root.rootFault? with
  | some fault => .error fault
  | none => .ok (root.closedDocument named)

/-- **The document that a text is**, if it is one. -/
def read (text : String) : Except Fault Document := do
  (← NodeGraph.ofText text.toList).document

end ComponentBindings.Yaml
