import DocCite.Datum.Yaml.Lexer
import DocCite.Datum.Yaml.Node

/-!
# YAML text

The data of a text in YAML. An alias stands for the data of the node that bears its anchor, which
may be the node around it: data are given for a number of rounds, in each of which an alias stands
for what its node was in the round before.
-/

namespace DocCite.Yaml

/-- A datum with its tag, if it has one. -/
def withTag (tag : Option String) (d : Datum) : Datum :=
  match tag with
  | some tag => .tagged tag d
  | none => d

mutual

/-- The datum of a node, given the data of the nodes with anchors. -/
def Node.datum (known : Keyed Nat Datum) : Node → Datum
  | .alias id => (known.get? id).getD .unusable
  | .scalar _ tag form text =>
    withTag tag (match form with
      | .plain => .undecided text
      | .literal => .block text
      | .text => .text text)
  | .list _ tag items => withTag tag (.list false (dataOf known items))
  | .map _ tag pairs => withTag tag (.ofPairs (pairsOf known pairs))

/-- The data of the items of a list. -/
def dataOf (known : Keyed Nat Datum) : List Node → List Datum
  | [] => []
  | node :: rest => node.datum known :: dataOf known rest

/-- The data of the pairs of a map. -/
def pairsOf (known : Keyed Nat Datum) : List (Node × Node) → List (Option String × Datum)
  | [] => []
  | (key, value) :: rest =>
    ((key.datum known).text?, value.datum known) :: pairsOf known rest

end

mutual

/-- The nodes with anchors in a node, in the order in which they start. -/
def Node.anchored : Node → List (Nat × Node)
  | .alias _ => []
  | .scalar anchor tag form text =>
    (anchor.map fun id => (id, .scalar anchor tag form text)).toList
  | .list anchor tag items =>
    (anchor.map fun id => (id, .list anchor tag items)).toList ++ anchoredIn items
  | .map anchor tag pairs =>
    (anchor.map fun id => (id, .map anchor tag pairs)).toList ++ anchoredInPairs pairs

/-- The nodes with anchors in the items of a list. -/
def anchoredIn : List Node → List (Nat × Node)
  | [] => []
  | node :: rest => node.anchored ++ anchoredIn rest

/-- The nodes with anchors in the pairs of a map. -/
def anchoredInPairs : List (Node × Node) → List (Nat × Node)
  | [] => []
  | (key, value) :: rest => key.anchored ++ (value.anchored ++ anchoredInPairs rest)

end

/-- The data of nodes with anchors after a number of rounds. -/
def known (nodes : Keyed Nat Node) : Nat → Keyed Nat Datum
  | 0 => []
  | n + 1 =>
    let before := known nodes n
    nodes.map fun p => (p.1, p.2.datum before)

/-- How deep fields of records hold each other at most. -/
def depthOfRecords : Nat := 5

/-- The datum of a document. An alias that is not inside its own node is settled after as many
rounds as there are anchors; the further rounds are for the others. -/
def Node.toDatum (root : Node) : Datum :=
  let nodes := Keyed.putAll [] root.anchored
  root.datum (if nodes.isEmpty then [] else known nodes (nodes.length + depthOfRecords))

/-- Reads a text that is one document. A text without any is an empty scalar. -/
def parse? (s : String) : Option Datum := do
  let tokens ← tokens? s.toList
  let root ← Node.ofTokens? tokens
  some (match root with
    | some root => root.toDatum
    | none => .undecided "")

end DocCite.Yaml
