import SlicePolicy.Error
import SlicePolicy.Log
import SlicePolicy.Text.Layout
import SlicePolicy.Violation
import SlicePolicy.Wiring

namespace SlicePolicy

/-!
# Topologies

A topology is built by adding switches, hosts and links. Every node numbers its ports from one in
the order in which its links are added.

* `Topology.Step`, `Topology.perform` — one addition and what it answers; a link can be refused.
* `Topology.after` — what a sequence of additions builds, where refusals are passed over.
* `Topology.wiring` — the topology as the checks see it.
* `Topology.violation?` — the first invariant that is broken; none is, if the topology was built.
-/

/-- What a node does. -/
inductive NodeKind
  /-- Runs a policy. -/
  | switch
  /-- Sends and receives the traffic at the edge of the network. -/
  | host
  deriving DecidableEq, Repr

/-- A node of a topology. -/
structure Node where
  kind : NodeKind
  /-- The port that faces each neighbour. -/
  ports : Std.TreeMap Value Value

namespace Node

/-- The number of the next port. -/
def nextPort (n : Node) : Value := Int64.ofNat (n.ports.size + 1)

/-- The port numbers in increasing order. -/
def portNumbers (n : Node) : List Value :=
  n.ports.values.mergeSort fun p q => decide (p ≤ q)

end Node

/-- A network of switches and hosts with two-way links. -/
structure Topology where
  nodes : Std.TreeMap Value Node
  /-- The links in the order in which they were added. -/
  links : List (Value × Value)

/-- Why a link is refused. -/
inductive LinkFault
  | selfLink (node : Value)
  | unknownNode (node : Value)
  deriving DecidableEq, Repr

namespace LinkFault

/-- The fault in words. -/
def message : LinkFault → String
  | selfLink node => "self link on node " ++ node.text
  | unknownNode node => "unknown node " ++ node.text

end LinkFault

namespace Topology

/-- The topology without nodes. -/
def empty : Topology := ⟨∅, []⟩

instance : EmptyCollection Topology := ⟨empty⟩

instance : Inhabited Topology := ⟨empty⟩

/-- The kind of a node, if there is one. -/
def kind? (t : Topology) (id : Value) : Option NodeKind := t.nodes[id]?.map Node.kind

/-- The port of a node that faces a neighbour. -/
def portToward (t : Topology) (node neighbor : Value) : Option Value :=
  t.nodes[node]?.bind fun n => n.ports[neighbor]?

/-- The links and ports alone. -/
def wiring (t : Topology) : Wiring := { edges := t.links, portToward := t.portToward }

/-! ### Building -/

/-- The topology with a node that has no links yet; a node that is there already stays. -/
def addNode (t : Topology) (id : Value) (kind : NodeKind) : Topology :=
  { t with nodes := t.nodes.insertIfNew id ⟨kind, ∅⟩ }

/-- The topology with the next port of a node facing a neighbour. -/
def face (t : Topology) (node neighbor : Value) : Topology :=
  match t.nodes[node]? with
  | none => t
  | some n =>
    let n' := { n with ports := n.ports.insert neighbor (n.nextPort) }
    { t with nodes := t.nodes.insert node n' }

/-- The topology with a new link, which takes the next port at each end. -/
def connect (t : Topology) (a b : Value) : Topology :=
  let t := (t.face a b).face b a
  { t with links := t.links ++ [(a, b)] }

/-- Why two nodes cannot be linked. -/
def linkFault? (t : Topology) (a b : Value) : Option LinkFault :=
  if a = b then some (.selfLink a)
  else if !t.nodes.contains a then some (.unknownNode a)
  else if !t.nodes.contains b then some (.unknownNode b)
  else none

/-- What linking two nodes answers, and the topology that it leaves. Nodes that are linked already
    stay as they are. -/
def addLink (t : Topology) (a b : Value) : Except Error Unit × Topology :=
  match t.linkFault? a b with
  | some fault => (.error (.invalidTopology fault.message), t)
  | none => (.ok (), if (t.portToward a b).isSome then t else t.connect a b)

/-- An addition to a topology. -/
inductive Step
  | addSwitch (id : Value)
  | addHost (id : Value)
  | addLink (a b : Value)
  deriving DecidableEq, Repr

/-- What an addition answers, and the topology that it leaves. -/
def perform (t : Topology) : Step → Except Error Unit × Topology
  | .addSwitch id => (.ok (), t.addNode id .switch)
  | .addHost id => (.ok (), t.addNode id .host)
  | .addLink a b => t.addLink a b

/-- The topology after an addition that is not refused. -/
def apply (t : Topology) (s : Step) : Except Error Topology :=
  (t.perform s).1.map fun _ => (t.perform s).2

/-- What is logged while an addition is made: that two nodes are linked already. -/
def notices (t : Topology) : Step → List LogRecord
  | .addSwitch _ => []
  | .addHost _ => []
  | .addLink a b =>
    if (t.linkFault? a b).isNone && (t.portToward a b).isSome then
      [.event .trace [("a", .number a.toInt), ("b", .number b.toInt)] "link already present"]
    else []

/-- The topology that an addition leaves, whether or not it is refused. -/
def applyOrKeep (t : Topology) (s : Step) : Topology := (t.perform s).2

/-- What a sequence of additions builds, where refusals are passed over. -/
def after (steps : List Step) : Topology := steps.foldl applyOrKeep ∅

/-- What a sequence of additions builds, or the first refusal. -/
def build (steps : List Step) : Except Error Topology := steps.foldlM apply ∅

/-- What is logged while a sequence of additions is made. -/
def noticesOf (t : Topology) : List Step → List LogRecord
  | [] => []
  | s :: steps => t.notices s ++ (t.applyOrKeep s).noticesOf steps

/-! ### Views -/

/-- The switches with their ports, in increasing order. -/
def switchNodes (t : Topology) : List (Value × Node) :=
  t.nodes.toList.filter fun e => e.2.kind = .switch

/-- The switches in increasing order. -/
def switches (t : Topology) : List Value := t.switchNodes.map Prod.fst

/-- The switch ports that face a host, where traffic enters and leaves: switch by switch, the
    hosts in increasing order. -/
def edgePorts (t : Topology) : List Location :=
  t.switchNodes.flatMap fun e =>
    (e.2.ports.toList.filter fun f => t.kind? f.1 = some .host).map fun f => ⟨e.1, f.2⟩

/-! ### Invariants -/

/-- Both ends of a link have a port. -/
def linkViolation? (t : Topology) (link : Value × Value) : Option Violation :=
  if (t.portToward link.1 link.2).isNone || (t.portToward link.2 link.1).isNone then
    some ⟨"Topology", "link without ports", some (link.1.text ++ " -- " ++ link.2.text)⟩
  else none

/-- The ports of a node are numbered from one without gaps. -/
def numberingViolation? (id : Value) (n : Node) : Option Violation :=
  let numbers := n.portNumbers
  -- a table that skips or repeats a number differs from 1, 2, …
  if numbers = (List.range n.ports.size).map fun i => Int64.ofNat (i + 1) then none
  else
    some ⟨"Topology", "ports are not numbered 1..n",
      some ("node " ++ id.text ++ " has ports " ++ Text.bracketed (numbers.map Value.text))⟩

/-- Every neighbour faces back. -/
def symmetryViolation? (t : Topology) (id : Value) (n : Node) : Option Violation :=
  n.ports.keys.findSome? fun neighbor =>
    if (t.portToward neighbor id).isNone then
      some ⟨"Topology", "asymmetric port table",
        some (id.text ++ " faces " ++ neighbor.text ++ " but not back")⟩
    else none

/-- The first invariant that is broken: links in their order, then nodes in increasing order. -/
def violation? (t : Topology) : Option Violation :=
  (t.links.findSome? t.linkViolation?).or
    (t.nodes.toList.findSome? fun e =>
      (numberingViolation? e.1 e.2).or (t.symmetryViolation? e.1 e.2))

end Topology

end SlicePolicy
