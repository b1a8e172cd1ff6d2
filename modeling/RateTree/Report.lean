import RateTree.Capabilities
import RateTree.LinkTable
import RateTree.RateQuery

/-!
# Reports

The lines in which a tree, its agreements, the tokens of a rate and the links of a device are shown.
-/

namespace RateTree

/-- The line of a node: its rates if it has an agreement. -/
def Node.line (node : Node) : String :=
  let heading := node.kind.name ++ " " ++ node.id.display ++ " " ++ node.service.name
  match node.sla with
  | some sla =>
    heading ++ "  cir " ++ toString sla.cir ++ " pir " ++ toString sla.pir ++ "  remaining " ++
      toString node.remaining
  | none => heading ++ "  (no SLA)"

/-- The line on an agreement. -/
def Sla.line (sla : Sla) : String :=
  "  " ++ sla.id.display ++ " " ++ sla.service.name ++ " vf " ++
    toString (sla.owner.vfNumber?.getD 0) ++ " cir " ++ toString sla.cir ++ " pir " ++
    toString sla.pir

namespace Tree

/-- The lines on a cluster and its leaves. -/
def clusterLines (tree : Tree) (cluster : Node) : List String :=
  ("  " ++ cluster.line) ::
    (tree.nodes.configuredChildren .leaf cluster.id).map fun leaf => "    " ++ leaf.line

/-- The lines on a root and all that is below it. -/
def rootLines (tree : Tree) (root : Node) : List String :=
  let clusters := (tree.nodes.nodes .cluster).filter fun node => node.parent == some root.id
  root.line :: clusters.flatMap tree.clusterLines

/-- The lines of the whole tree; leaves without an agreement are only counted. -/
def report (tree : Tree) : List String :=
  let idle := (tree.nodes.nodes .leaf).countP fun node => !node.configured
  (tree.nodes.nodes .root).flatMap tree.rootLines ++ [toString idle ++ " leaves without SLA"]

/-- The lines of the agreements of all leaves. -/
def slaReport (tree : Tree) : List String := tree.userSlas.map Sla.line

end Tree

/-- The line on the reply to a query. -/
def RateReply.line (kind : RateKind) (reply : RateReply) : String :=
  "  -> type " ++ Text.hexNumeral 2 reply.messageType ++ " data " ++
    Text.hexNumeral 8 reply.data ++ " (" ++ kind.name ++ " = " ++ toString reply.value ++ ")"

namespace Tokens

/-- A number, right-aligned in ten columns. -/
def column (value : UInt32) : String := Text.padLeft 10 ' ' (toString value.toNat)

/-- The lines of the tokens that a pair of rates is worth. -/
def report (tokens : Tokens) (service : Service) (cir pir ceiling : Nat) : List String :=
  let row (heading : String) (committed peak : UInt32) : String :=
    heading ++ column committed ++ "  " ++ column peak
  [service.name ++ " cir " ++ toString cir ++ " pir " ++ toString pir ++ "  (service max " ++
      toString ceiling ++ ")",
    "               cir         pir",
    row "PCIe in   " tokens.committed.pcieIn tokens.peak.pcieIn,
    row "PCIe out  " tokens.committed.pcieOut tokens.peak.pcieOut,
    row "Slice     " tokens.committed.slice tokens.peak.slice,
    row "AE        " tokens.committed.engine tokens.peak.engine]

end Tokens

/-- A link register that points somewhere. -/
structure Link where
  table : LinkTable
  index : Nat
  parent : Nat
deriving DecidableEq

namespace Link

/-- The line on a link. -/
def line (link : Link) : String :=
  link.table.name ++ "[" ++ Text.padLeft 2 ' ' (toString link.index) ++ "] -> " ++
    toString link.parent

/-- The link that a register holds, if it points somewhere. -/
def ofRegister? (table : LinkTable) (index : Nat) (value : UInt32) : Option Link :=
  if value = LinkTable.unlinked then none else some ⟨table, index, LinkTable.parentOf value⟩

/-- Every link register, table by table. -/
def registers : List (LinkTable × Nat) :=
  LinkTable.all.flatMap fun table =>
    (List.range table.length).map fun index => (table, index)

/-- The links that registers hold, up to the first register that cannot be read; with them, why it
cannot. -/
def read {σ : Type} [RegisterAccess σ] : List (LinkTable × Nat) → σ → List Link × Option Failure
  | [], _ => ([], none)
  | (table, index) :: rest, state =>
    match readRegister (table.offset index) state with
    | (.error failure, _) => ([], some failure)
    | (.ok value, after) =>
      let (links, failure) := read rest after
      ((ofRegister? table index value).toList ++ links, failure)

end Link

end RateTree
