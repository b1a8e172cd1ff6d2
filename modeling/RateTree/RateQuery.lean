import RateTree.Tree

/-!
# Rate queries

A function may ask for the committed or the peak rate of one of its banks. The reply carries the
rate above two bits, and in them the bank.
-/

namespace RateTree

/-- Which of the two rates is asked for. -/
inductive RateKind where
  | cir
  | pir
deriving DecidableEq

namespace RateKind

/-- The word for a rate. -/
def name : RateKind → String
  | .cir => "cir"
  | .pir => "pir"

/-- The type of messages that ask for a rate. -/
def requestType : RateKind → Nat
  | .cir => 0x0B
  | .pir => 0x0C

/-- The type of messages that answer with a rate. -/
def replyType : RateKind → Nat
  | .cir => 0x0D
  | .pir => 0x0E

end RateKind

/-- A query for a rate. -/
structure RateQuery where
  kind : RateKind
  vf : Nat
  bank : Nat
deriving DecidableEq

/-- A reply to a rate query. -/
structure RateReply where
  messageType : Nat
  data : Nat
deriving DecidableEq

/-- The query that a message of a function makes; its data is the bank. -/
def RateQuery.ofMessage (messageType vf data : Nat) : Except Error RateQuery :=
  if messageType = RateKind.cir.requestType then .ok ⟨.cir, vf, data⟩
  else if messageType = RateKind.pir.requestType then .ok ⟨.pir, vf, data⟩
  else .error (.invalidArgument (.notRateQuery messageType))

namespace RateReply

/-- The data of a reply: the low thirty bits of a rate above the bank of a ring. -/
def encode (rate ring banksPerVf : Nat) : Except Fault Nat := do
  let bank ← Word.rem ring banksPerVf
  return rate * 4 % 0x100000000 ||| bank

/-- The rate that a reply carries, above two bits that are not of the rate. -/
def value (reply : RateReply) : Nat := reply.data / 4

end RateReply

namespace Tree

/-- The agreement of the leaf that a ring feeds: the first whose function owns the ring and whose service
the bank carries. -/
def slaOfRing? (tree : Tree) (ring : Nat) : Option Sla :=
  let vf := ring / tree.config.banksPerVf
  let bank := ring % tree.config.banksPerVf
  ((tree.nodes.nodes .leaf).filterMap fun node => if node.configured then node.sla else none).find?
    fun sla => sla.owner.vfNumber? == some vf && (tree.config.bankUse bank).carries sla.service

/-- The rate of the leaf that a ring feeds, zero if there is none. -/
def rateForRing (tree : Tree) (ring : Nat) (kind : RateKind) : Nat :=
  match tree.slaOfRing? ring, kind with
  | some sla, .cir => sla.cir
  | some sla, .pir => sla.pir
  | none, _ => 0

/-- The reply to a query for a ring that the device has. -/
def reply (tree : Tree) (query : RateQuery) : Outcome RateReply := do
  let banks := tree.config.banksPerVf
  if tree.config.totalVfs ≤ query.vf ∨ banks ≤ query.bank then
    throw (.error (.invalidArgument (.rateQueryOutOfRange query.vf query.bank)))
  let ring ← ringNumber query.vf query.bank banks
  let data ← RateReply.encode (tree.rateForRing ring query.kind) ring banks
  return ⟨query.kind.replyType, data⟩

end Tree

end RateTree
