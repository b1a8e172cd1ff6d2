import RateTree.Ledger

/-!
# Exact postings

The ledger cuts every budget off at zero and at the node's own committed rate, which would lose what
is cut off. A posting is exact if nothing is cut off, that is if what remains changes by the amount of
the posting; a list of postings is posted exactly if each of them meets its node and is exact when its
turn comes.
-/

namespace RateTree

/-- Whether a posting to a node is made in full, without anything being cut off. -/
def Posting.Exact (node : Node) : Posting → Prop
  | .debit cir => cir ≤ node.remaining
  | .credit cir => node.remaining + cir ≤ node.cir ∧ node.remaining + cir ≤ Word.max32
  | .adjust oldCir cir => cir ≤ node.remaining + oldCir ∧ node.remaining + oldCir ≤ node.cir + cir
  | .rebase oldCir cir _ => node.remaining ≤ oldCir ∧ oldCir ≤ cir + node.remaining

/-- By how much a posting is to change what remains. -/
def Posting.amount : Posting → Int
  | .debit cir => -cir
  | .credit cir => cir
  | .adjust oldCir cir => oldCir - cir
  | .rebase oldCir cir _ => cir - oldCir

/-- An exact posting changes what remains by its amount. -/
theorem Posting.Exact.remaining_eq {posting : Posting} {node : Node} (exactly : posting.Exact node) :
    ((posting.apply node).remaining : Int) = node.remaining + posting.amount := by
  cases posting with
  | debit cir | credit cir | adjust oldCir cir | rebase oldCir cir pir =>
      simp only [Exact] at exactly
      simp only [apply, Node.debit, Node.credit, Node.adjust, Node.rebase, amount]
      omega

/-- Where rates are words, no other posting changes what remains by its amount. -/
theorem Posting.exact_iff (posting : Posting) {node : Node} (small : node.cir ≤ Word.max32) :
    posting.Exact node ↔
      ((posting.apply node).remaining : Int) = node.remaining + posting.amount := by
  refine ⟨Exact.remaining_eq, fun changed => ?_⟩
  cases posting with
  | debit cir | credit cir | adjust oldCir cir | rebase oldCir cir pir =>
      simp only [apply, Node.debit, Node.credit, Node.adjust, Node.rebase, amount] at changed
      simp only [Exact]
      omega

/-- What a list of postings amounts to at one place. -/
def Posting.totalAt (place : NodeId) : List (NodeId × Posting) → Int
  | [] => 0
  | entry :: rest => (if entry.1 = place then entry.2.amount else 0) + totalAt place rest

theorem Posting.totalAt_singleton (place id : NodeId) (posting : Posting) :
    totalAt place [(id, posting)] = if id = place then posting.amount else 0 := Int.add_zero _

/-- A transfer changes nothing of a node but what remains of its budget. -/
def Posting.IsTransfer : Posting → Prop
  | .debit _ | .credit _ | .adjust _ _ => True
  | .rebase _ _ _ => False

theorem Posting.IsTransfer.apply_eq {posting : Posting} (transfer : posting.IsTransfer)
    (node : Node) :
    posting.apply node = { node with remaining := (posting.apply node).remaining } := by
  cases posting with
  | debit cir | credit cir | adjust oldCir cir => rfl
  | rebase oldCir cir pir => contradiction

/-- Whether each of the postings meets its node and is exact when it is made. -/
def NodeStore.PostedExactly (store : NodeStore) : List (NodeId × Posting) → Prop
  | [] => True
  | entry :: rest =>
    (∃ node, store.find? entry.1 = some node ∧ entry.2.Exact node) ∧
      (store.post entry).PostedExactly rest

theorem NodeStore.postedExactly_append {store : NodeStore} {first second : List (NodeId × Posting)} :
    store.PostedExactly (first ++ second) ↔
      store.PostedExactly first ∧ (store.postAll first).PostedExactly second := by
  induction first generalizing store with
  | nil => simp [PostedExactly, postAll]
  | cons entry rest ih =>
      simp only [List.cons_append, PostedExactly, ih, postAll, List.foldl_cons, and_assoc]

end RateTree
