import RateTree.Proofs.Postings
import RateTree.Proofs.WellFormed

/-!
# The ledger in words

Rates are words of 32 bits, and each posting is worked out in words in a way of its own: a debit by
a subtraction that is refused below zero, a credit by an addition that stops at the largest word, a
rebase by two subtractions that stop at zero, and the adjustment of a child's rate in signed words of
64 bits, clamped in the end. None of them overflows, and all come to what the ledger says of numbers
without a width, which keeps every budget between zero and the committed rate of its node. Where
nothing is cut off, an adjustment is a credit and a debit. The test for a child's new rates refuses
exactly what would be cut off at zero, and the test of a node's own new rate accepts exactly what
leaves its children what they were promised. All of this holds of every node of a well-formed tree.
-/

namespace RateTree

namespace Word

/-- A number as an unsigned word of the given width, if it fits. -/
def unsigned? (width : Nat) (value : Int) : Option Nat :=
  if 0 ≤ value ∧ value < size width then some value.toNat else none

/-- A number as a signed word of the given width, if it fits. -/
def signed? (width : Nat) (value : Int) : Option Int :=
  if -size (width - 1) ≤ value ∧ value < size (width - 1) then some value else none

/-- The number nearest to the given one between two bounds that are in order. -/
def clamp? (low high value : Int) : Option Int :=
  if low ≤ high then some (if value < low then low else if high < value then high else value)
  else none

theorem size_32 : size 32 = max32 + 1 := by decide

theorem unsigned?_natCast {width value : Nat} (fits : value < size width) :
    unsigned? width value = some value := by
  rw [unsigned?, if_pos (by omega), Int.toNat_natCast]

/-- Sums of a few words of 32 bits are far from the limits of 64. -/
theorem signed?_of_small {value : Int} (above : -(2 * max32 : Int) ≤ value)
    (below : value ≤ 2 * max32) : signed? 64 value = some value := by
  have limit : (2 * max32 : Int) < size (64 - 1) := by decide
  rw [signed?, if_pos]
  omega

/-- A subtraction of words that stops at zero. -/
theorem unsigned?_sub_getD {left right : Nat} (small : left ≤ max32) :
    (unsigned? 32 (left - right)).getD 0 = left - right := by
  rw [unsigned?, size_32]
  split
  · simp only [Option.getD_some]
    omega
  · simp only [Option.getD_none]
    omega

/-- An addition of words that stops at the largest one. -/
theorem unsigned?_add_getD {left right : Nat} :
    (unsigned? 32 (left + right)).getD max32 = min (left + right) max32 := by
  rw [unsigned?, size_32]
  split
  · simp only [Option.getD_some]
    omega
  · simp only [Option.getD_none]
    omega

theorem clamp?_sub (left right ceiling : Nat) :
    clamp? 0 ceiling (left - right) = some ((min (left - right) ceiling : Nat) : Int) := by
  rw [clamp?, if_pos (by omega), Option.some.injEq]
  split
  · omega
  · split <;> omega

end Word

namespace Node

/-- Whether the rates of a node's budget are words, and no more remains than was committed. -/
structure InWords (node : Node) : Prop where
  remaining_le : node.remaining ≤ node.cir
  cir_le : node.cir ≤ Word.max32

/-- A debit in words of 32 bits, cut off at zero. -/
def debitInWords (parent : Node) (cir : Nat) : Node :=
  { parent with remaining := (Word.unsigned? 32 (parent.remaining - cir)).getD 0 }

/-- A credit in words of 32 bits, cut off at their largest value and then at the committed rate. -/
def creditInWords (parent : Node) (cir : Nat) : Node :=
  let refunded := (Word.unsigned? 32 (parent.remaining + cir)).getD Word.max32
  { parent with remaining := if parent.cir < refunded then parent.cir else refunded }

/-- What an adjustment comes to before it is clamped. -/
def movedInWords (parent : Node) (oldCir cir : Nat) : Option Int := do
  let raised ← Word.signed? 64 (parent.remaining + oldCir)
  Word.signed? 64 (raised - cir)

/-- An adjustment in signed words of 64 bits, clamped between zero and the committed rate. -/
def adjustInWords (parent : Node) (oldCir cir : Nat) : Option Node := do
  let moved ← parent.movedInWords oldCir cir
  let kept ← Word.clamp? 0 parent.cir moved
  return { parent with remaining := (Word.unsigned? 32 kept).getD parent.cir }

/-- A new committed rate in words of 32 bits, both differences cut off at zero. -/
def rebaseInWords (node : Node) (oldCir cir pir : Nat) : Node :=
  let promised := (Word.unsigned? 32 (oldCir - node.remaining)).getD 0
  { node with remaining := (Word.unsigned? 32 (cir - promised)).getD 0, peak := pir }

/-- The test for new rates of a child, with the sum in words of 64 bits. -/
def canAffordUpdateInWords (parent child : Node) (cir pir : Nat) : Option Bool := do
  let pool ← Word.unsigned? 64 (parent.remaining + child.cir)
  return cir ≤ pool && pir ≤ parent.peak

/-- Whether an adjustment is cut off at zero. -/
def CutAtZero (parent : Node) (oldCir cir : Nat) : Prop :=
  ∃ moved, parent.movedInWords oldCir cir = some moved ∧ moved < 0

end Node

namespace Posting

/-- Whether the rates of a posting are words. -/
def InWords : Posting → Prop
  | .debit cir | .credit cir => cir ≤ Word.max32
  | .adjust oldCir cir => oldCir ≤ Word.max32 ∧ cir ≤ Word.max32
  | .rebase oldCir cir pir => oldCir ≤ Word.max32 ∧ cir ≤ Word.max32 ∧ pir ≤ Word.max32

/-- A posting as it is worked out in words; there is no result if a step overflows. -/
def applyInWords : Posting → Node → Option Node
  | .debit cir, node => some (node.debitInWords cir)
  | .credit cir, node => some (node.creditInWords cir)
  | .adjust oldCir cir, node => node.adjustInWords oldCir cir
  | .rebase oldCir cir pir, node => some (node.rebaseInWords oldCir cir pir)

/-- The committed rate that a node has with a posting made: a rebase comes with a new one. -/
def committed : Posting → Node → Nat
  | .debit _, node | .credit _, node | .adjust _ _, node => node.cir
  | .rebase _ cir _, _ => cir

end Posting

namespace Node

variable {node : Node} {oldCir cir : Nat}

theorem InWords.remaining_small (words : node.InWords) : node.remaining ≤ Word.max32 :=
  Nat.le_trans words.remaining_le words.cir_le

theorem debitInWords_eq (words : node.InWords) (cir : Nat) :
    node.debitInWords cir = node.debit cir := by
  rw [debitInWords, Word.unsigned?_sub_getD words.remaining_small, debit]

theorem creditInWords_eq (words : node.InWords) (cir : Nat) :
    node.creditInWords cir = node.credit cir := by
  have cir_le := words.cir_le
  -- A sum that stops at the largest word is above the committed rate whenever the sum itself is.
  have same : (if node.cir < min (node.remaining + cir) Word.max32 then node.cir
      else min (node.remaining + cir) Word.max32) = min (node.remaining + cir) node.cir := by
    split <;> omega
  simp only [creditInWords, Word.unsigned?_add_getD, same, credit]

theorem movedInWords_eq (words : node.InWords) (old_le : oldCir ≤ Word.max32)
    (cir_le : cir ≤ Word.max32) :
    node.movedInWords oldCir cir = some (node.remaining + oldCir - cir : Int) := by
  have remaining_le := words.remaining_small
  have raised : Word.signed? 64 (node.remaining + oldCir) = some (node.remaining + oldCir : Int) := by
    apply Word.signed?_of_small
    · omega
    · omega
  rw [movedInWords, raised, Option.bind_eq_bind, Option.bind_some]
  apply Word.signed?_of_small
  · omega
  · omega

theorem adjustInWords_eq (words : node.InWords) (old_le : oldCir ≤ Word.max32)
    (cir_le : cir ≤ Word.max32) :
    node.adjustInWords oldCir cir = some (node.adjust oldCir cir) := by
  have fits : min (node.remaining + oldCir - cir) node.cir < Word.size 32 := by
    have ceiling_le := words.cir_le
    have largest := Word.size_32
    omega
  have kept := Word.clamp?_sub (node.remaining + oldCir) cir node.cir
  rw [Int.natCast_add] at kept
  simp only [adjustInWords, movedInWords_eq words old_le cir_le, kept, Option.bind_eq_bind,
    Option.bind_some, Word.unsigned?_natCast fits, Option.getD_some]
  rfl

theorem rebaseInWords_eq (old_le : oldCir ≤ Word.max32) (cir_le : cir ≤ Word.max32) (pir : Nat) :
    node.rebaseInWords oldCir cir pir = node.rebase oldCir cir pir := by
  simp only [rebaseInWords, Word.unsigned?_sub_getD old_le, Word.unsigned?_sub_getD cir_le, rebase]

theorem canAffordUpdateInWords_eq {child : Node} (words : node.InWords)
    (child_le : child.cir ≤ Word.max32) (cir pir : Nat) :
    node.canAffordUpdateInWords child cir pir = some (node.canAffordUpdate child cir pir) := by
  have remaining_le := words.remaining_small
  have roomy : 2 * Word.max32 < Word.size 64 := by decide
  have fits : node.remaining + child.cir < Word.size 64 := by omega
  rw [canAffordUpdateInWords, ← Int.natCast_add, Word.unsigned?_natCast fits]
  rfl

theorem cutAtZero_iff (words : node.InWords) (old_le : oldCir ≤ Word.max32)
    (cir_le : cir ≤ Word.max32) : node.CutAtZero oldCir cir ↔ node.remaining + oldCir < cir := by
  simp only [CutAtZero, movedInWords_eq words old_le cir_le, Option.some.injEq, exists_eq_left']
  omega

/-- The test for new rates of a child refuses what would be cut off at zero or exceed the peak. -/
theorem canAffordUpdate_eq_false {child : Node} (words : node.InWords)
    (child_le : child.cir ≤ Word.max32) (cir_le : cir ≤ Word.max32) {pir : Nat} :
    node.canAffordUpdate child cir pir = false ↔
      node.CutAtZero child.cir cir ∨ node.peak < pir := by
  rw [cutAtZero_iff words child_le cir_le, canAffordUpdate, Bool.and_eq_false_iff,
    decide_eq_false_iff_not, decide_eq_false_iff_not, Nat.not_le, Nat.not_le]

/-- An adjustment is a credit and a debit if the credit is not cut off. -/
theorem adjust_eq_debit_credit (room : node.remaining + oldCir ≤ node.cir) :
    node.adjust oldCir cir = (node.credit oldCir).debit cir := by
  have same : min (node.remaining + oldCir - cir) node.cir =
      min (node.remaining + oldCir) node.cir - cir := by
    omega
  rw [adjust, credit, debit, same]

end Node

namespace Posting

variable {node : Node} (posting : Posting)

theorem applyInWords_eq (words : node.InWords) (small : posting.InWords) :
    posting.applyInWords node = some (posting.apply node) := by
  cases posting with
  | debit cir => exact congrArg some (node.debitInWords_eq words cir)
  | credit cir => exact congrArg some (node.creditInWords_eq words cir)
  | adjust oldCir cir => exact node.adjustInWords_eq words small.1 small.2
  | rebase oldCir cir pir => exact congrArg some (node.rebaseInWords_eq small.1 small.2.1 pir)

theorem remaining_apply_le (within : node.remaining ≤ node.cir) :
    (posting.apply node).remaining ≤ posting.committed node := by
  cases posting with
  | debit cir => exact Nat.le_trans (Nat.sub_le _ _) within
  | credit cir => exact Nat.min_le_right _ _
  | adjust oldCir cir => exact Nat.min_le_right _ _
  | rebase oldCir cir pir => exact Nat.sub_le _ _

/-- A posting that leaves a node its committed rate can be followed by another one. -/
theorem inWords_apply (words : node.InWords) (kept : posting.committed node = node.cir) :
    (posting.apply node).InWords := by
  have within : (posting.apply node).remaining ≤ node.cir :=
    kept ▸ posting.remaining_apply_le words.remaining_le
  cases posting with
  | debit cir | credit cir | adjust oldCir cir | rebase oldCir cir pir =>
      exact ⟨within, words.cir_le⟩

/-- An adjustment is a credit and a debit in words too: what is credited fits the committed rate, so
that the sum of 32 bits does not stop short of the one of 64. -/
theorem adjust_inWords_eq_bind (words : node.InWords) {oldCir cir : Nat}
    (room : node.remaining + oldCir ≤ node.cir) (left : cir ≤ node.remaining + oldCir) :
    (adjust oldCir cir).applyInWords node =
      ((credit oldCir).applyInWords node).bind (debit cir).applyInWords := by
  have small := words.cir_le
  have old_le : oldCir ≤ Word.max32 := by omega
  have cir_le : cir ≤ Word.max32 := by omega
  have credited : (node.credit oldCir).InWords := (credit oldCir).inWords_apply words rfl
  calc (adjust oldCir cir).applyInWords node
      = some (node.adjust oldCir cir) :=
        (adjust oldCir cir).applyInWords_eq words ⟨old_le, cir_le⟩
    _ = some ((node.credit oldCir).debit cir) := congrArg some (Node.adjust_eq_debit_credit room)
    _ = (debit cir).applyInWords (node.credit oldCir) :=
        ((debit cir).applyInWords_eq credited cir_le).symm
    _ = ((credit oldCir).applyInWords node).bind (debit cir).applyInWords := by
        rw [(credit oldCir).applyInWords_eq words old_le]
        rfl

end Posting

namespace Node

variable {node : Node}

/-- A new rate covers what a node has promised if and only if a rebase to it leaves that promised. -/
theorem coversChildren_iff (within : node.remaining ≤ node.cir) (cir pir : Nat) :
    node.coversChildren cir = true ↔
      (node.rebase node.cir cir pir).remaining + node.promised = cir := by
  simp only [coversChildren, decide_eq_true_eq]
  simp only [rebase, promised]
  omega

/-- The ledger agrees in words: no posting overflows, each comes to what the ledger says, what remains
stays a part of the committed rate, and the exact postings are those that lose nothing. Where nothing
is cut off, an adjustment is a credit and a debit and moves what remains by the difference. The test
for new rates of a child refuses what an adjustment would cut off at zero, and a new rate that covers
what was promised leaves it promised. -/
theorem ledger_agrees_in_words {node : Node} (words : node.InWords) :
    (∀ posting : Posting, posting.InWords →
      posting.applyInWords node = some (posting.apply node) ∧
        (posting.apply node).remaining ≤ posting.committed node ∧
        (posting.Exact node ↔
          ((posting.apply node).remaining : Int) = node.remaining + posting.amount)) ∧
    (∀ oldCir cir, node.remaining + oldCir ≤ node.cir → cir ≤ node.remaining + oldCir →
      (Posting.adjust oldCir cir).applyInWords node =
          ((Posting.credit oldCir).applyInWords node).bind (Posting.debit cir).applyInWords ∧
        node.adjust oldCir cir = (node.credit oldCir).debit cir ∧
        ((node.adjust oldCir cir).remaining : Int) = node.remaining + (oldCir - cir)) ∧
    (∀ (child : Node) (cir pir : Nat), child.cir ≤ Word.max32 → cir ≤ Word.max32 →
      node.canAffordUpdateInWords child cir pir = some (node.canAffordUpdate child cir pir) ∧
        (node.canAffordUpdate child cir pir = false ↔
          node.CutAtZero child.cir cir ∨ node.peak < pir)) ∧
    ∀ cir pir, node.coversChildren cir = true ↔
      (node.rebase node.cir cir pir).remaining + node.promised = cir := by
  refine ⟨?_, ?_, ?_, ?_⟩
  · intro posting small
    exact ⟨posting.applyInWords_eq words small, posting.remaining_apply_le words.remaining_le,
      posting.exact_iff words.cir_le⟩
  · intro oldCir cir room left
    have exactly : (Posting.adjust oldCir cir).Exact node := ⟨left, by omega⟩
    exact ⟨Posting.adjust_inWords_eq_bind words room left, adjust_eq_debit_credit room,
      exactly.remaining_eq⟩
  · intro child cir pir child_le cir_le
    exact ⟨canAffordUpdateInWords_eq words child_le cir pir,
      canAffordUpdate_eq_false words child_le cir_le⟩
  · exact coversChildren_iff words.remaining_le

/-- A cluster with the largest committed rate, of which it has promised 1. -/
def widest : Node :=
  let id := NodeId.ofSlot .cluster 0
  ((fresh id .cluster .sym).bind (.cluster id .sym Word.max32 Word.max32) none).debit 1

/-- At the widest node, sums of two rates need more than 32 bits. -/
theorem ledger_agrees_in_words_at_widest :
    widest.InWords ∧
      (Posting.credit Word.max32).applyInWords widest = some (widest.credit Word.max32) ∧
      (Posting.adjust Word.max32 0).applyInWords widest = some (widest.adjust Word.max32 0) ∧
      (widest.adjust Word.max32 0).remaining ≤ Word.max32 ∧
      widest.adjust 1 Word.max32 = (widest.credit 1).debit Word.max32 ∧
      widest.CutAtZero 0 Word.max32 ∧
      (widest.rebase Word.max32 1 1).remaining + widest.promised = 1 := by
  have words : widest.InWords := ⟨by decide, by decide⟩
  rcases ledger_agrees_in_words words with ⟨posted, moved, tested, covered⟩
  rcases posted (.credit Word.max32) (Nat.le_refl _) with ⟨credited, -⟩
  rcases posted (.adjust Word.max32 0) ⟨by decide, by decide⟩ with ⟨adjusted, within, -⟩
  rcases moved 1 Word.max32 (by decide) (by decide) with ⟨-, same, -⟩
  rcases tested (fresh (.ofSlot .leaf 0) .leaf .sym) Word.max32 0 (by decide) (by decide) with
    ⟨-, refused⟩
  have cut : widest.CutAtZero 0 Word.max32 := (refused.1 (by decide)).resolve_right (by decide)
  exact ⟨words, credited, adjusted, within, same, cut, (covered 1 1).1 (by decide)⟩

end Node

/-- Every node of a well-formed tree keeps its budget in words. -/
theorem Tree.WellFormed.inWords {tree : Tree} (sound : tree.WellFormed) {id : NodeId} {node : Node}
    (found : tree.nodes.find? id = some node) : node.InWords := by
  by_cases bound : node.configured = true
  · have balanced := sound.balanced id node found bound
    exact ⟨by omega, sound.cir_le_max32 found bound⟩
  · have vacant : node.configured = false := by simpa using bound
    rw [sound.vacant id node found vacant]
    exact ⟨Nat.le_refl 0, Nat.zero_le _⟩

end RateTree
