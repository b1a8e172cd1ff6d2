import Mathlib.Algebra.Group.Nat.Defs
import Mathlib.Data.List.Pairwise
import RateTree.Host.Kernel

/-!
# Journals of memory

What the journal of a process says about the memory that it let a device see: which pieces of it are in use,
which of them the device sees, and how each piece ends. The life of a mapping is what the journal has about
it: the memory is laid out and mapped; it is freed if the kernel refuses to map it or unmaps it, and kept
otherwise. A journal is kept if it consists of such lives, whose addresses lie one above the other; whatever
is said of the memory at any moment can then be read off single lives.
-/

namespace RateTree

namespace HostEvent

/-- Whether an event is about a mapping or the memory behind it. -/
def concerns (mapping : DmaMapping) : HostEvent → Bool
  | .laidOut piece | .freed piece => piece == mapping.piece
  | .called (.mapMemory other) _ => other == mapping
  | .called (.unmapMemory iova size) _ => iova == mapping.iova && size == mapping.size
  | .called _ _ | .lacked _ => false

/-- Whether an event is about some piece of memory. A request that the host refuses is about none. -/
def isMemory : HostEvent → Bool
  | .laidOut _ | .freed _ | .called (.mapMemory _) _ | .called (.unmapMemory _ _) _ => true
  | .called _ _ | .lacked _ => false

/-- The mapping that the kernel was asked for. -/
def offer? : HostEvent → Option DmaMapping
  | .called (.mapMemory mapping) _ => some mapping
  | _ => none

/-- Whether the kernel was asked to unmap a mapping, whatever it answered. -/
def unmaps (mapping : DmaMapping) : HostEvent → Bool
  | .called (.unmapMemory iova size) _ => iova == mapping.iova && size == mapping.size
  | _ => false

/-- The pieces in use after an event. -/
def lay : HostEvent → List HostPiece → List HostPiece
  | .laidOut piece, live => piece :: live
  | .freed piece, live => live.filter fun other => other != piece
  | .called _ _, live | .lacked _, live => live

/-- What the device sees after an event. -/
def see : HostEvent → List DmaMapping → List DmaMapping
  | .called (.mapMemory mapping) 0, seen => mapping :: seen
  | .called (.unmapMemory iova size) 0, seen =>
    seen.filter fun mapping => mapping.iova != iova || mapping.size != size
  | _, seen => seen

end HostEvent

/-! ## What a journal says -/

namespace HostEvent

variable {mapping : DmaMapping} {event : HostEvent}

theorem isMemory_of_concerns (own : event.concerns mapping) : event.isMemory := by
  cases event with
  | laidOut piece | freed piece => rfl
  | lacked size => contradiction
  | called call error =>
      cases call with
      | mapMemory | unmapMemory => rfl
      | _ => contradiction

section NoMemory

variable (aside : event.isMemory = false)

include aside

theorem not_concerns_of_not_memory : event.concerns mapping = false := by
  rw [Bool.eq_false_iff]
  intro own
  rw [isMemory_of_concerns own] at aside
  contradiction

theorem offer?_of_not_memory : event.offer? = none := by
  cases event with
  | laidOut piece | freed piece => contradiction
  | lacked size => rfl
  | called call error =>
      cases call with
      | mapMemory => contradiction
      | _ => rfl

theorem lay_of_not_memory (live : List HostPiece) : event.lay live = live := by
  cases event with
  | laidOut piece | freed piece => contradiction
  | lacked size | called call error => rfl

theorem see_of_not_memory (seen : List DmaMapping) : event.see seen = seen := by
  cases event with
  | laidOut piece | freed piece => contradiction
  | lacked size => rfl
  | called call error =>
      cases call with
      | mapMemory | unmapMemory => contradiction
      | _ => rfl

end NoMemory

end HostEvent

namespace Journal

open HostEvent

/-- The pieces of host memory in use after a journal. -/
def live (journal : List HostEvent) : List HostPiece := journal.foldr lay []

/-- What the device sees after a journal. -/
def seen (journal : List HostEvent) : List DmaMapping := journal.foldr see []

/-- Every mapping that the kernel was asked for, refused or not. -/
def offered (journal : List HostEvent) : List DmaMapping := journal.filterMap offer?

/-- What a journal has about a mapping. -/
def about (mapping : DmaMapping) (journal : List HostEvent) : List HostEvent :=
  journal.filter (concerns mapping)

variable {journal events : List HostEvent} {mapping other : DmaMapping} {event : HostEvent}

theorem see_of_failed {call : HostCall} {error : Nat} (failed : error ≠ 0) (before : List DmaMapping) :
    see (.called call error) before = before := by
  obtain ⟨number, rfl⟩ := Nat.exists_eq_succ_of_ne_zero failed
  cases call <;> rfl

theorem mem_see_iff {first second : List DmaMapping} (same : mapping ∈ first ↔ mapping ∈ second) :
    mapping ∈ see event first ↔ mapping ∈ see event second := by
  unfold see
  split <;> simp [same]

theorem mem_see_of_unconcerned {before : List DmaMapping} (other : event.concerns mapping = false) :
    mapping ∈ see event before ↔ mapping ∈ before := by
  unfold see
  split
  · have apart := beq_eq_false_iff_ne.1 other
    simp [Ne.symm apart]
  · simp only [concerns, Bool.and_eq_false_iff, beq_eq_false_iff_ne] at other
    simp only [List.mem_filter, Bool.or_eq_true, bne_iff_ne]
    rcases other with apart | apart
    · simp [Ne.symm apart]
    · simp [Ne.symm apart]
  · rfl

theorem mem_lay_iff {piece : HostPiece} {first second : List HostPiece}
    (same : piece ∈ first ↔ piece ∈ second) : piece ∈ lay event first ↔ piece ∈ lay event second := by
  cases event <;> simp [lay, same]

theorem mem_lay_of_unconcerned {before : List HostPiece} (other : event.concerns mapping = false) :
    mapping.piece ∈ lay event before ↔ mapping.piece ∈ before := by
  cases event with
  | lacked size | called call error => rfl
  | laidOut piece | freed piece =>
      have apart : mapping.piece ≠ piece := fun same => by simp [concerns, same] at other
      simp [lay, apart]

/-- What is seen of a mapping depends on its own life only. -/
theorem mem_seen_about : mapping ∈ seen (about mapping journal) ↔ mapping ∈ seen journal := by
  induction journal with
  | nil => rfl
  | cons event earlier ih =>
      by_cases own : event.concerns mapping
      · rw [about, List.filter_cons_of_pos own]
        exact mem_see_iff ih
      · rw [about, List.filter_cons_of_neg own]
        exact ih.trans (mem_see_of_unconcerned (by simpa using own)).symm

theorem mem_live_about : mapping.piece ∈ live (about mapping journal) ↔ mapping.piece ∈ live journal := by
  induction journal with
  | nil => rfl
  | cons event earlier ih =>
      by_cases own : event.concerns mapping
      · rw [about, List.filter_cons_of_pos own]
        exact mem_lay_iff ih
      · rw [about, List.filter_cons_of_neg own]
        exact ih.trans (mem_lay_of_unconcerned (by simpa using own)).symm

theorem mem_offered_of_mem_seen (mem : mapping ∈ seen journal) : mapping ∈ offered journal := by
  induction journal with
  | nil => cases mem
  | cons event earlier ih =>
      have later : mapping ∈ offered earlier → mapping ∈ offered (event :: earlier) :=
        fun old => ((List.sublist_cons_self event earlier).filterMap offer?).subset old
      change mapping ∈ see event (seen earlier) at mem
      unfold see at mem
      split at mem
      · rcases List.mem_cons.1 mem with rfl | old
        · exact List.mem_cons_self
        · exact later (ih old)
      · exact later (ih (List.mem_filter.1 mem).1)
      · exact later (ih mem)

theorem offered_append : offered (events ++ journal) = offered events ++ offered journal :=
  List.filterMap_append

theorem about_append : about mapping (events ++ journal) = about mapping events ++ about mapping journal :=
  List.filter_append ..

/-! ### Events that are about no memory -/

section NoMemory

variable (aside : event.isMemory = false)

include aside

theorem offered_cons_of_not_memory : offered (event :: journal) = offered journal :=
  List.filterMap_cons_none (offer?_of_not_memory aside)

theorem about_cons_of_not_memory : about mapping (event :: journal) = about mapping journal :=
  List.filter_cons_of_neg (by simp [not_concerns_of_not_memory aside])

end NoMemory

theorem empty_of_not_memory (asides : ∀ event ∈ journal, event.isMemory = false) :
    offered journal = [] ∧ seen journal = [] ∧ live journal = [] := by
  induction journal with
  | nil => exact ⟨rfl, rfl, rfl⟩
  | cons event earlier ih =>
      rw [List.forall_mem_cons] at asides
      rcases ih asides.2 with ⟨nothing_offered, nothing_seen, nothing_live⟩
      refine ⟨?_, ?_, ?_⟩
      · exact (offered_cons_of_not_memory asides.1).trans nothing_offered
      · exact (see_of_not_memory asides.1 _).trans nothing_seen
      · exact (lay_of_not_memory asides.1 _).trans nothing_live

/-! ## Lives -/

/-- The life, newest event first, of a mapping that is in use. -/
def inUse (mapping : DmaMapping) : List HostEvent :=
  [.called (.mapMemory mapping) 0, .laidOut mapping.piece]

/-- What can become of a mapping, newest event first. -/
inductive Life (mapping : DmaMapping) : List HostEvent → Prop where
  | used : Life mapping (inUse mapping)
  | refused {error : Nat} (failed : error ≠ 0) : Life mapping
      [.freed mapping.piece, .called (.mapMemory mapping) error, .laidOut mapping.piece]
  | released : Life mapping
      (.freed mapping.piece :: .called (.unmapMemory mapping.iova mapping.size) 0 :: inUse mapping)
  | leaked {error : Nat} (failed : error ≠ 0) : Life mapping
      (.called (.unmapMemory mapping.iova mapping.size) error :: inUse mapping)

namespace Life

/-- At every moment of its life, a mapping that the device sees has its memory. -/
theorem backed {part : List HostEvent} (life : Life mapping events) (within : part <:+ events)
    (mem : mapping ∈ seen part) : mapping.piece ∈ live part := by
  cases life with
  | used =>
      simp only [inUse, List.suffix_cons_iff, List.suffix_nil] at within
      rcases within with rfl | rfl | rfl <;> simp_all [seen, live, see, lay]
  | refused failed =>
      simp only [List.suffix_cons_iff, List.suffix_nil] at within
      rcases within with rfl | rfl | rfl | rfl <;> simp_all [seen, see]
  | released =>
      simp only [inUse, List.suffix_cons_iff, List.suffix_nil] at within
      rcases within with rfl | rfl | rfl | rfl | rfl <;> simp_all [seen, live, see, lay]
  | leaked failed =>
      simp only [inUse, List.suffix_cons_iff, List.suffix_nil] at within
      rcases within with rfl | rfl | rfl | rfl <;> simp_all [seen, live, see, lay]

theorem freed_iff (life : Life mapping events) :
    .freed mapping.piece ∈ events ↔
      (∃ error, error ≠ 0 ∧ .called (.mapMemory mapping) error ∈ events) ∨
        .called (.unmapMemory mapping.iova mapping.size) 0 ∈ events := by
  cases life with
  | used | released => simp [inUse]
  | refused failed => simpa using failed
  | leaked failed => simpa [inUse] using Ne.symm failed

theorem freed_once (life : Life mapping events) : events.count (.freed mapping.piece) ≤ 1 := by
  cases life <;> simp [inUse]

theorem unmapped_once (life : Life mapping events) : events.countP (unmaps mapping) ≤ 1 := by
  cases life <;> simp [inUse, unmaps]

end Life

/-! ## Journals that consist of lives -/

/-- Whether a mapping lies above another one, for the device and on the host. -/
structure Above (newer older : DmaMapping) : Prop where
  iova : older.iova + older.size ≤ newer.iova
  address : older.piece.address + older.size ≤ newer.piece.address

/-- Whether two mappings have neither an address nor memory in common. -/
structure Separate (mapping other : DmaMapping) : Prop where
  iova_ne : mapping.iova ≠ other.iova
  piece_ne : mapping.piece ≠ other.piece

instance : Std.Symm Separate where
  symm _ _ separate := ⟨separate.iova_ne.symm, separate.piece_ne.symm⟩

theorem Above.separate {newer older : DmaMapping} (above : Above newer older)
    (positive : 0 < older.size) : Separate newer older := by
  rcases above with ⟨iova_le, address_le⟩
  refine ⟨by omega, fun same => ?_⟩
  rw [same] at address_le
  omega

/-- Whether a mapping of whole pages lies below the addresses that are given next. -/
structure Placed (iova address : Nat) (mapping : DmaMapping) : Prop where
  aligned : pageSize ∣ mapping.iova
  positive : 0 < mapping.size
  iova_le : mapping.iova + mapping.size ≤ iova
  address_le : mapping.piece.address + mapping.size ≤ address

/-- Whether a journal consists of lives one above the other, below the addresses that are given next. -/
structure Kept (journal : List HostEvent) (iova address : Nat) : Prop where
  apart : (offered journal).Pairwise Above
  placed : ∀ mapping ∈ offered journal, Placed iova address mapping
  lives : ∀ mapping ∈ offered journal, Life mapping (about mapping journal)
  owned : ∀ event ∈ journal, event.isMemory → ∃ mapping ∈ offered journal, event.concerns mapping

/-- Whether a mapping is in use: the kernel was asked for it, and nothing ended it since. -/
structure InUse (journal : List HostEvent) (mapping : DmaMapping) : Prop where
  offered : mapping ∈ offered journal
  about_eq : about mapping journal = inUse mapping

theorem not_concerns (separate : Separate mapping other) (own : event.concerns mapping) :
    event.concerns other = false := by
  rcases separate with ⟨iova_ne, piece_ne⟩
  cases event with
  | lacked size => rfl
  | laidOut piece | freed piece =>
      simp only [concerns, beq_iff_eq] at own
      simpa [concerns, own] using piece_ne
  | called call error =>
      cases call with
      | mapMemory third =>
          simp only [concerns, beq_iff_eq] at own
          have ne : mapping ≠ other := fun same => iova_ne (same ▸ rfl)
          simpa [concerns, own] using ne
      | unmapMemory start size =>
          simp only [concerns, Bool.and_eq_true, beq_iff_eq] at own
          simp [concerns, own.1, iova_ne]
      | _ => rfl

theorem about_eq_nil (separate : Separate mapping other)
    (own : ∀ event ∈ events, event.concerns mapping) : about other events = [] := by
  rw [about, List.filter_eq_nil_iff]
  intro event mem
  simp [not_concerns separate (own event mem)]

theorem about_eq_self (own : ∀ event ∈ events, event.concerns mapping) : about mapping events = events :=
  List.filter_eq_self.2 own

namespace Kept

variable {iova address : Nat}

theorem mono {later : Nat} (kept : Kept journal iova address) (le : iova ≤ later) :
    Kept journal later address where
  apart := kept.apart
  placed older mem :=
    have placed := kept.placed older mem
    { placed with iova_le := Nat.le_trans placed.iova_le le }
  lives := kept.lives
  owned := kept.owned

theorem above_or_above (kept : Kept journal iova address) (first : mapping ∈ offered journal)
    (second : other ∈ offered journal) (ne : mapping ≠ other) :
    Above mapping other ∨ Above other mapping := by
  let Ordered (one two : DmaMapping) : Prop := Above one two ∨ Above two one
  have : Std.Symm Ordered := ⟨fun _ _ => Or.symm⟩
  have ordered : (offered journal).Pairwise Ordered := kept.apart.imp .inl
  exact ordered.forall first second ne

theorem separate (kept : Kept journal iova address) (first : mapping ∈ offered journal)
    (second : other ∈ offered journal) (ne : mapping ≠ other) : Separate mapping other := by
  rcases kept.above_or_above first second ne with above | above
  · exact above.separate (kept.placed other second).positive
  · exact Std.Symm.symm _ _ (above.separate (kept.placed mapping first).positive)

theorem above (kept : Kept journal iova address) (mem : other ∈ offered journal)
    (iova_le : iova ≤ mapping.iova) (address_le : address ≤ mapping.piece.address) :
    Above mapping other := by
  have placed := kept.placed other mem
  exact ⟨Nat.le_trans placed.iova_le iova_le, Nat.le_trans placed.address_le address_le⟩

theorem separate_of_above (kept : Kept journal iova address) (mem : other ∈ offered journal)
    (iova_le : iova ≤ mapping.iova) (address_le : address ≤ mapping.piece.address) :
    Separate mapping other :=
  (kept.above mem iova_le address_le).separate (kept.placed other mem).positive

theorem about_eq_nil_of_above (kept : Kept journal iova address) (iova_le : iova ≤ mapping.iova)
    (address_le : address ≤ mapping.piece.address) : about mapping journal = [] := by
  rw [about, List.filter_eq_nil_iff]
  intro event mem concerned
  rcases kept.owned event mem (isMemory_of_concerns concerned) with ⟨older, older_mem, own⟩
  have separate := kept.separate_of_above older_mem iova_le address_le
  rw [not_concerns (Std.Symm.symm _ _ separate) own] at concerned
  contradiction

/-- A mapping above all others is in the journal as soon as it has a life. -/
theorem offer {iova' address' : Nat} (kept : Kept journal iova address)
    (own : ∀ event ∈ events, event.concerns mapping) (offered_eq : offered events = [mapping])
    (life : Life mapping events) (placed : Placed iova' address' mapping)
    (iova_le : iova ≤ mapping.iova) (address_le : address ≤ mapping.piece.address) :
    Kept (events ++ journal) iova' address' := by
  have mem_iff {other : DmaMapping} :
      other ∈ offered (events ++ journal) ↔ other = mapping ∨ other ∈ offered journal := by
    rw [offered_append, offered_eq, List.singleton_append, List.mem_cons]
  constructor
  · rw [offered_append, offered_eq]
    exact List.pairwise_cons.2 ⟨fun older mem => kept.above mem iova_le address_le, kept.apart⟩
  · intro other mem
    rcases mem_iff.1 mem with rfl | old
    · exact placed
    · have was := kept.placed other old
      have fits_iova := placed.iova_le
      have fits_address := placed.address_le
      exact ⟨was.aligned, was.positive, by have := was.iova_le; omega,
        by have := was.address_le; omega⟩
  · -- The new life stands alone: no older event is about it, and none of its own about an older mapping.
    intro other mem
    rcases mem_iff.1 mem with rfl | old
    · have nothing := kept.about_eq_nil_of_above iova_le address_le
      rw [about_append, nothing, List.append_nil, about_eq_self own]
      exact life
    · rw [about_append, about_eq_nil (kept.separate_of_above old iova_le address_le) own]
      exact kept.lives other old
  · intro event mem memory
    rcases List.mem_append.1 mem with new | old
    · exact ⟨mapping, mem_iff.2 (.inl rfl), own event new⟩
    · rcases kept.owned event old memory with ⟨older, older_mem, owns⟩
      exact ⟨older, mem_iff.2 (.inr older_mem), owns⟩

/-- The life of a mapping in use goes on with events about it. -/
theorem retire (kept : Kept journal iova address) (inUse : InUse journal mapping)
    (own : ∀ event ∈ events, event.concerns mapping) (offered_eq : offered events = [])
    (life : Life mapping (events ++ Journal.inUse mapping)) :
    Kept (events ++ journal) iova address := by
  have same : offered (events ++ journal) = offered journal := by
    rw [offered_append, offered_eq, List.nil_append]
  constructor
  · exact same ▸ kept.apart
  · exact same ▸ kept.placed
  · rw [same]
    intro other mem
    rw [about_append]
    by_cases self : other = mapping
    · subst self
      rw [about_eq_self own, inUse.about_eq]
      exact life
    · have separate := kept.separate inUse.offered mem (Ne.symm self)
      rw [about_eq_nil separate own]
      exact kept.lives other mem
  · rw [same]
    intro event mem memory
    rcases List.mem_append.1 mem with new | old
    · exact ⟨mapping, inUse.offered, own event new⟩
    · exact kept.owned event old memory

theorem nil : Kept [] iova address where
  apart := .nil
  placed := by simp [offered]
  lives := by simp [offered]
  owned := by simp

/-- An event that is about no memory leaves every life as it is. -/
theorem cons (kept : Kept journal iova address) (aside : event.isMemory = false) :
    Kept (event :: journal) iova address := by
  have same : offered (event :: journal) = offered journal := offered_cons_of_not_memory aside
  constructor
  · exact same ▸ kept.apart
  · exact same ▸ kept.placed
  · rw [same]
    intro mapping mem
    rw [about_cons_of_not_memory aside]
    exact kept.lives mapping mem
  · rw [same]
    intro event mem memory
    rcases List.mem_cons.1 mem with rfl | old
    · rw [aside] at memory
      contradiction
    · exact kept.owned event old memory

theorem of_not_memory (asides : ∀ event ∈ journal, event.isMemory = false) :
    Kept journal iova address := by
  induction journal with
  | nil => exact nil
  | cons event earlier ih =>
      rw [List.forall_mem_cons] at asides
      exact (ih asides.2).cons asides.1

end Kept

theorem Kept.inUse {iova address : Nat} (kept : Kept journal iova address) (iova_le : iova ≤ mapping.iova)
    (address_le : address ≤ mapping.piece.address) : InUse (inUse mapping ++ journal) mapping where
  offered := List.mem_cons_self
  about_eq := by
    rw [about_append, kept.about_eq_nil_of_above iova_le address_le, List.append_nil]
    exact about_eq_self (by simp [Journal.inUse, concerns])

theorem InUse.cons (inUse : InUse journal mapping) (aside : event.isMemory = false) :
    InUse (event :: journal) mapping where
  offered := by
    rw [offered_cons_of_not_memory aside]
    exact inUse.offered
  about_eq := by
    rw [about_cons_of_not_memory aside]
    exact inUse.about_eq

theorem InUse.append (inUse : InUse journal other) (separate : Separate mapping other)
    (own : ∀ event ∈ events, event.concerns mapping) : InUse (events ++ journal) other where
  offered := by
    rw [offered_append]
    exact List.mem_append_right _ inUse.offered
  about_eq := by
    rw [about_append, about_eq_nil separate own]
    exact inUse.about_eq

/-! ## What the life of each mapping says of them all -/

/-- Whether memory is safe from the device throughout a journal. -/
structure Safe (journal : List HostEvent) : Prop where
  /-- No two ranges that the kernel was asked to map have an address in common. -/
  apart : (offered journal).Pairwise fun newer older => older.iova + older.size ≤ newer.iova
  placed : ∀ mapping ∈ offered journal,
    pageSize ∣ mapping.iova ∧ 0 < mapping.size ∧ mapping.iova + mapping.size < 2 ^ 64
  /-- At every moment, what the device sees is memory that is not freed. -/
  backed : ∀ moment, moment <:+ journal → ∀ mapping ∈ seen moment, mapping.piece ∈ live moment
  unmapped_once : ∀ mapping ∈ offered journal, journal.countP (unmaps mapping) ≤ 1
  freed_once : ∀ mapping ∈ offered journal, journal.count (.freed mapping.piece) ≤ 1
  freed_iff : ∀ mapping ∈ offered journal, .freed mapping.piece ∈ journal ↔
    (∃ error, error ≠ 0 ∧ .called (.mapMemory mapping) error ∈ journal) ∨
      .called (.unmapMemory mapping.iova mapping.size) 0 ∈ journal
  /-- No other memory is laid out or freed, and nothing else is unmapped. -/
  owned : ∀ event ∈ journal, event.isMemory → ∃ mapping ∈ offered journal, event.concerns mapping

theorem mem_about_iff : event ∈ about mapping journal ↔ event ∈ journal ∧ event.concerns mapping :=
  List.mem_filter

theorem Kept.safe {iova address : Nat} (kept : Kept journal iova address) (bounded : iova < 2 ^ 64) :
    Safe journal where
  apart := kept.apart.imp fun above => above.iova
  placed mapping mem :=
    have placed := kept.placed mapping mem
    ⟨placed.aligned, placed.positive, Nat.lt_of_le_of_lt placed.iova_le bounded⟩
  backed := by
    intro moment within mapping mem
    have was : mapping ∈ offered journal := by
      have older := mem_offered_of_mem_seen mem
      exact (within.sublist.filterMap offer?).subset older
    rw [← mem_seen_about] at mem
    rw [← mem_live_about]
    exact (kept.lives mapping was).backed (within.filter _) mem
  unmapped_once := by
    intro mapping mem
    have once := (kept.lives mapping mem).unmapped_once
    rw [about, List.countP_filter] at once
    refine Nat.le_trans (Nat.le_of_eq (List.countP_congr ?_)) once
    intro event _
    cases event with
    | laidOut piece | lacked size | freed piece => simp [unmaps]
    | called call error => cases call <;> simp [unmaps, concerns]
  freed_once := by
    intro mapping mem
    have once := (kept.lives mapping mem).freed_once
    rwa [about, List.count_filter (by simp [concerns])] at once
  freed_iff := by
    intro mapping mem
    have ended := (kept.lives mapping mem).freed_iff
    simpa [mem_about_iff, concerns] using ended
  owned := kept.owned

end Journal

end RateTree
