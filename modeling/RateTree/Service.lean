/-!
# Services

The accelerator services whose traffic is rate limited, and tables with one entry for each of them.
-/

namespace RateTree

/-- A service of the accelerator: asymmetric crypto, symmetric crypto, or compression. -/
inductive Service where
  | asym
  | sym
  | dc
deriving DecidableEq

namespace Service

/-- Every service, in the order of its index. -/
def all : List Service := [.asym, .sym, .dc]

/-- The number that stands for a service in admin requests. -/
def index : Service → Nat
  | .asym => 0
  | .sym => 1
  | .dc => 2

/-- The service of a number. -/
def ofIndex? : Nat → Option Service
  | 0 => some .asym
  | 1 => some .sym
  | 2 => some .dc
  | _ => none

theorem ofIndex?_index (service : Service) : ofIndex? service.index = some service := by
  cases service <;> rfl

/-- The word for a service. -/
def name : Service → String
  | .asym => "asym"
  | .sym => "sym"
  | .dc => "dc"

/-- The service that a word in lower case means; each service has several. -/
def ofWord? : String → Option Service
  | "asym" | "pke" => some .asym
  | "sym" | "cy" => some .sym
  | "dc" | "comp" | "compression" => some .dc
  | _ => none

end Service

/-- A table with one entry for each service. -/
structure PerService (α : Type) where
  asym : α
  sym : α
  dc : α
deriving DecidableEq

namespace PerService

variable {α : Type}

/-- The same entry for every service. -/
def uniform (entry : α) : PerService α := ⟨entry, entry, entry⟩

/-- The entry for a service. -/
def get (table : PerService α) : Service → α
  | .asym => table.asym
  | .sym => table.sym
  | .dc => table.dc

/-- The table with another entry for one service. -/
def set (table : PerService α) (service : Service) (entry : α) : PerService α :=
  match service with
  | .asym => { table with asym := entry }
  | .sym => { table with sym := entry }
  | .dc => { table with dc := entry }

@[simp]
theorem get_uniform (entry : α) (service : Service) : (uniform entry).get service = entry := by
  cases service <;> rfl

theorem get_set (table : PerService α) (service other : Service) (entry : α) :
    (table.set service entry).get other = if other = service then entry else table.get other := by
  cases service <;> cases other <;> rfl

end PerService

end RateTree
