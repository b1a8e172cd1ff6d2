import RateTree.Admin.Command
import RateTree.HostError
import RateTree.NodeId
import RateTree.PciAddress
import RateTree.Service

/-!
# Errors

Every reason for which an operation is refused, grouped by the class it is reported under. A class
has one inductive type of causes; `Error.message` gives the wording of each.
-/

namespace RateTree

/-- The constants of a device profile that must not be zero. -/
inductive ProfileConstant where
  | scanInterval
  | pcieScale
  | sliceReference
  | clockFrequency
deriving DecidableEq

/-- How errors speak of a constant. -/
def ProfileConstant.name : ProfileConstant → String
  | .scanInterval => "scan_interval"
  | .pcieScale => "pcie scale factor"
  | .sliceReference => "slice_reference"
  | .clockFrequency => "clock_frequency"

/-- What is wrong with a caller's argument. -/
inductive ArgumentError where
  | unknownService (word : String)
  | unknownNodeKind (word : String)
  | addressOutOfRange (address : PciAddress)
  | addressNotVf (address : PciAddress)
  | zeroConstant (which : ProfileConstant)
  | zeroThroughput (service : Service)
  | correctionExceedsSlices
  | tooManyServices
  | serviceEnabledTwice (service : Service)
  | unsupportedBanks (banks : Nat)
  | moreVfsThanSupported
  | tooManyLeaves (leaves : Nat)
  | duplicateRoot (service : Service)
  | unknownNodeId (id : NodeId)
  | nodeIdWithoutKind (id : NodeId)
  | nodeIdOutOfRange (kind : NodeKind) (id : NodeId)
  | unlinkedParent (kind : NodeKind) (id : NodeId)
  | rootsFixed
  | rootsRemovedAtExit
  | rateAboveCeiling (service : Service) (cir pir ceiling : Nat)
  | leafWithoutParent (id : NodeId)
  | parentOfOtherService (parent : NodeId) (serves service : Service)
  | nodeOfOtherKind (id : NodeId) (service : Service) (kind : NodeKind)
  | clusterCannotMove (id parent : NodeId)
  | notRateQuery (messageType : Nat)
  | rateQueryOutOfRange (vf bank : Nat)
  | emptyBlock
  | writePastEnd (iova : Nat)
  | blockLayout
  | shortRequest (length : Nat)
  | unknownCommand (id : UInt8)
  | shortResponse (length : Nat)
  | shortParameterBlock (length : Nat)
  | malformedParameterBlock
  | initNotSlaCommand
  | tooManyRings (rings : Nat)
  | ringTooLarge
deriving DecidableEq

/-- The text on what is wrong with an argument. -/
def ArgumentError.message : ArgumentError → String
  | .unknownService word => "unknown service '" ++ word ++ "'"
  | .unknownNodeKind word => "unknown node type '" ++ word ++ "'"
  | .addressOutOfRange address => "PCI address " ++ address.display ++ " out of range"
  | .addressNotVf address => "PCI address " ++ address.display ++ " is not a VF of this device"
  | .zeroConstant which => "RL hw data: " ++ which.name ++ " is zero"
  | .zeroThroughput service => "RL hw data: max throughput for " ++ service.name ++ " is zero"
  | .correctionExceedsSlices => "RL hw data: dc_correction exceeds compression slices"
  | .tooManyServices => "not enough root nodes for all enabled services"
  | .serviceEnabledTwice service => "service " ++ service.name ++ " enabled twice"
  | .unsupportedBanks banks => "banks per VF " ++ toString banks ++ " unsupported"
  | .moreVfsThanSupported => "more VFs enabled than supported"
  | .tooManyLeaves leaves => toString leaves ++ " bootstrap leaves exceed the leaf id space"
  | .duplicateRoot service => "duplicate root for " ++ service.name
  | .unknownNodeId id => "node id " ++ id.display
  | .nodeIdWithoutKind id => "node id " ++ id.display ++ " has no type"
  | .nodeIdOutOfRange kind id => kind.name ++ " id " ++ id.display ++ " out of range"
  | .unlinkedParent kind id => kind.name ++ " " ++ id.display ++ " has no parent to link to"
  | .rootsFixed => "roots are created at init only"
  | .rootsRemovedAtExit => "roots are removed at exit only"
  | .rateAboveCeiling service cir pir ceiling =>
      service.name ++ " rate " ++ toString cir ++ "/" ++ toString pir ++ " above ceiling " ++
        toString ceiling
  | .leafWithoutParent id => "leaf " ++ id.display ++ " has no parent cluster"
  | .parentOfOtherService parent serves service =>
      "parent " ++ parent.display ++ " serves " ++ serves.name ++ ", not " ++ service.name
  | .nodeOfOtherKind id service kind =>
      id.display ++ " is a " ++ service.name ++ " " ++ kind.name ++ " node"
  | .clusterCannotMove id parent =>
      "cluster " ++ id.display ++ " cannot move to " ++ parent.display
  | .notRateQuery messageType =>
      "message type " ++ Text.hexNumeral 1 messageType ++ " is not a rate query"
  | .rateQueryOutOfRange vf bank =>
      "rate query for VF " ++ toString vf ++ " bank " ++ toString bank
  | .emptyBlock => "zero-sized DMA buffer"
  | .writePastEnd iova => "DMA write past end of " ++ Text.hexNumeral 1 iova
  | .blockLayout => "DMA layout: invalid parameters to Layout::from_size_align"
  | .shortRequest length => "admin request of " ++ toString length ++ " bytes"
  | .unknownCommand id => "admin command " ++ Text.hexNumeral 1 id.toNat
  | .shortResponse length => "admin response of " ++ toString length ++ " bytes"
  | .shortParameterBlock length => "parameter block of " ++ toString length ++ " bytes"
  | .malformedParameterBlock => "malformed SLA parameter block"
  | .initNotSlaCommand => "init is not an SLA command"
  | .tooManyRings rings => toString rings ++ " rings exceed the per-leaf limit"
  | .ringTooLarge => "ring id does not fit the SLA block"

/-- What does not exist. -/
inductive MissingObject where
  | node (id : NodeId)
  | root (service : Service)
  | parent (id : NodeId)
  | sla (id : NodeId)
  | block (iova : Nat)
  | parameterBlock (iova : Nat)
  | file (path : String) (cause : HostError)
  | iommuGroup (path : String) (cause : HostError)
  | device
deriving DecidableEq

/-- The text on what was not found. -/
def MissingObject.message : MissingObject → String
  | .node id => "node " ++ id.display
  | .root service => "root for " ++ service.name
  | .parent id => "parent " ++ id.display
  | .sla id => "SLA " ++ id.display
  | .block iova => "DMA buffer " ++ Text.hexNumeral 1 iova
  | .parameterBlock iova => "parameter block at " ++ Text.hexNumeral 1 iova
  | .file path cause => path ++ ": " ++ cause.message
  | .iommuGroup path cause => path ++ ": " ++ cause.message ++ " (is the IOMMU on?)"
  | .device => "device"

/-- Why the state of the tree forbids an operation. -/
inductive Refusal where
  | nodeHasSla (id : NodeId)
  | ringTaken (ring : Nat) (leaf : NodeId)
  | parentWithoutSla (parent : NodeId)
  | notEnoughBudget (parent : NodeId)
  | slaExists (kind : NodeKind) (id : NodeId)
  | rootAboveCeiling (service : Service)
  | belowChildren (id : NodeId) (cir : Nat)
  | childrenAttached (id : NodeId) (kind : NodeKind)
deriving DecidableEq

/-- The text on why something is refused. -/
def Refusal.message : Refusal → String
  | .nodeHasSla id => "node " ++ id.display ++ " still has an SLA"
  | .ringTaken ring leaf => "ring " ++ toString ring ++ " already linked to leaf " ++ leaf.display
  | .parentWithoutSla parent => "parent " ++ parent.display ++ " has no SLA"
  | .notEnoughBudget parent => "not enough budget under " ++ parent.display
  | .slaExists kind id => kind.name ++ " " ++ id.display ++ " already has an SLA"
  | .rootAboveCeiling service => "root SLA over the " ++ service.name ++ " ceiling"
  | .belowChildren id cir =>
      id.display ++ " cir " ++ toString cir ++ " below what its children hold"
  | .childrenAttached id kind => id.display ++ " still has " ++ kind.name ++ " SLAs attached"

/-- Why an exchange with the firmware failed. -/
inductive AdminFailure where
  | injected
  | linkDown
  | foreignResponse (id : UInt8)
  | status (code : UInt8)
  | truncatedArea
  | carrier (message : String)
deriving DecidableEq

/-- The text on how an exchange with the firmware failed. -/
def AdminFailure.message : AdminFailure → String
  | .injected => "injected transport failure"
  | .linkDown => "link down"
  | .foreignResponse id => "response for command " ++ Text.hexNumeral 1 id.toNat
  | .status code => "firmware status " ++ Text.hexNumeral 1 code.toNat
  | .truncatedArea => "truncated message area"
  | .carrier message => message

/-- What is inconsistent, or refused by the host where it should not be. -/
inductive InternalError where
  | badGroupLink (target : String)
  | apiVersion (version : Int)
  | iommuUnsupported
  | groupNotViable (group : Nat)
  | request (what : String) (cause : HostError)
  | emptyFile (path : String)
  | addressesExhausted
  | outOfMemory
  | busReset
deriving DecidableEq

/-- The text on what went wrong inside or in the system. -/
def InternalError.message : InternalError → String
  | .badGroupLink target => "bad IOMMU group link " ++ target
  | .apiVersion version => "unsupported VFIO API version " ++ toString version
  | .iommuUnsupported => "VFIO Type1v2 IOMMU not supported"
  | .groupNotViable group =>
      "IOMMU group " ++ toString group ++ " not viable (bind every device to vfio-pci)"
  | .request what cause => what ++ ": " ++ cause.message
  | .emptyFile path => path ++ " is empty"
  | .addressesExhausted => "IOVA space exhausted"
  | .outOfMemory => "out of DMA memory"
  | .busReset => "bus reset"

/-- Why an operation is refused. -/
inductive Error where
  | invalidArgument (cause : ArgumentError)
  | notFound (what : MissingObject)
  | permissionDenied (cause : Refusal)
  | slotsExhausted (kind : NodeKind)
  /-- A committed rate is not zero and yet worth no hardware token. -/
  | rateTooLow (service : Service)
  | admin (command : AdminCommand) (cause : AdminFailure)
  /-- The firmware did not complete a request within the given number of milliseconds. -/
  | timeout (milliseconds : Nat)
  | internal (cause : InternalError)
deriving DecidableEq

/-- The classes errors are reported under. -/
inductive ErrorClass where
  | invalidArgument
  | notFound
  | permissionDenied
  | resourceExhausted
  | adminTransport
  | internal
deriving DecidableEq

namespace Error

/-- The class an error is reported under. -/
def category : Error → ErrorClass
  | .invalidArgument _ | .rateTooLow _ => .invalidArgument
  | .notFound _ => .notFound
  | .permissionDenied _ => .permissionDenied
  | .slotsExhausted _ => .resourceExhausted
  | .admin _ _ | .timeout _ => .adminTransport
  | .internal _ => .internal

/-- The text under which an error is reported, headed by its class. -/
def message : Error → String
  | .invalidArgument cause => "Invalid argument: " ++ cause.message
  | .notFound what => "Not found: " ++ what.message
  | .permissionDenied cause => "Permission denied: " ++ cause.message
  | .slotsExhausted kind => "No free " ++ kind.name ++ " ids"
  | .rateTooLow service => "SLA value too low for " ++ service.name
  | .admin command cause => "Admin " ++ command.title ++ " failed: " ++ cause.message
  | .timeout milliseconds => "Admin completion timeout after " ++ toString milliseconds ++ "ms"
  | .internal cause => "Internal error: " ++ cause.message

end Error

/-- The text under which a fault ends the program. -/
def Fault.message : Fault → String
  | .addOverflow => "attempt to add with overflow"
  | .multiplyOverflow => "attempt to multiply with overflow"
  | .divideByZero => "attempt to divide by zero"
  | .remainderByZero => "attempt to calculate the remainder with a divisor of zero"
  | .registerOutOfBounds offset => "CSR offset " ++ Text.hexNumeral 1 offset ++ " out of bounds"
  | .blockTooLarge => "capacity overflow"

end RateTree
