import TextColumns.Pattern.Fault
import TextColumns.Text.Quoted
import TextColumns.Text.Utf8

namespace TextColumns

open Text (quoted Utf8Fault)

inductive FailureKind where
  | outOfMemory
  | overflow
  | malformedPattern
  | invalidArguments
  | lengthMismatch
  | outOfBounds
  /-- A text was written beyond the bytes set aside for it. -/
  | overrun
  deriving DecidableEq, Repr

def FailureKind.describe (kind : FailureKind) (details : String) : String :=
  match kind with
  | .outOfMemory => "Out of memory: " ++ details
  | .overflow => "Overflow: " ++ details
  | .malformedPattern => "Malformed pattern " ++ details
  | .invalidArguments => "Invalid arguments: " ++ details
  | .lengthMismatch => "Length mismatch: " ++ details
  | .outOfBounds => "Out of bounds: " ++ details
  | .overrun => "Overrun: " ++ details

inductive Subject where
  | concat
  | compare
  | split
  | splitFromRight
  | pad
  deriving DecidableEq, Repr

def Subject.name : Subject → String
  | .concat => "concat"
  | .compare => "compare_str_str"
  | .split => "split"
  | .splitFromRight => "rsplit"
  | .pad => "pad"

/-- What can be wrong with the parts from which a store is put together. -/
inductive PartsFault where
  | tableSizes (offsets lengths : Nat)
  | decreasingOffset (offset : Int) (element : Nat)
  | negativeLength (length : Int) (element : Nat)
  | beyondBuffer (element stop size : Nat)
  | notUtf8 (element : Nat) (fault : Utf8Fault)
  deriving DecidableEq, Repr

def PartsFault.message : PartsFault → String
  | .tableSizes offsets lengths =>
    toString offsets ++ " offsets for " ++ toString lengths ++ " lengths"
  | .decreasingOffset offset element =>
    "offset " ++ toString offset ++ " at element " ++ toString element ++ " decreases"
  | .negativeLength length element =>
    "length " ++ toString length ++ " at element " ++ toString element
  | .beyondBuffer element stop size =>
    "element " ++ toString element ++ " ends at byte " ++ toString stop ++
      " past buffer of " ++ toString size
  | .notUtf8 element fault =>
    "element " ++ toString element ++ " is not UTF-8: " ++ fault.message

/-- What can be wrong with the keys and codes of a category table. -/
inductive TableFault where
  | nullKey
  | keysNotIncreasing (key : Nat)
  | codeOutside (code : Int) (row keys : Nat)
  deriving DecidableEq, Repr

def TableFault.message : TableFault → String
  | .nullKey => "key set contains nulls"
  | .keysNotIncreasing key => "keys not strictly increasing at " ++ toString key
  | .codeOutside code row keys =>
    "code " ++ toString code ++ " at " ++ toString row ++ " outside " ++ toString keys ++
      " keys"

/-- What can be wrong with a replacement template. -/
inductive TemplateFault where
  | malformedReference (offset : Nat)
  | missingGroup (group groups : Nat)
  deriving DecidableEq, Repr

def TemplateFault.message : TemplateFault → String
  | .malformedReference offset => "malformed group reference at byte " ++ toString offset
  | .missingGroup group groups =>
    "group " ++ toString group ++ " referenced but pattern has " ++ toString groups ++
      " groups"

inductive Failure where
  | cannotAllocate (bytes : Nat)
  | prefixSum (sizes : Nat)
  | elementTooLong (element bytes limit : Nat)
  | storeTooLarge (bytes : Nat)
  | tooManyKeys (keys : Nat)
  | pattern (text : String) (error : Pattern.Malformed)
  | unknownPattern (handle : Nat)
  | parts (fault : PartsFault)
  | writtenNotUtf8 (element : Nat)
  | fillNotOneChar (label fill : String)
  | emptyDelimiter (subject : Subject)
  | tooManyRepeats (times limit : Nat)
  | badRadix (radix : Nat)
  | noGroups (text : String)
  | template (fault : TemplateFault)
  | table (fault : TableFault)
  | rowCounts (subject : Subject) (left right : Nat)
  | gatherOutside (index size : Nat)
  | tableGatherOutside (index size : Nat)
  | sliceOutside (start stop size : Nat)
  | writtenBeyond (element : Nat)
  deriving DecidableEq, Repr

namespace Failure

def kind : Failure → FailureKind
  | .cannotAllocate _ => .outOfMemory
  | .prefixSum _ | .elementTooLong .. | .storeTooLarge _ | .tooManyKeys _ => .overflow
  | .pattern .. => .malformedPattern
  | .unknownPattern _ | .parts _ | .writtenNotUtf8 _ | .fillNotOneChar .. | .emptyDelimiter _
  | .tooManyRepeats .. | .badRadix _ | .noGroups _ | .template _ | .table _ => .invalidArguments
  | .rowCounts .. => .lengthMismatch
  | .gatherOutside .. | .tableGatherOutside .. | .sliceOutside .. => .outOfBounds
  | .writtenBeyond _ => .overrun

def patternDetails (text : String) (position : Nat) (reason : String) : String :=
  quoted text ++ " at byte " ++ toString position ++ ": " ++ reason

def rowCountDetails (subject : String) (left right : Nat) : String :=
  subject ++ " => Length mismatch: LHS " ++ toString left ++ " RHS " ++ toString right

def details : Failure → String
  | .cannotAllocate bytes => toString bytes ++ " bytes"
  | .prefixSum sizes => "prefix sum over " ++ toString sizes ++ " sizes"
  | .elementTooLong element bytes limit =>
    "element " ++ toString element ++ " is " ++ toString bytes ++ " bytes, above the " ++
      toString limit ++ " byte element limit"
  | .storeTooLarge bytes => "store of " ++ toString bytes ++ " bytes exceeds offset range"
  | .tooManyKeys keys =>
    "category: " ++ toString keys ++ " distinct values exceed the code range"
  | .pattern text error => patternDetails text error.position error.fault.reason
  | .unknownPattern handle => "unknown pattern handle " ++ toString handle
  | .parts fault => "from_parts: " ++ fault.message
  | .writtenNotUtf8 element =>
    "element " ++ toString element ++ " was written as invalid UTF-8"
  | .fillNotOneChar label fill =>
    label ++ ": fill must be exactly one character, got " ++ quoted fill
  | .emptyDelimiter subject => subject.name ++ ": empty delimiter"
  | .tooManyRepeats times limit =>
    "repeat: " ++ toString times ++ " exceeds the limit of " ++ toString limit
  | .badRadix radix => "parse_int_radix: radix " ++ toString radix ++ " outside 2..=36"
  | .noGroups text => "extract: pattern " ++ quoted text ++ " has no capture groups"
  | .template fault => "replace_with_backrefs: " ++ fault.message
  | .table fault => "category: " ++ fault.message
  | .rowCounts subject left right => rowCountDetails subject.name left right
  | .gatherOutside index size =>
    "gather: index " ++ toString index ++ " for store of length " ++ toString size
  | .tableGatherOutside index size =>
    "category gather: index " ++ toString index ++ " for table of length " ++ toString size
  | .sliceOutside start stop size =>
    "slice: " ++ toString start ++ ".." ++ toString stop ++ " of store with length " ++
      toString size
  | .writtenBeyond element =>
    "element " ++ toString element ++ " was written beyond its bytes"

def message (failure : Failure) : String :=
  failure.kind.describe failure.details

end Failure

abbrev Result (α : Type) := Except Failure α

end TextColumns
