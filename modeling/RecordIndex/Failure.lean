/-! # Why an operation is refused

Every way an operation on records, index tables and cursors can end without doing its work. A miss
of a lookup or a removal is none of them: it is an answer.
-/
namespace RecordIndex

inductive Failure where
  /-- A table was to be created without a name. -/
  | missingName
  /-- The growth policy of a new table was rejected. -/
  | invalidPolicy (reason : String)
  /-- A bucket array of this size cannot be had. -/
  | allocationFailed (table : String) (capacity : Nat)
  /-- The record is already in a chain. -/
  | alreadyLinked
  /-- The record is in a chain and can be neither released nor given another key. -/
  | stillLinked
  /-- The handle refers to no live record. -/
  | staleHandle
  /-- The table changed, or is another one, since the cursor was last set on it. -/
  | staleCursor (table : String)
  /-- The cursor stands on no record. -/
  | noCurrentRecord
  /-- The table was used with an arena other than its own. -/
  | foreignArena (table : String)
  /-- No arena or no table goes by this reference. -/
  | unknownReference
  /-- A link leads to no live record, a chain does not end, or a count disagrees with the chains. -/
  | corrupted
deriving DecidableEq

/-- True of a mistake in the use of the library, false where resources ran out. -/
def Failure.isContractViolation : Failure → Bool
  | .allocationFailed .. => false
  | _ => true

def Failure.message : Failure → String
  | .missingName => "hash table constructed without a name"
  | .invalidPolicy reason => "invalid table configuration: " ++ reason
  | .allocationFailed table capacity =>
    "could not allocate " ++ toString capacity ++ " buckets for table `" ++ table ++ "`"
  | .alreadyLinked => "node is already linked into a table"
  | .stillLinked => "node is still linked into a table"
  | .staleHandle => "node handle does not refer to a live node"
  | .staleCursor table => "table `" ++ table ++ "` was modified since the cursor was reset"
  | .noCurrentRecord => "cursor is not positioned on a node"
  | .foreignArena table =>
    "table `" ++ table ++ "` used with a node pool it was not constructed with"
  | .unknownReference => "no arena or table goes by this reference"
  | .corrupted => "the chains of the table are corrupted"

end RecordIndex
