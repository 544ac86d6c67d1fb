/-! # Memory for bucket arrays

Bucket arrays are the only thing that memory is asked for in a way that may be refused. Who grants
it is not part of an index, and each request may meet another state of the memory.
-/
namespace RecordIndex

/-- The requests for memory that are granted, by their size in bytes. -/
structure Allocator where
  grants : Nat → Bool
  /-- The size of an array must fit a signed word. -/
  lt_of_grants : ∀ bytes, grants bytes = true → bytes < 0x8000000000000000

namespace Allocator

/-- Grants all that is smaller than the limit and not too large for an array. -/
def below (limit : Nat) : Allocator where
  grants bytes := decide (bytes < limit) && decide (bytes < 0x8000000000000000)
  lt_of_grants _ hg := of_decide_eq_true (Bool.and_eq_true_iff.mp hg).2

def ample : Allocator := below 0x8000000000000000

end Allocator
end RecordIndex
