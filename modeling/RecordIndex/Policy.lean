import RecordIndex.Failure

/-! # Growth policy

The capacities a table goes through, in order, and the load at which it moves on to the next. A
policy may be written down with any values; `validate` tells which of them a table accepts.
-/
namespace RecordIndex

structure Policy where
  /-- Bucket counts, the first for an empty table, the last never exceeded. -/
  capacities : List UInt64
  /-- Average chain length above which a table grows. -/
  maxLoad : UInt64
deriving DecidableEq

namespace Policy

/-- Primes that roughly double at each step. -/
def standardCapacities : List UInt64 :=
  [769, 1543, 3079, 6151, 12289, 24593, 49157, 98317, 196613, 393241, 786433, 1572869, 3145739,
    6291469, 12582917, 25165843, 50331653, 100663319, 201326611, 402653189]

def standardMaxLoad : UInt64 := 1

def standard : Policy := ⟨standardCapacities, standardMaxLoad⟩

def initial? (p : Policy) : Option UInt64 := p.capacities.head?

def ceiling? (p : Policy) : Option UInt64 := p.capacities.getLast?

/-- First capacity of the sequence above `current`; at the ceiling and past it there is none. -/
def next? (p : Policy) (current : Nat) : Option UInt64 :=
  p.capacities.find? (current < ·.toNat)

/-- Number of records that `capacity` buckets may hold before the table grows, kept within a
64-bit word. -/
def loadLimit (p : Policy) (capacity : Nat) : Nat :=
  min (capacity * p.maxLoad.toNat) (UInt64.size - 1)

inductive Defect where
  | empty
  | startsAtZero
  | descends (a b : UInt64)
  | zeroLoad
deriving DecidableEq

def Defect.message : Defect → String
  | .empty => "capacity sequence is empty"
  | .startsAtZero => "capacity sequence starts at zero"
  | .descends a b =>
    "capacity sequence is not strictly ascending at " ++ toString a ++ " -> " ++ toString b
  | .zeroLoad => "max load must be at least 1"

def firstDescent? : List UInt64 → Option (UInt64 × UInt64)
  | a :: b :: rest => if b ≤ a then some (a, b) else firstDescent? (b :: rest)
  | _ => none

/-- The defect reported first: an empty sequence, one that starts at zero, one that does not ascend,
and last the load. -/
def defect? (p : Policy) : Option Defect :=
  match p.capacities with
  | [] => some .empty
  | c :: _ =>
    if c = 0 then some .startsAtZero
    else match firstDescent? p.capacities with
      | some (a, b) => some (.descends a b)
      | none => if p.maxLoad = 0 then some .zeroLoad else none

def validate (p : Policy) : Except Failure Unit :=
  match p.defect? with
  | some d => .error (.invalidPolicy d.message)
  | none => .ok ()

end Policy
end RecordIndex
