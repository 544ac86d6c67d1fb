import RecordIndex.Table

/-! # Insertion and growth

A record is put at the head of the chain of its key. When one more record would exceed the load that
the policy allows, the table first moves to its next capacity. Each old chain is then relinked from
its tail, in bucket order, so records that share a chain before and after keep their order.
-/
namespace RecordIndex.Table
variable {α : Type}

def relink (b : Buckets) (a : Arena α) (entries : List (Entry α)) : Buckets × Arena α :=
  entries.foldl (fun (b, a) e => b.pushFront a e.1 e.2.key) (b, a)

/-- Moves an old chain to new buckets. The chains before it have been moved by then. -/
def relinkChain : Buckets × Arena α → Option Handle → Option (Buckets × Arena α)
  | (b, a), head => (a.chain? head).map fun chain => relink b a chain.reverse

/-- Moves the table to its next capacity. At the ceiling it stays as it is and says so once. -/
def grow (t : Table) (m : Allocator) (a : Arena α) :
    Table × Arena α × List Event × Except Failure Unit :=
  match t.policy.next? t.capacity with
  | none =>
    if t.ceilingReported then (t, a, [], .ok ())
    else
      let event := .ceilingReached t.name t.capacity t.count
      ({ t with ceilingReported := true }, a, [event], .ok ())
  | some capacity =>
    match newBuckets m t.name capacity with
    | .error e => (t, a, [], .error e)
    | .ok fresh =>
      let event := .resized t.name t.capacity capacity.toNat t.count
      match t.buckets.foldlM relinkChain (fresh, a) with
      | none => (t, a, [event], .error .corrupted)
      | some (buckets, a) => ({ t with buckets }.touch, a, [event], .ok ())

def makeRoom (t : Table) (m : Allocator) (a : Arena α) :
    Table × Arena α × List Event × Except Failure Unit :=
  if t.policy.loadLimit t.capacity < t.count + 1 then t.grow m a else (t, a, [], .ok ())

def push (t : Table) (a : Arena α) (h : Handle) (key : UInt64) : Table × Arena α :=
  let (buckets, a) := t.buckets.pushFront a h key
  ({ t with buckets, count := t.count + 1 }.touch, a)

def insert (t : Table) (m : Allocator) (a : Arena α) (h : Handle) :
    Table × Arena α × List Event × Except Failure Unit :=
  match a.get? h with
  | none => (t, a, [], .error .staleHandle)
  | some r =>
    if r.linked then (t, a, [], .error .alreadyLinked)
    else if t.buckets.isEmpty then (t, a, [], .error .corrupted)
    else
      match t.makeRoom m a with
      | (t, a, events, .error e) => (t, a, events, .error e)
      | (t, a, events, .ok ()) =>
        let (t, a) := t.push a h r.key
        (t, a, events, .ok ())

end RecordIndex.Table
