/-! # Events

What a table reports of itself while it works: each growth step, the moment it can grow no more,
and the lines of a statistics report.
-/
namespace RecordIndex

inductive Event where
  /-- The bucket array was replaced by a larger one. -/
  | resized (table : String) (before after records : Nat)
  /-- The table is full by its policy and has no larger capacity left. -/
  | ceilingReached (table : String) (capacity records : Nat)
  /-- One line of a report. -/
  | reported (table line : String)
deriving DecidableEq

inductive Severity where
  | debug
  | info
deriving DecidableEq

inductive Detail where
  | number (n : Nat)
  | text (s : String)
deriving DecidableEq

namespace Event

def channel : String := "hashtable"

def severity : Event → Severity
  | .reported .. => .info
  | _ => .debug

def message : Event → String
  | .resized .. => "resizing table"
  | .ceilingReached .. => "table at maximum capacity, chains will lengthen"
  | .reported _ line => line

def details : Event → List (String × Detail)
  | .resized table before after records =>
    [("table", .text table), ("from", .number before), ("to", .number after),
      ("elems", .number records)]
  | .ceilingReached table capacity records =>
    [("table", .text table), ("capacity", .number capacity), ("elems", .number records)]
  | .reported table _ => [("table", .text table)]

end Event
end RecordIndex
