import Mathlib
import RecordIndex.Proofs.Table.Payloads
import RecordIndex.Proofs.Walk.Listing
import RecordIndex.Walk.Cursor
import RecordIndex.Walk.Teardown

/-! # Payloads and walks

Cursors, listings and teardowns follow the links, and pass payloads on as they find them.
-/
namespace RecordIndex
variable {α β : Type} {f : α → β}

namespace Cursor

theorem onward_map (c : Cursor) (a : Arena α) : c.onward (a.map f) = c.onward a := by
  unfold onward
  cases c.place with
  | on h resume =>
    simp only [Arena.get?_map]
    cases a.get? h <;> rfl
  | _ => rfl

theorem advance_map (c : Cursor) (t : Table) (a : Arena α) :
    c.advance t (a.map f) = c.advance t a := by
  unfold advance
  rw [onward_map]

theorem removeCurrent_map (c : Cursor) (t : Table) (a : Arena α) :
    c.removeCurrent t (a.map f) = Table.mapArena f (c.removeCurrent t a) := by
  unfold removeCurrent
  cases c.place with
  | on h resume =>
    simp only [Arena.get?_map]
    cases a.get? h with
    | none => rfl
    | some r =>
      simp only [Option.map_some, Record.map_key, Record.map_next, Table.removeHandle_map]
      rfl
  | _ => rfl

end Cursor

namespace Listing

def map (f : α → β) (l : Listing α) : Listing β :=
  ⟨l.buckets, l.arena.map f, l.last, l.resume, l.remaining⟩

theorem successor_map (l : Listing α) : (l.map f).successor = l.successor := by
  unfold successor
  simp only [map, Arena.get?_map]
  cases l.last with
  | none => rfl
  | some h => cases hr : l.arena.get? h <;> simp [hr]

theorem next?_map (l : Listing α) :
    (l.map f).next? = l.next?.map (Option.map fun (e, l) => (Entry.map f e, l.map f)) := by
  unfold next?
  rw [successor_map]
  cases l.successor with
  | error e => rfl
  | ok link =>
    simp only [bind, Except.bind]
    have hstep : (l.map f).buckets.step? link (l.map f).resume =
        l.buckets.step? link l.resume := rfl
    rw [hstep]
    cases l.buckets.step? link l.resume with
    | none => rfl
    | some next =>
      obtain ⟨h, resume⟩ := next
      simp only [map, Arena.get?_map]
      cases l.arena.get? h with
      | none => rfl
      | some r => cases hn : l.remaining <;> rfl

/-- A listing yields as many records whatever their payloads are, and the same ones. -/
theorem draw_map (l : Listing α) (n : Nat) :
    (l.map f).draw n = (l.draw n).map fun (es, l) => (es.map (Entry.map f), l.map f) := by
  induction n generalizing l with
  | zero => rfl
  | succ n ih =>
    simp only [draw, next?_map]
    cases l.next? with
    | error e => rfl
    | ok next =>
      cases next with
      | none => rfl
      | some next =>
        obtain ⟨e, l'⟩ := next
        simp only [Except.map, Option.map_some, ih]
        cases l'.draw n <;> rfl

end Listing

theorem Teardown.next?_map (d : Teardown) (a : Arena α) :
    d.next? (a.map f) = ((d.next? a).1.map f, (d.next? a).2) := by
  unfold Teardown.next?
  cases d.buckets.step? d.successor d.resume with
  | none => rfl
  | some next =>
    obtain ⟨h, resume⟩ := next
    simp only [Arena.get?_map]
    cases a.get? h with
    | none => rfl
    | some r => simp only [Option.map_some, Record.map_next, Arena.unlink_map]

end RecordIndex
