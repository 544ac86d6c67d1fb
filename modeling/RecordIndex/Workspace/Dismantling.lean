import RecordIndex.Workspace

/-! # Dismantling a table

A table is taken apart while the workspace stays open: each record is unlinked and handed to a
function that may do to the workspace what it likes before the next record is taken out.
-/
namespace RecordIndex.Workspace
variable {α σ : Type}

/-- Ends the use of a table and begins to take it apart. With a foreign arena the table is lost, its
records untouched. -/
def beginTeardown (w : Workspace α) (t : TableId) (p : ArenaId) :
    Workspace α × Except Failure Unit :=
  match w.getPair t p with
  | .ok (table, _) => (w.setTable t (.closing (.of table)), .ok ())
  | .error e => (w.drop t, .error e)

def takeNext (w : Workspace α) (t : TableId) : Workspace α × Except Failure (Option Handle) :=
  match w.tables[t]? with
  | some (.closing d) =>
    match w.onArena d.arena d.next? with
    | (w, .error e) => (w, .error e)
    | (w, .ok none) => (w.drop t, .ok none)
    | (w, .ok (some (h, d))) => (w.setTable t (.closing d), .ok (some h))
  | _ => (w, .error .unknownReference)

/-- Hands up to `steps` records to `dispose`, which may stop the teardown. The records not yet taken
out then stay linked, as when a table is dropped. -/
def disposeAll (t : TableId) (dispose : Workspace α → σ → Handle → Workspace α × ForInStep σ) :
    Nat → Workspace α → σ → Workspace α × Except Failure σ
  | 0, w, _ => (w, .error .corrupted)
  | steps + 1, w, s =>
    match w.takeNext t with
    | (w, .error e) => (w, .error e)
    | (w, .ok none) => (w, .ok s)
    | (w, .ok (some h)) =>
      match dispose w s h with
      | (w, .done s) => (w.drop t, .ok s)
      | (w, .yield s) => disposeAll t dispose steps w s

/-- Takes a table apart and hands every record to `dispose`, in bucket order and then in chain
order. There are as many steps as the table counts records, and one to find that none is left. -/
def dismantle (w : Workspace α) (t : TableId) (p : ArenaId)
    (dispose : Workspace α → σ → Handle → Workspace α × ForInStep σ) (s : σ) :
    Workspace α × Except Failure σ :=
  let steps := (w.table? t).elim 0 (·.count) + 1
  match w.beginTeardown t p with
  | (w, .error e) => (w, .error e)
  | (w, .ok ()) => disposeAll t dispose steps w s

end RecordIndex.Workspace
