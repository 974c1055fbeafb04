import DelegatedVoting.Packed.Format
import DelegatedVoting.Store.Tables

/-!
# Packed tables

The packed form of a store of tables: the entries of each table, in the order of the keys.

* `Format.table`, `Format.tables`.
-/

namespace DelegatedVoting.Packed.Format

/-- The entries of a table. -/
def table : Format Table := (list (pair block block)).along (Std.ExtTreeMap.ofList ·) (·.toList)

/-- The four tables. -/
def tables : Format Tables :=
  (pair table (pair table (pair table table))).along
    (fun v => ⟨v.1, v.2.1, v.2.2.1, v.2.2.2⟩)
    (fun ts => (ts.proposals, ts.ballots, ts.tallies, ts.notes))

end DelegatedVoting.Packed.Format
