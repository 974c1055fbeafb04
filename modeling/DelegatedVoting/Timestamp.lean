/-!
# Times

Times are whole seconds since the epoch.

* `Timestamp`, `Timestamp.epoch`, `Timestamp.write`, `Timestamp.elapsed`.
-/

namespace DelegatedVoting

/-- Seconds since the epoch. -/
abbrev Timestamp := UInt64

namespace Timestamp

/-- The start of time. -/
def epoch : Timestamp := 0

/-- The written form of a time. -/
def write (t : Timestamp) : String := toString t.toNat ++ "s"

/-- The seconds from `t` to `now`, or none at all if `now` is earlier. -/
def elapsed (t now : Timestamp) : UInt64 := if t ≤ now then now - t else 0

theorem toNat_elapsed (t now : Timestamp) : (elapsed t now).toNat = now.toNat - t.toNat := by
  unfold elapsed
  split
  · rename_i h
    exact UInt64.toNat_sub_of_le _ _ h
  · rename_i h
    have : now.toNat < t.toNat := by simpa [UInt64.le_iff_toNat_le] using h
    simp; omega

end Timestamp

end DelegatedVoting
