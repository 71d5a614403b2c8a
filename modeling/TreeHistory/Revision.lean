/-!
# Revisions and node ids

Revisions and node ids are signed 64-bit numbers, kept as integers. Node id 0 is the root, which
is never stored; `Revnum.head`, the largest value, marks a row that is still live. Stepping to the
next id or the previous revision wraps around as 64-bit arithmetic does.
-/

namespace TreeHistory

/-- The signed 64-bit number an integer wraps to: the one in `[-2^63, 2^63)` that is congruent
to it modulo `2^64`. -/
def wrap64 (n : Int) : Int :=
  (n + 9223372036854775808) % 18446744073709551616 - 9223372036854775808

theorem wrap64_of_mem (n : Int) (lo : -9223372036854775808 ≤ n) (hi : n < 9223372036854775808) :
    wrap64 n = n := by
  unfold wrap64
  rw [Int.emod_eq_of_lt (by omega) (by omega)]
  omega

/-- An engine-assigned node identity; ids are never reused. -/
abbrev NodeId := Int

/-- A repository revision number. -/
abbrev Revnum := Int

namespace NodeId

/-- The implicit repository root. -/
def root : NodeId := 0

/-- The id allocated after `id`. -/
def next (id : NodeId) : NodeId := wrap64 (id + 1)

end NodeId

namespace Revnum

/-- The upper end of a live row's window: the largest signed 64-bit value. -/
def head : Revnum := 9223372036854775807

/-- The revision a window closes at when something changes in `r`. -/
def prev (r : Revnum) : Revnum := wrap64 (r - 1)

/-- `HEAD` for the live sentinel, else `r` and the number. -/
def display (r : Revnum) : String :=
  if r = head then "HEAD" else "r" ++ toString r

theorem prev_eq (r : Revnum) : prev r = wrap64 (r - 1) := rfl

theorem display_head : display head = "HEAD" := by
  simp [display]

end Revnum
end TreeHistory
