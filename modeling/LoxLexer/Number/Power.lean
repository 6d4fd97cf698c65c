/-!
# Powers of two and ten

The two families of powers that binary and decimal numbers are made of.

* `twoTo_succ`, `tenTo_succ`: one more factor.
* `twoTo_pos`, `tenTo_pos`: no power is zero.
-/

namespace LoxLexer

/-- A power of two. -/
def twoTo (n : Nat) : Nat :=
  Nat.pow 2 n

/-- A power of ten. -/
def tenTo (n : Nat) : Nat :=
  Nat.pow 10 n

theorem twoTo_succ (n : Nat) : twoTo (n + 1) = 2 * twoTo n :=
  Nat.mul_comm _ _

theorem tenTo_succ (n : Nat) : tenTo (n + 1) = 10 * tenTo n :=
  Nat.mul_comm _ _

theorem twoTo_pos (n : Nat) : 0 < twoTo n := by
  induction n with
  | zero => exact Nat.one_pos
  | succ n ih =>
    rw [twoTo_succ]
    omega

theorem tenTo_pos (n : Nat) : 0 < tenTo n := by
  induction n with
  | zero => exact Nat.one_pos
  | succ n ih =>
    rw [tenTo_succ]
    omega

end LoxLexer
