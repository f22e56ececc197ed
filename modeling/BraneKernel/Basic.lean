import Mathlib.Tactic.Common

namespace BraneKernel

abbrev U16 := BitVec 16
abbrev U32 := BitVec 32
abbrev U64 := BitVec 64
abbrev TaskId := U64
abbrev Pid := U64
abbrev CapabilityId := U64

/-- A `+= 1` on an identifier counter. Overflow is the arithmetic panic, which
aborts the kernel, so no value is produced. -/
def checkedSucc (n : U64) : Option U64 :=
  if n = BitVec.allOnes 64 then none else some (n + 1)

def isPowerOfTwo {w : ℕ} (n : BitVec w) : Bool := n ≠ 0 && n &&& (n - 1) = 0

theorem checkedSucc_eq {n next : U64} (h : checkedSucc n = some next) : n + 1 = next := by
  unfold checkedSucc at h
  split_ifs at h
  exact Option.some.inj h

theorem checkedSucc_eq_none {n : U64} (h : checkedSucc n = none) : n = BitVec.allOnes 64 := by
  unfold checkedSucc at h
  split_ifs at h with hn
  exact hn

theorem checkedSucc_toNat {n m : U64} (h : checkedSucc n = some m) : m.toNat = n.toNat + 1 := by
  unfold checkedSucc at h
  split_ifs at h with hn
  cases h
  have hlt : n.toNat ≠ 2 ^ 64 - 1 := fun he ↦ hn (BitVec.eq_of_toNat_eq (by simpa using he))
  have hb := n.isLt
  rw [BitVec.toNat_add, Nat.mod_eq_of_lt]
  · simp
  · simp only [BitVec.ofNat_eq_ofNat, BitVec.toNat_ofNat]
    omega

theorem checkedSucc_of_lt {n m : U64} (h : n.toNat < m.toNat) :
    ∃ n', checkedSucc n = some n' ∧ n'.toNat = n.toNat + 1 := by
  have hn : n ≠ BitVec.allOnes 64 := by
    intro he
    have hm := m.isLt
    rw [he, BitVec.toNat_allOnes] at h
    omega
  have hs : checkedSucc n = some (n + 1) := if_neg hn
  exact ⟨n + 1, hs, checkedSucc_toNat hs⟩

theorem checkedSucc_ne_none {n m : U64} (h : n.toNat < m.toNat) : checkedSucc n ≠ none := by
  obtain ⟨_, hn, -⟩ := checkedSucc_of_lt h
  simp [hn]

end BraneKernel
