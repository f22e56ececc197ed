import Mathlib.Data.BitVec
import Mathlib.Tactic.Common

abbrev Memory := BitVec 64 → BitVec 8

namespace Memory

def read64 (m : Memory) (a : BitVec 64) : BitVec 64 :=
  m (a + 7) ++ m (a + 6) ++ m (a + 5) ++ m (a + 4) ++ m (a + 3) ++ m (a + 2) ++ m (a + 1) ++ m a

def write64 (m : Memory) (a w : BitVec 64) : Memory := fun b ↦
  if (b - a).toNat < 8 then w.extractLsb' (8 * (b - a).toNat) 8 else m b

variable (m : Memory) {a : BitVec 64} {n : ℕ}

theorem write64_inside (a w k : BitVec 64) (hk : k.toNat < 8) :
    m.write64 a w (a + k) = w.extractLsb' (8 * k.toNat) 8 := by
  have h : a + k - a = k := by rw [BitVec.add_comm, BitVec.add_sub_cancel]
  rw [write64, h, if_pos hk]

variable {b : BitVec 64}

theorem write64_outside (w k : BitVec 64) (hba : 8 ≤ (b - a).toNat) (hab : 8 ≤ (a - b).toNat)
    (hk : k.toNat < 8) : m.write64 a w (b + k) = m (b + k) := by
  rw [write64, if_neg]
  bv_omega

theorem read64_write64_self (a w : BitVec 64) : (m.write64 a w).read64 a = w := by
  have h0 := write64_inside m a w 0 (by decide)
  rw [BitVec.ofNat_eq_ofNat, BitVec.add_zero] at h0
  rw [read64, h0]
  iterate 7 rw [write64_inside m a w _ (by decide)]
  iterate 7 rw [BitVec.extractLsb'_append_extractLsb'_eq_extractLsb' (by decide)]
  exact BitVec.extractLsb'_eq_self

theorem read64_write64_of_disjoint (w : BitVec 64) (hba : 8 ≤ (b - a).toNat)
    (hab : 8 ≤ (a - b).toNat) : (m.write64 a w).read64 b = m.read64 b := by
  have h0 := write64_outside m w 0 hba hab (by decide)
  rw [BitVec.ofNat_eq_ofNat, BitVec.add_zero] at h0
  rw [read64, h0]
  iterate 7 rw [write64_outside m w _ hba hab (by decide)]
  rfl

def words (m : Memory) (a : BitVec 64) (n : ℕ) : List (BitVec 64) :=
  (List.range n).map fun i ↦ m.read64 (a + BitVec.ofNat 64 (8 * i))

@[simp] theorem length_words (a : BitVec 64) (n : ℕ) :
    (m.words a n).length = n := by
  simp [words]

theorem getElem?_words (a : BitVec 64) {i : ℕ} (hi : i < n) :
    (m.words a n)[i]? = some (m.read64 (a + BitVec.ofNat 64 (8 * i))) := by
  simp [words, hi]

theorem words_succ (a : BitVec 64) (n : ℕ) :
    m.words a (n + 1) = m.read64 a :: m.words (a + 8) n := by
  rw [words, List.range_succ_eq_map, List.map_cons, List.map_map, Nat.mul_zero, BitVec.add_zero,
    words]
  refine congrArg _ (List.map_congr_left fun i _ ↦ congrArg m.read64 ?_)
  rw [Nat.succ_eq_add_one, Nat.mul_add, Nat.add_comm, BitVec.ofNat_add, ← BitVec.add_assoc]
  rfl

theorem words_add (a : BitVec 64) (n k : ℕ) :
    m.words a (n + k) = m.words a n ++ m.words (a + BitVec.ofNat 64 (8 * n)) k := by
  simp only [words, List.range_add, List.map_append, List.map_map]
  refine congrArg _ (List.map_congr_left fun i _ ↦ congrArg m.read64 ?_)
  show a + BitVec.ofNat 64 (8 * (n + i)) = _
  rw [Nat.mul_add, BitVec.ofNat_add, BitVec.add_assoc]

theorem words_write64 (a w : BitVec 64) {i : ℕ} (hi : i < n) (hn : 8 * n ≤ 2 ^ 64) :
    (m.write64 (a + BitVec.ofNat 64 (8 * i)) w).words a n = (m.words a n).set i w := by
  refine List.ext_getElem (by simp) fun j hj _ ↦ ?_
  rw [length_words] at hj
  rw [List.getElem_set]
  split_ifs with hij
  · subst hij
    simp [words, read64_write64_self]
  · simp only [words, List.getElem_map, List.getElem_range]
    exact read64_write64_of_disjoint m w (by bv_omega) (by bv_omega)

theorem words_push (a w : BitVec 64) (hn : 8 * (n + 1) ≤ 2 ^ 64) :
    (m.write64 (a - 8) w).words (a - 8) (n + 1) = w :: m.words a n := by
  have h := words_write64 m (a - 8) w (Nat.succ_pos n) hn
  rw [Nat.mul_zero, BitVec.add_zero] at h
  rw [h, words_succ, List.set_cons_zero, BitVec.sub_add_cancel]

def span (a : BitVec 64) (n : ℕ) : Set (BitVec 64) := {b | (b - a).toNat < n}

theorem mem_span : b ∈ span a n ↔ (b - a).toNat < n := Iff.rfl

theorem add_mem_span (a : BitVec 64) {k : BitVec 64} (h : k.toNat < n) :
    a + k ∈ span a n := by
  rwa [mem_span, BitVec.add_comm, BitVec.add_sub_cancel]

theorem span_word_subset (a : BitVec 64) {i : ℕ} (hi : i < n) :
    span (a + BitVec.ofNat 64 (8 * i)) 8 ⊆ span a (8 * n) := by
  intro b hb
  rw [mem_span] at hb ⊢
  bv_omega

theorem write64_of_not_mem (w : BitVec 64) (h : b ∉ span a 8) :
    m.write64 a w b = m b := if_neg h

theorem read64_congr {m m' : Memory} (h : ∀ b ∈ span a 8, m b = m' b) :
    m.read64 a = m'.read64 a := by
  have h0 : m a = m' a := h a (by rw [mem_span, BitVec.sub_self]; decide)
  rw [read64, read64, h0]
  iterate 7 rw [h _ (add_mem_span a (by decide))]

theorem words_congr {m m' : Memory} (h : ∀ b ∈ span a (8 * n), m b = m' b) :
    m.words a n = m'.words a n := by
  refine List.map_congr_left fun i hi ↦ read64_congr fun b hb ↦ ?_
  exact h b (span_word_subset a (List.mem_range.mp hi) hb)

def writeWords (m : Memory) (a : BitVec 64) : ℕ → List (BitVec 64) → Memory
  | _, [] => m
  | i, w :: ws => (m.write64 (a + BitVec.ofNat 64 (8 * i)) w).writeWords a (i + 1) ws

theorem writeWords_append (a : BitVec 64) (i : ℕ) (ws ws' : List (BitVec 64)) :
    m.writeWords a i (ws ++ ws') = (m.writeWords a i ws).writeWords a (i + ws.length) ws' := by
  induction ws generalizing m i with
  | nil => rfl
  | cons w ws ih =>
    rw [List.cons_append, writeWords, writeWords, ih, List.length_cons, Nat.add_assoc,
      Nat.add_comm 1]

theorem writeWords_of_not_mem (h : b ∉ span a (8 * n)) (m : Memory) (i : ℕ)
    (ws : List (BitVec 64)) (hi : i + ws.length ≤ n) : m.writeWords a i ws b = m b := by
  induction ws generalizing m i with
  | nil => rfl
  | cons w ws ih =>
    rw [List.length_cons] at hi
    rw [writeWords, ih _ _ (by omega)]
    exact write64_of_not_mem m w fun hb ↦ h (span_word_subset a (by omega) hb)

theorem words_writeWords (a : BitVec 64) (hn : 8 * n ≤ 2 ^ 64) (i : ℕ) (ws : List (BitVec 64))
    (hi : i + ws.length = n) :
    (m.writeWords a i ws).words a n = (m.words a n).take i ++ ws := by
  induction ws generalizing m i with
  | nil =>
    rw [List.length_nil, Nat.add_zero] at hi
    rw [writeWords, List.append_nil, List.take_of_length_le (by rw [length_words, hi])]
  | cons w ws ih =>
    rw [List.length_cons] at hi
    have hlt : i < n := by omega
    rw [writeWords, ih _ _ (by omega), words_write64 m a w hlt hn, List.take_succ_eq_append_getElem
      (by rwa [List.length_set, length_words]), List.getElem_set_self, List.append_assoc,
      List.take_set_of_le (le_refl i)]
    rfl

end Memory
