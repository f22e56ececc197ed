import Mathlib.Data.List.Flatten
import Mathlib.Tactic.Common

/-! Lists written and read in pieces. -/

namespace Chunks

variable {α β : Type*}

def splice (dst : List α) (start : ℕ) (src : List α) : List α :=
  dst.take start ++ src ++ dst.drop (start + src.length)

theorem splice_nil (dst : List α) (start : ℕ) : splice dst start [] = dst := by
  rw [splice, List.append_nil, List.length_nil, Nat.add_zero, List.take_append_drop]

theorem splice_zero (dst src : List α) : splice dst 0 src = src ++ dst.drop src.length := by
  rw [splice, List.take_zero, List.nil_append, Nat.zero_add]

theorem length_splice {dst src : List α} {start : ℕ} (h : start + src.length ≤ dst.length) :
    (splice dst start src).length = dst.length := by
  rw [splice, List.length_append, List.length_append, List.length_take, List.length_drop]
  omega

theorem getElem?_splice {dst src : List α} {start : ℕ} (h : start + src.length ≤ dst.length)
    (i : ℕ) : (splice dst start src)[i]? =
      if start ≤ i ∧ i < start + src.length then src[i - start]? else dst[i]? := by
  rw [splice, List.append_assoc, List.getElem?_append, List.getElem?_append, List.getElem?_drop,
    List.length_take, Nat.min_eq_left (by omega)]
  split_ifs with hbefore hin hinside
  · omega
  · exact List.getElem?_take_of_lt hbefore
  · rfl
  · omega
  · omega
  · congr 1
    omega

theorem splice_splice {dst a b : List α} {start : ℕ} (h : start + a.length ≤ dst.length) :
    splice (splice dst start a) (start + a.length) b = splice dst start (a ++ b) := by
  have hlen : (dst.take start ++ a).length = start + a.length := by
    rw [List.length_append, List.length_take]
    omega
  have htake : (splice dst start a).take (start + a.length) = dst.take start ++ a := by
    rw [splice, ← hlen, List.take_left]
  have hdrop : (splice dst start a).drop (start + a.length + b.length) =
      dst.drop (start + a.length + b.length) := by
    rw [splice, ← List.drop_drop, ← hlen, List.drop_left, hlen, List.drop_drop]
  rw [splice, htake, hdrop, splice, List.length_append, ← List.append_assoc, Nat.add_assoc]

theorem set_eq_splice {dst : List α} {i : ℕ} (h : i < dst.length) (a : α) :
    dst.set i a = splice dst i [a] := by
  rw [splice, List.set_eq_take_append_cons_drop, if_pos h, List.append_assoc,
    List.singleton_append, List.length_singleton]

variable {f : α → List β} {l : List α} {m : ℕ}

theorem length_flatMap (h : ∀ a ∈ l, (f a).length = m) : (l.flatMap f).length = l.length * m := by
  induction l with
  | nil => rw [List.flatMap_nil, List.length_nil, List.length_nil, Nat.zero_mul]
  | cons a l ih =>
    have hl := ih (fun b hb ↦ h b (List.mem_cons_of_mem a hb))
    rw [List.flatMap_cons, List.length_append, h a List.mem_cons_self, hl, List.length_cons,
      Nat.add_one_mul, Nat.add_comm]

theorem drop_flatMap (h : ∀ a ∈ l, (f a).length = m) (k : ℕ) :
    (l.flatMap f).drop (k * m) = (l.drop k).flatMap f := by
  induction k generalizing l with
  | zero => rw [Nat.zero_mul, List.drop_zero, List.drop_zero]
  | succ k ih =>
    cases l with
    | nil => rw [List.flatMap_nil, List.drop_nil, List.drop_nil, List.flatMap_nil]
    | cons a l =>
      have ha := h a List.mem_cons_self
      have hl := ih (fun b hb ↦ h b (List.mem_cons_of_mem a hb))
      rw [List.flatMap_cons, List.drop_succ_cons, ← hl, Nat.add_one_mul, Nat.add_comm,
        ← List.drop_drop, ← ha, List.drop_left]

def chunksExact (n : ℕ) (l : List α) : List (List α) :=
  (List.range (l.length / n)).map fun i ↦ (l.drop (i * n)).take n

theorem chunksExact_nil (n : ℕ) : chunksExact n ([] : List α) = [] := by
  rw [chunksExact, List.length_nil, Nat.zero_div, List.range_zero, List.map_nil]

theorem chunksExact_append {n k : ℕ} {a : List α} (hn : 0 < n) (ha : a.length = k * n)
    (b : List α) : chunksExact n (a ++ b) = chunksExact n a ++ chunksExact n b := by
  have hlength : (a ++ b).length / n = k + b.length / n := by
    rw [List.length_append, ha, Nat.add_comm, Nat.add_mul_div_right _ _ hn, Nat.add_comm]
  have hk : a.length / n = k := by rw [ha, Nat.mul_div_cancel _ hn]
  rw [chunksExact, hlength, List.range_add, List.map_append, chunksExact, hk, chunksExact,
    List.map_map]
  congr 1
  · apply List.map_congr_left
    intro i hi
    have hle : (i + 1) * n ≤ a.length := by
      rw [ha]
      exact Nat.mul_le_mul_right n (List.mem_range.mp hi)
    rw [Nat.add_one_mul] at hle
    rw [List.drop_append_of_le_length (by omega), List.take_append_of_le_length]
    rw [List.length_drop]
    omega
  · apply List.map_congr_left
    intro i _
    rw [Function.comp_apply, Nat.add_mul, ← List.drop_drop, ← ha, List.drop_left]

theorem chunksExact_flatMap {n k : ℕ} (hn : 0 < n) (h : ∀ a ∈ l, (f a).length = k * n) :
    chunksExact n (l.flatMap f) = l.flatMap fun a ↦ chunksExact n (f a) := by
  induction l with
  | nil => rw [List.flatMap_nil, List.flatMap_nil, chunksExact_nil]
  | cons a l ih =>
    have hl := ih (fun b hb ↦ h b (List.mem_cons_of_mem a hb))
    rw [List.flatMap_cons, List.flatMap_cons, chunksExact_append hn (h a List.mem_cons_self), hl]

def chunks (n : ℕ) (l : List α) : List (List α) :=
  (List.range ((l.length + n - 1) / n)).map fun i ↦ (l.drop (i * n)).take n

variable {n : ℕ} {as c : List α}

theorem exists_of_mem_chunks (hn : 0 < n) (h : c ∈ chunks n as) :
    ∃ i, i * n < as.length ∧ c.length = min n (as.length - i * n) := by
  simp only [chunks, List.mem_map, List.mem_range] at h
  obtain ⟨i, hi, rfl⟩ := h
  refine ⟨i, ?_, by simp⟩
  have hle : (i + 1) * n ≤ as.length + n - 1 := (Nat.le_div_iff_mul_le hn).mp hi
  rw [Nat.add_one_mul] at hle
  omega

theorem length_of_mem_chunks (hn : 0 < n) (h : c ∈ chunks n as) :
    0 < c.length ∧ c.length ≤ n := by
  obtain ⟨i, hi, hlength⟩ := exists_of_mem_chunks hn h
  omega

theorem dvd_length_of_mem_chunks (hn : 0 < n) (hm : m ∣ n) (has : m ∣ as.length)
    (h : c ∈ chunks n as) : m ∣ c.length := by
  obtain ⟨i, hi, hlength⟩ := exists_of_mem_chunks hn h
  rw [hlength, Nat.min_def]
  split_ifs
  · exact hm
  · exact Nat.dvd_sub has (Nat.dvd_mul_left_of_dvd hm i)

theorem chunks_eq_cons (hn : 0 < n) (has : as ≠ []) :
    chunks n as = as.take n :: chunks n (as.drop n) := by
  have hpos := List.length_pos_iff.mpr has
  have hcount : (as.length + n - 1) / n = ((as.drop n).length + n - 1) / n + 1 := by
    rw [← Nat.add_div_right _ hn, List.length_drop]
    rcases Nat.le_total n as.length with hle | hle
    · congr 1
      omega
    · rw [Nat.sub_eq_zero_of_le hle, Nat.div_eq_of_lt_le (k := 1), Nat.div_eq_of_lt_le (k := 1)] <;>
        omega
  simp only [chunks, hcount, List.range_succ_eq_map, List.map_cons, Nat.zero_mul, List.drop_zero,
    List.map_map, List.drop_drop]
  congr 1
  refine List.map_congr_left fun i _ ↦ ?_
  rw [Function.comp_apply, Nat.succ_mul, Nat.add_comm]

theorem flatten_chunks (hn : 0 < n) (as : List α) : (chunks n as).flatten = as := by
  by_cases has : as = []
  · rw [has, chunks, List.length_nil, Nat.zero_add, Nat.div_eq_of_lt (by omega)]
    rfl
  · have hdrop : (as.drop n).length < as.length := by
      have hpos := List.length_pos_iff.mpr has
      rw [List.length_drop]
      omega
    rw [chunks_eq_cons hn has, List.flatten_cons, flatten_chunks hn (as.drop n),
      List.take_append_drop]
termination_by as.length

end Chunks
