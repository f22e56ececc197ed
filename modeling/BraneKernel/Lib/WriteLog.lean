import BraneKernel.Lib.Chunks

/-! An array given by the writes made to it, the newest first. -/

namespace WriteLog

variable {α : Type} (zero : α)

def lastWritten : List (ℕ × List α) → ℕ → α
  | [], _ => zero
  | (start, src) :: log, pos =>
    if start ≤ pos ∧ pos < start + src.length then src.getD (pos - start) zero
    else lastWritten log pos

def largestEnd : List (ℕ × List α) → ℕ
  | [] => 0
  | (start, src) :: log => max (largestEnd log) (start + src.length)

def contents (log : List (ℕ × List α)) : List α :=
  (List.range (largestEnd log)).map (lastWritten zero log)

theorem replicate_eq (n : ℕ) :
    List.replicate n zero = (List.range n).map (lastWritten zero []) := by
  apply List.ext_getElem
  · rw [List.length_replicate, List.length_map, List.length_range]
  · intro i _ _
    rw [List.getElem_replicate, List.getElem_map, lastWritten]

theorem splice_eq {n start : ℕ} {src : List α} (log : List (ℕ × List α))
    (h : start + src.length ≤ n) :
    Chunks.splice ((List.range n).map (lastWritten zero log)) start src =
      (List.range n).map (lastWritten zero ((start, src) :: log)) := by
  apply List.ext_getElem?
  intro i
  rw [Chunks.getElem?_splice (by rwa [List.length_map, List.length_range]), List.getElem?_map,
    List.getElem?_map]
  by_cases hi : start ≤ i ∧ i < start + src.length
  · have hlt : i - start < src.length := by omega
    rw [if_pos hi, List.getElem?_range (by omega), Option.map_some, lastWritten, if_pos hi,
      List.getD_eq_getElem?_getD, List.getElem?_eq_getElem hlt, Option.getD_some]
  · have hmiss : lastWritten zero ((start, src) :: log) i = lastWritten zero log i := by
      rw [lastWritten, if_neg hi]
    rw [if_neg hi]
    by_cases hn : i < n
    · rw [List.getElem?_range hn, Option.map_some, Option.map_some, hmiss]
    · rw [List.getElem?_eq_none (by rw [List.length_range]; omega), Option.map_none,
        Option.map_none]

theorem take_largestEnd {n : ℕ} {log : List (ℕ × List α)} (h : largestEnd log ≤ n) :
    ((List.range n).map (lastWritten zero log)).take (largestEnd log) = contents zero log := by
  rw [← List.map_take, List.take_range, Nat.min_eq_left h, contents]

end WriteLog
