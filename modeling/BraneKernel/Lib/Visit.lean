import BraneKernel.Lib.Chunks

/-! Traversals of a list by a visitor that may stop them. -/

namespace Visit

variable {σ α β : Type*} {visitor : σ → α → σ × Bool} {s t : σ}

def run (visitor : σ → α → σ × Bool) : List α → σ → σ × Bool
  | [], s => (s, true)
  | a :: l, s =>
    match visitor s a with
    | (s, false) => (s, false)
    | (s, true) => run visitor l s

theorem run_nil (s : σ) : run visitor [] s = (s, true) := rfl

theorem run_cons_stop {a : α} (h : visitor s a = (t, false)) (l : List α) :
    run visitor (a :: l) s = (t, false) := by
  rw [run, h]

theorem run_cons_go {a : α} (h : visitor s a = (t, true)) (l : List α) :
    run visitor (a :: l) s = run visitor l t := by
  rw [run, h]

theorem run_invariant {I : σ → Prop} (h : ∀ s a, I s → I (visitor s a).1) (l : List α)
    (hs : I s) : I (run visitor l s).1 := by
  induction l generalizing s with
  | nil => exact hs
  | cons a l ih =>
    have ha := h s a hs
    rcases hv : visitor s a with ⟨u, go⟩
    rw [hv] at ha
    cases go with
    | false => rwa [run_cons_stop hv]
    | true =>
      rw [run_cons_go hv]
      exact ih ha

theorem exists_stop {l : List α} (h : run visitor l s = (t, false)) :
    ∃ a ∈ l, ∃ u, visitor u a = (t, false) := by
  induction l generalizing s with
  | nil => simp [run_nil] at h
  | cons a l ih =>
    rcases hv : visitor s a with ⟨u, go⟩
    cases go with
    | false =>
      rw [run_cons_stop hv] at h
      exact ⟨a, List.mem_cons_self, s, hv.trans h⟩
    | true =>
      rw [run_cons_go hv] at h
      obtain ⟨b, hb, hstop⟩ := ih h
      exact ⟨b, List.mem_cons_of_mem a hb, hstop⟩

theorem run_append_stop {l : List α} (h : run visitor l s = (t, false)) (rest : List α) :
    run visitor (l ++ rest) s = (t, false) := by
  induction l generalizing s with
  | nil => simp [run_nil] at h
  | cons a l ih =>
    rcases hv : visitor s a with ⟨u, go⟩
    cases go with
    | false =>
      rw [run_cons_stop hv] at h
      rw [List.cons_append, run_cons_stop hv, h]
    | true =>
      rw [run_cons_go hv] at h
      rw [List.cons_append, run_cons_go hv, ih h]

theorem run_append_go {l : List α} (h : run visitor l s = (t, true)) (rest : List α) :
    run visitor (l ++ rest) s = run visitor rest t := by
  induction l generalizing s with
  | nil =>
    rw [run_nil, Prod.mk.injEq] at h
    rw [List.nil_append, h.1]
  | cons a l ih =>
    rcases hv : visitor s a with ⟨u, go⟩
    cases go with
    | false => simp [run_cons_stop hv] at h
    | true =>
      rw [run_cons_go hv] at h
      rw [List.cons_append, run_cons_go hv, ih h]

theorem run_map {τ : Type*} {f : τ → σ} {noted : τ → α → τ × Bool}
    (h : ∀ s a, visitor (f s) a = (noted s a).map f id) (l : List α) (s : τ) :
    run visitor l (f s) = (run noted l s).map f id := by
  induction l generalizing s with
  | nil => rfl
  | cons a l ih =>
    have ha := h s a
    rcases hv : noted s a with ⟨t, go⟩
    rw [hv] at ha
    cases go with
    | false => rw [run_cons_stop hv, run_cons_stop ha]; rfl
    | true => rw [run_cons_go hv, run_cons_go ha, ih]

/-- The visitor with its last answer kept beside its state. -/
def noting (visitor : σ → α → σ × Bool) (s : σ × Bool) (a : α) : (σ × Bool) × Bool :=
  (visitor s.1 a, (visitor s.1 a).2)

def finder (p : α → Bool) (found : Option α) (a : α) : Option α × Bool :=
  if p a then (some a, false) else (found, true)

theorem run_finder (p : α → Bool) (l : List α) : (run (finder p) l none).1 = l.find? p := by
  induction l with
  | nil => rw [run_nil, List.find?_nil]
  | cons a l ih =>
    cases hp : p a with
    | true =>
      have hstop : finder p none a = (some a, false) := if_pos hp
      rw [run_cons_stop hstop, List.find?_cons_of_pos hp]
    | false =>
      have hgo : finder p none a = (none, true) := if_neg (by rw [hp]; decide)
      rw [run_cons_go hgo, ih, List.find?_cons_of_neg (by rw [hp]; decide)]

def filler (f : α → β) (state : List β × ℕ) (a : α) : (List β × ℕ) × Bool :=
  if state.2 = state.1.length then (state, false)
  else ((state.1.set state.2 (f a), state.2 + 1), true)

theorem run_filler (f : α → β) (l : List α) (entries : List β) (count : ℕ)
    (h : count ≤ entries.length) :
    (run (filler f) l (entries, count)).1 =
      (Chunks.splice entries count ((l.map f).take (entries.length - count)),
        min entries.length (count + l.length)) := by
  induction l generalizing entries count with
  | nil =>
    rw [run_nil, List.map_nil, List.take_nil, Chunks.splice_nil, List.length_nil, Nat.add_zero,
      Nat.min_eq_right h]
  | cons a l ih =>
    by_cases hfull : count = entries.length
    · have hstop : filler f (entries, count) a = ((entries, count), false) := if_pos hfull
      rw [run_cons_stop hstop, hfull, Nat.sub_self, List.take_zero, Chunks.splice_nil,
        Nat.min_eq_left (Nat.le_add_right ..)]
    · have hgo : filler f (entries, count) a = ((entries.set count (f a), count + 1), true) :=
        if_neg hfull
      have hlt : count < entries.length := by omega
      have hone : entries.set count (f a) = Chunks.splice entries count [f a] :=
        Chunks.set_eq_splice hlt (f a)
      obtain ⟨k, hk⟩ : ∃ k, entries.length - count = k + 1 := ⟨entries.length - count - 1, by omega⟩
      have hrest : entries.length - (count + 1) = k := by omega
      rw [run_cons_go hgo, ih _ _ (by rw [List.length_set]; omega), List.length_set, hrest, hk,
        List.map_cons, List.take_succ_cons, hone, List.length_cons]
      have hsplice : Chunks.splice (Chunks.splice entries count [f a]) (count + 1)
          ((l.map f).take k) = Chunks.splice entries count (f a :: (l.map f).take k) :=
        Chunks.splice_splice hlt
      rw [hsplice, Nat.add_assoc, Nat.add_comm 1]

end Visit
