import Mathlib.Data.List.Flatten
import Mathlib.Tactic.Common

/-! Lists cut into records whose first two elements state their length, and loops
that read the records one after the other. -/

namespace Records

variable {α σ β : Type} (size : α → α → ℕ)

def IsRecord (r : List α) : Prop := ∃ a b l, r = a :: b :: l ∧ size a b = r.length

def next : List α → Option (List α × List α)
  | a :: b :: l =>
    if 2 ≤ size a b ∧ size a b ≤ l.length + 2 then
      some ((a :: b :: l).take (size a b), (a :: b :: l).drop (size a b))
    else none
  | _ => none

inductive Turn (σ β : Type)
  | go (state : σ)
  | stop (result : β)
  deriving DecidableEq

inductive Result (σ β : Type)
  | ended (state : σ)
  | stopped (result : β)
  | malformed
  deriving DecidableEq

def Turn.resume (k : σ → Option (Result σ β)) : Turn σ β → Option (Result σ β)
  | .go s => k s
  | .stop b => some (.stopped b)

def scan (turn : σ → List α → Option (Turn σ β)) : ℕ → σ → List α → Option (Result σ β)
  | 0, _, _ => none
  | fuel + 1, s, l =>
    if l = [] then some (.ended s)
    else
      match next size l with
      | none => some .malformed
      | some (r, rest) =>
        (turn s r).bind (Turn.resume fun s ↦ scan turn fuel s rest)

def follow (turn : σ → List α → Option (Turn σ β)) (s : σ) : List (List α) → Option σ
  | [] => some s
  | r :: rs =>
    (turn s r).bind fun
      | .go s => follow turn s rs
      | .stop _ => none

variable {size} {turn : σ → List α → Option (Turn σ β)} {s s' : σ} {b : β} {fuel : ℕ}
  {r rest l : List α} {rs : List (List α)}

theorem IsRecord.length_ge (h : IsRecord size r) : 2 ≤ r.length := by
  obtain ⟨a, b, l, rfl, -⟩ := h
  rw [List.length_cons, List.length_cons]
  omega

theorem next_append (h : IsRecord size r) (rest : List α) :
    next size (r ++ rest) = some (r, rest) := by
  obtain ⟨a, b, l, rfl, hsize⟩ := h
  have hfits : 2 ≤ size a b ∧ size a b ≤ (l ++ rest).length + 2 := by
    rw [hsize, List.length_cons, List.length_cons, List.length_append]
    omega
  rw [List.cons_append, List.cons_append, next, if_pos hfits, hsize, ← List.cons_append,
    ← List.cons_append, List.take_left, List.drop_left]

theorem of_next (h : next size l = some (r, rest)) : IsRecord size r ∧ l = r ++ rest := by
  unfold next at h
  split at h
  · next a b l =>
    split_ifs at h with hfits
    cases h
    obtain ⟨n, hn⟩ := Nat.exists_eq_add_of_le' hfits.1
    refine ⟨⟨a, b, l.take n, ?_, ?_⟩, (List.take_append_drop _ _).symm⟩
    · rw [hn, List.take_succ_cons, List.take_succ_cons]
    · rw [List.length_take, List.length_cons, List.length_cons, Nat.min_eq_left hfits.2]
  · cases h

section Window

variable {bytes : List α} {total offset : ℕ} {a b : α}

theorem next_short (h : total ≤ offset + 1) :
    next size ((bytes.take total).drop offset) = none := by
  have hlength : ((bytes.take total).drop offset).length ≤ 1 := by
    rw [List.length_drop, List.length_take]
    omega
  match hl : (bytes.take total).drop offset with
  | [] => rfl
  | [_] => rfl
  | _ :: _ :: _ =>
    rw [hl, List.length_cons, List.length_cons] at hlength
    omega

theorem next_window (ha : bytes[offset]? = some a) (hb : bytes[offset + 1]? = some b)
    (hlt : offset + 1 < total) (htotal : total ≤ bytes.length) :
    next size ((bytes.take total).drop offset) =
      if 2 ≤ size a b ∧ offset + size a b ≤ total then
        some ((bytes.drop offset).take (size a b), (bytes.take total).drop (offset + size a b))
      else none := by
  obtain ⟨hlt₁, rfl⟩ := List.getElem?_eq_some_iff.mp ha
  obtain ⟨hlt₂, rfl⟩ := List.getElem?_eq_some_iff.mp hb
  obtain ⟨k, hk⟩ : ∃ k, total - offset = k + 1 + 1 := ⟨total - offset - 2, by omega⟩
  have hwindow : (bytes.take total).drop offset = (bytes.drop offset).take (total - offset) :=
    List.drop_take
  have hcons : (bytes.drop offset).take (total - offset) =
      bytes[offset] :: bytes[offset + 1] :: (bytes.drop (offset + 1 + 1)).take k := by
    rw [List.drop_eq_getElem_cons hlt₁, List.drop_eq_getElem_cons hlt₂, hk, List.take_succ_cons,
      List.take_succ_cons]
  have hlength : ((bytes.drop (offset + 1 + 1)).take k).length = k := by
    rw [List.length_take, List.length_drop]
    omega
  rw [← List.drop_drop, hwindow, hcons, next, hlength, ← hcons]
  by_cases h : 2 ≤ size bytes[offset] bytes[offset + 1] ∧
      offset + size bytes[offset] bytes[offset + 1] ≤ total
  · rw [if_pos h, if_pos (by omega), List.take_take, Nat.min_eq_left (by omega)]
  · rw [if_neg h, if_neg (by omega)]

theorem scan_end (h : total ≤ offset) :
    scan size turn (fuel + 1) s ((bytes.take total).drop offset) = some (.ended s) := by
  have hnil : (bytes.take total).drop offset = [] := by
    rw [List.drop_eq_nil_iff, List.length_take]
    omega
  rw [scan, if_pos hnil]

theorem window_ne_nil (hlt : offset < total) (htotal : total ≤ bytes.length) :
    (bytes.take total).drop offset ≠ [] := by
  rw [ne_eq, List.drop_eq_nil_iff, List.length_take]
  omega

theorem scan_short (hlt : offset < total) (h : total ≤ offset + 1) (htotal : total ≤ bytes.length) :
    scan size turn (fuel + 1) s ((bytes.take total).drop offset) = some .malformed := by
  rw [scan, if_neg (window_ne_nil hlt htotal), next_short h]

theorem scan_window (ha : bytes[offset]? = some a) (hb : bytes[offset + 1]? = some b)
    (hlt : offset + 1 < total) (htotal : total ≤ bytes.length) :
    scan size turn (fuel + 1) s ((bytes.take total).drop offset) =
      if 2 ≤ size a b ∧ offset + size a b ≤ total then
        (turn s ((bytes.drop offset).take (size a b))).bind
          (Turn.resume fun s ↦ scan size turn fuel s ((bytes.take total).drop (offset + size a b)))
      else some .malformed := by
  have hne := window_ne_nil (Nat.lt_of_succ_lt hlt) htotal
  rw [scan, if_neg hne, next_window ha hb hlt htotal]
  split_ifs <;> rfl

end Window

theorem scan_nil : scan size turn (fuel + 1) s [] = some (.ended s) := by
  rw [scan, if_pos rfl]

theorem scan_append (h : IsRecord size r) : scan size turn (fuel + 1) s (r ++ rest) =
    (turn s r).bind (Turn.resume fun s ↦ scan size turn fuel s rest) := by
  have hne : r ++ rest ≠ [] := by
    have hlength := h.length_ge
    intro hnil
    rw [(List.append_eq_nil_iff.mp hnil).1] at hlength
    exact absurd hlength (Nat.not_succ_le_zero _)
  rw [scan, if_neg hne, next_append h]

theorem follow_go (h : turn s r = some (.go s')) (rs : List (List α)) :
    follow turn s (r :: rs) = follow turn s' rs := by
  rw [follow, h]
  rfl

theorem follow_stop (h : turn s r = some (.stop b)) (rs : List (List α)) :
    follow turn s (r :: rs) = none := by
  rw [follow, h]
  rfl

theorem scan_follow (hall : ∀ r ∈ rs, IsRecord size r) (h : follow turn s rs = some s') (l : List α) :
    scan size turn (fuel + rs.length) s (rs.flatten ++ l) = scan size turn fuel s' l := by
  induction rs generalizing s with
  | nil =>
    cases h
    rfl
  | cons r rs ih =>
    obtain ⟨t, ht, h⟩ := Option.bind_eq_some_iff.mp h
    rw [List.flatten_cons, List.append_assoc, List.length_cons, ← Nat.add_assoc,
      scan_append (hall r List.mem_cons_self), ht]
    cases t with
    | stop b => cases h
    | go t => exact ih (fun r hr ↦ hall r (List.mem_cons_of_mem _ hr)) h

theorem follow_concat_iff : follow turn s (rs ++ [r]) = some s' ↔
    ∃ t, follow turn s rs = some t ∧ turn t r = some (.go s') := by
  induction rs generalizing s with
  | nil =>
    constructor
    · intro h
      obtain ⟨t, ht, h⟩ := Option.bind_eq_some_iff.mp h
      cases t with
      | stop b => cases h
      | go t =>
        cases h
        exact ⟨s, rfl, ht⟩
    · rintro ⟨t, ht, h⟩
      cases ht
      exact Option.bind_eq_some_iff.mpr ⟨_, h, rfl⟩
  | cons x rs ih =>
    rw [List.cons_append, follow, follow]
    cases turn s x with
    | none => exact ⟨nofun, nofun⟩
    | some t =>
      cases t with
      | stop b => exact ⟨nofun, nofun⟩
      | go t => exact ih

theorem two_mul_length_le (hall : ∀ r ∈ rs, IsRecord size r) :
    2 * rs.length ≤ rs.flatten.length := by
  induction rs with
  | nil => exact Nat.zero_le _
  | cons r rs ih =>
    have hr := (hall r List.mem_cons_self).length_ge
    have hrs := ih fun r hr ↦ hall r (List.mem_cons_of_mem _ hr)
    rw [List.flatten_cons, List.length_append, List.length_cons]
    omega

section

variable (hturn : ∀ s r, IsRecord size r → turn s r ≠ none)
include hturn

theorem scan_cases (s : σ) (l : List α) (hfuel : l.length < fuel) :
    ∃ rs s', (∀ r ∈ rs, IsRecord size r) ∧ follow turn s rs = some s' ∧
      ((l = rs.flatten ∧ scan size turn fuel s l = some (.ended s')) ∨
        (∃ r rest b, IsRecord size r ∧ l = rs.flatten ++ (r ++ rest) ∧
          turn s' r = some (.stop b) ∧ scan size turn fuel s l = some (.stopped b)) ∨
        scan size turn fuel s l = some .malformed) := by
  induction fuel generalizing s l with
  | zero => exact absurd hfuel (Nat.not_lt_zero _)
  | succ fuel ih =>
    by_cases hnil : l = []
    · subst hnil
      exact ⟨[], s, nofun, rfl, .inl ⟨rfl, scan_nil⟩⟩
    cases hnext : next size l with
    | none =>
      refine ⟨[], s, nofun, rfl, .inr (.inr ?_)⟩
      rw [scan, if_neg hnil, hnext]
    | some p =>
      obtain ⟨r, rest⟩ := p
      obtain ⟨hr, rfl⟩ := of_next hnext
      have hlength := hr.length_ge
      cases ht : turn s r with
      | none => exact absurd ht (hturn s r hr)
      | some t =>
        rw [scan_append hr, ht]
        cases t with
        | stop b => exact ⟨[], s, nofun, rfl, .inr (.inl ⟨r, rest, b, hr, rfl, ht, rfl⟩)⟩
        | go t =>
          rw [List.length_append] at hfuel
          obtain ⟨rs, s', hall, hfollow, hend⟩ := ih t rest (by omega)
          refine ⟨r :: rs, s', List.forall_mem_cons.mpr ⟨hr, hall⟩, ?_, ?_⟩
          · rw [follow_go ht, hfollow]
          · rw [List.flatten_cons]
            rcases hend with ⟨rfl, hend⟩ | ⟨r', rest', b, hr', rfl, hstop, hend⟩ | hend
            · exact .inl ⟨rfl, hend⟩
            · exact .inr (.inl ⟨r', rest', b, hr', (List.append_assoc ..).symm, hstop, hend⟩)
            · exact .inr (.inr hend)

theorem scan_ended_iff (hfuel : l.length < fuel) : scan size turn fuel s l = some (.ended s') ↔
      ∃ rs, (∀ r ∈ rs, IsRecord size r) ∧ l = rs.flatten ∧ follow turn s rs = some s' := by
  constructor
  · intro h
    obtain ⟨rs, t, hall, hfollow, ⟨hl, hend⟩ | ⟨_, _, _, -, -, -, hend⟩ | hend⟩ :=
      scan_cases hturn s l hfuel
    · cases hend.symm.trans h
      exact ⟨rs, hall, hl, hfollow⟩
    · cases hend.symm.trans h
    · cases hend.symm.trans h
  · rintro ⟨rs, hall, rfl, hfollow⟩
    have hlength := two_mul_length_le hall
    obtain ⟨n, rfl⟩ : ∃ n, fuel = n + 1 + rs.length := ⟨fuel - 1 - rs.length, by omega⟩
    rw [← List.append_nil rs.flatten, scan_follow hall hfollow, scan_nil]

theorem scan_stopped_iff (hfuel : l.length < fuel) : scan size turn fuel s l = some (.stopped b) ↔
      ∃ rs r rest s', (∀ r ∈ rs, IsRecord size r) ∧ IsRecord size r ∧
        l = rs.flatten ++ (r ++ rest) ∧ follow turn s rs = some s' ∧
        turn s' r = some (.stop b) := by
  constructor
  · intro h
    obtain ⟨rs, t, hall, hfollow, ⟨-, hend⟩ | ⟨r, rest, c, hr, hl, hstop, hend⟩ | hend⟩ :=
      scan_cases hturn s l hfuel
    · cases hend.symm.trans h
    · cases hend.symm.trans h
      exact ⟨rs, r, rest, t, hall, hr, hl, hfollow, hstop⟩
    · cases hend.symm.trans h
  · rintro ⟨rs, r, rest, t, hall, hr, rfl, hfollow, hstop⟩
    have hlength := two_mul_length_le hall
    rw [List.length_append] at hfuel
    obtain ⟨n, rfl⟩ : ∃ n, fuel = n + 1 + rs.length := ⟨fuel - 1 - rs.length, by omega⟩
    rw [scan_follow hall hfollow, scan_append hr, hstop]
    rfl

theorem scan_ne_none (hfuel : l.length < fuel) :
    scan size turn fuel s l ≠ none := by
  obtain ⟨_, _, -, -, ⟨-, hend⟩ | ⟨_, _, _, -, -, -, hend⟩ | hend⟩ := scan_cases hturn s l hfuel <;>
    rw [hend] <;> exact nofun

end

end Records
