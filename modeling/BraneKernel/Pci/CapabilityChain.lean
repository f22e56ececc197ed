import BraneKernel.Pci.Capabilities

namespace BraneKernel

/-- The loop of the walk with the arrays of the source: `visited` has 64 flags and
`found` at most 16 entries. `none` is an index out of range, or a loop that has not
ended after `fuel` turns. -/
def walkLoop (config : Bytes) : ℕ → List Bool → List PciCapability → BitVec 8 →
    Option (Except CapabilityError (List PciCapability))
  | 0, _, _, _ => none
  | fuel + 1, visited, found, pointer =>
    let slot := (pointer.toNat - 0x40) / 4
    if pointer = 0 then some (.ok found)
    else if (pointer < 0x40 ∨ 0xFC < pointer) ∨ pointer &&& 3 ≠ 0 then
      some (.error (if pointer &&& 3 ≠ 0 then .misalignedPointer else .pointerOutOfRange))
    else do
      let seen ← visited[slot]?
      if seen then some (.error .cycle)
      else if config.length < pointer.toNat + 2 then some (.error .truncated)
      else if found.length = maxPciCapabilities then some (.error .tooMany)
      else
        let id ← config[pointer.toNat]?
        let next ← config[pointer.toNat + 1]?
        walkLoop config fuel (visited.set slot true) (found ++ [⟨id, pointer⟩]) next

def walkIndexed (config : Bytes) (fuel : ℕ) :
    Option (Except CapabilityError (List PciCapability)) :=
  if config.length < 0x40 then some (.error .missingStatus)
  else do
    let low ← config[0x06]?
    let high ← config[0x07]?
    if high ++ low &&& 1#16 <<< 4 = 0 then some (.ok [])
    else
      let pointer ← config[0x34]?
      walkLoop config fuel (List.replicate 64 false) [] pointer

/-- The chain of capability pointers from `pointer` on, up to the zero pointer. -/
inductive ChainFrom (config : Bytes) : BitVec 8 → List PciCapability → Prop
  | zero : ChainFrom config 0 []
  | cons {pointer id next : BitVec 8} {rest : List PciCapability} : pointer ≠ 0 →
      config[pointer.toNat]? = some id → config[pointer.toNat + 1]? = some next →
      ChainFrom config next rest → ChainFrom config pointer (⟨id, pointer⟩ :: rest)

def chase (config : Bytes) (pointer : BitVec 8) : ℕ → Option (BitVec 8)
  | 0 => some pointer
  | n + 1 =>
    if pointer = 0 then none else (config[pointer.toNat + 1]?).bind fun next ↦ chase config next n

variable {config : Bytes} {pointer : BitVec 8} {visited : List ℕ} {room : ℕ}
  {capabilities : List PciCapability}

theorem getElem?_eq_fieldAt {i : ℕ} (h : i < config.length) :
    config[i]? = some (BitVec.ofNat 8 (fieldAt config i 1)) := by
  rw [List.getElem?_eq_getElem h, ← Bytes.field_byte h]
  rfl

theorem fieldAt_two (config : Bytes) (i : ℕ) (h : i + 1 < config.length) :
    ∃ low high, config[i]? = some low ∧ config[i + 1]? = some high ∧
      BitVec.ofNat 16 (fieldAt config i 2) = high ++ low := by
  have hdrop : config.drop i = config[i] :: config[i + 1] :: config.drop (i + 1 + 1) := by
    rw [List.drop_eq_getElem_cons (by omega), List.drop_eq_getElem_cons h]
  refine ⟨config[i], config[i + 1], List.getElem?_eq_getElem _, List.getElem?_eq_getElem _, ?_⟩
  have hlow := config[i].isLt
  have hhigh := config[i + 1].isLt
  apply BitVec.eq_of_toNat_eq
  rw [BitVec.toNat_append, ← Nat.shiftLeft_add_eq_or_of_lt hlow, BitVec.toNat_ofNat, fieldAt, hdrop,
    List.take_succ_cons, List.take_succ_cons, List.take_zero, Bytes.ofLe, Bytes.ofLe, Bytes.ofLe,
    Nat.shiftLeft_eq]
  omega

theorem aligned_iff (pointer : BitVec 8) : pointer &&& 3 = 0 ↔ pointer.toNat % 4 = 0 := by
  revert pointer
  decide

theorem slot_lt (pointer : BitVec 8) : (pointer.toNat - 0x40) / 4 < 64 := by
  have hlt := pointer.isLt
  omega

def Flags (flags : List Bool) (visited : List ℕ) : Prop :=
  ∀ i < 64, flags[i]? = some (decide (i ∈ visited))

theorem flags_nil : Flags (List.replicate 64 false) [] := by
  intro i hi
  rw [List.getElem?_replicate, if_pos hi]
  rfl

theorem Flags.set {flags : List Bool} (h : Flags flags visited) (slot : ℕ) :
    Flags (flags.set slot true) (slot :: visited) := by
  intro i hi
  obtain ⟨hlt, -⟩ := List.getElem?_eq_some_iff.mp (h i hi)
  by_cases heq : i = slot
  · subst heq
    rw [List.getElem?_set_self hlt]
    simp
  · rw [List.getElem?_set_ne (Ne.symm heq), h i hi]
    simp [heq]

theorem walkLoop_eq {fuel : ℕ} {flags : List Bool} {found : List PciCapability}
    (hflags : Flags flags visited) (hroom : found.length + room = maxPciCapabilities)
    (hfuel : room < fuel) :
    walkLoop config fuel flags found pointer =
      some ((walkFrom config room visited pointer).map (found ++ ·)) := by
  induction fuel generalizing room flags visited found pointer with
  | zero => exact absurd hfuel (Nat.not_lt_zero _)
  | succ fuel ih =>
    unfold walkLoop walkFrom
    dsimp only
    by_cases hend : pointer = 0
    · rw [if_pos hend, if_pos hend, Except.map, List.append_nil]
    rw [if_neg hend, if_neg hend]
    by_cases haligned : pointer &&& 3 ≠ 0
    · rw [if_pos (.inr haligned), if_pos haligned, if_pos haligned]
      rfl
    by_cases hrange : pointer < 0x40 ∨ 0xFC < pointer
    · rw [if_pos (.inl hrange), if_neg haligned, if_neg haligned, if_pos hrange]
      rfl
    rw [if_neg (not_or.mpr ⟨hrange, haligned⟩), if_neg haligned, if_neg hrange]
    simp only [hflags _ (slot_lt pointer), Option.bind_eq_bind, Option.bind_some, decide_eq_true_eq]
    by_cases hseen : (pointer.toNat - 0x40) / 4 ∈ visited
    · rw [if_pos hseen, if_pos hseen]
      rfl
    rw [if_neg hseen, if_neg hseen]
    by_cases hlength : config.length < pointer.toNat + 2
    · rw [if_pos hlength, if_pos hlength]
      rfl
    rw [if_neg hlength, if_neg hlength]
    cases room with
    | zero =>
      rw [Nat.add_zero] at hroom
      rw [if_pos hroom]
      rfl
    | succ room =>
      rw [if_neg (by omega), getElem?_eq_fieldAt (by omega), getElem?_eq_fieldAt (by omega)]
      dsimp only [Option.bind_some]
      have hlength (c : PciCapability) : (found ++ [c]).length + room = maxPciCapabilities := by
        rw [List.length_append, List.length_singleton]
        omega
      rw [ih (hflags.set _) (hlength _) (Nat.lt_of_succ_lt_succ hfuel)]
      cases walkFrom config room ((pointer.toNat - 0x40) / 4 :: visited)
        (BitVec.ofNat 8 (fieldAt config (pointer.toNat + 1) 1)) with
      | error e => rfl
      | ok rest => simp only [Except.map, List.append_assoc, List.singleton_append]

theorem walkIndexed_eq (config : Bytes) {fuel : ℕ} (h : maxPciCapabilities < fuel) :
    walkIndexed config fuel = some (walkCapabilities config) := by
  unfold walkIndexed walkCapabilities
  by_cases hlength : config.length < 0x40
  · rw [if_pos hlength, if_pos hlength]
  rw [if_neg hlength, if_neg hlength]
  obtain ⟨low, high, hlow, hhigh, hstatus⟩ := fieldAt_two config 0x06 (by omega)
  rw [hlow, hhigh, hstatus]
  dsimp only [Option.bind_eq_bind, Option.bind_some]
  by_cases hbit : high ++ low &&& 1#16 <<< 4 = 0
  · rw [if_pos hbit, if_pos hbit]
  rw [if_neg hbit, if_neg hbit, getElem?_eq_fieldAt (by omega)]
  dsimp only [Option.bind_some]
  rw [walkLoop_eq flags_nil (Nat.zero_add _) h]
  cases walkFrom config maxPciCapabilities [] (BitVec.ofNat 8 (fieldAt config 0x34 1)) <;> rfl

theorem ChainFrom.of_walkFrom (h : walkFrom config room visited pointer = .ok capabilities) :
    ChainFrom config pointer capabilities := by
  induction room generalizing visited pointer capabilities with
  | zero =>
    unfold walkFrom at h
    dsimp only at h
    split_ifs at h with hend
    cases h
    exact hend ▸ .zero
  | succ room ih =>
    unfold walkFrom at h
    dsimp only at h
    split_ifs at h with hend haligned hrange hvisited hlength
    · cases h
      exact hend ▸ .zero
    · cases hrest : walkFrom config room ((pointer.toNat - 0x40) / 4 :: visited)
        (BitVec.ofNat 8 (fieldAt config (pointer.toNat + 1) 1)) with
      | error e =>
        rw [hrest] at h
        cases h
      | ok rest =>
        rw [hrest] at h
        cases h
        exact .cons hend (getElem?_eq_fieldAt (by omega)) (getElem?_eq_fieldAt (by omega)) (ih hrest)

theorem Chain.tail {c : PciCapability} {rest : List PciCapability}
    (h : Chain config visited (c :: rest)) :
    Chain config ((c.offset.toNat - 0x40) / 4 :: visited) rest where
  aligned d hd := h.aligned d (List.mem_cons_of_mem _ hd)
  inside d hd := h.inside d (List.mem_cons_of_mem _ hd)
  fresh d hd := by
    rw [List.mem_cons, not_or]
    exact ⟨((List.pairwise_cons.mp h.apart).1 d hd).symm, h.fresh d (List.mem_cons_of_mem _ hd)⟩
  apart := (List.pairwise_cons.mp h.apart).2

theorem ChainFrom.walkFrom_eq (h : ChainFrom config pointer capabilities)
    (hchain : Chain config visited capabilities) (hroom : capabilities.length ≤ room) :
    walkFrom config room visited pointer = .ok capabilities := by
  induction h generalizing visited room with
  | zero =>
    unfold walkFrom
    exact if_pos rfl
  | @cons pointer id next rest hne hid hnext hrest ih =>
    obtain ⟨room, rfl⟩ := Nat.exists_eq_succ_of_ne_zero (Nat.ne_zero_of_lt hroom)
    obtain ⟨hlow, hinside⟩ := hchain.inside _ List.mem_cons_self
    have haligned := hchain.aligned _ List.mem_cons_self
    have hfresh := hchain.fresh _ List.mem_cons_self
    dsimp only at hlow hinside haligned hfresh
    have hhigh : ¬ (pointer < 0x40 ∨ 0xFC < pointer) := by
      have hlt := pointer.isLt
      have hfour := (aligned_iff pointer).mp haligned
      rintro (h | h)
      · exact absurd (BitVec.lt_def.mp h) (Nat.not_lt.mpr hlow)
      · have hgt : 0xFC < pointer.toNat := BitVec.lt_def.mp h
        omega
    have htail : Chain config ((pointer.toNat - 0x40) / 4 :: visited) rest :=
      hchain.tail
    unfold walkFrom
    dsimp only
    rw [getElem?_eq_fieldAt (by omega)] at hid hnext
    rw [if_neg hne, if_neg (not_not.mpr haligned), if_neg hhigh, if_neg hfresh, if_neg (by omega),
      Option.some.inj hid, Option.some.inj hnext, ih htail (Nat.le_of_succ_le_succ hroom)]
    rfl

theorem ChainFrom.chase_eq (h : ChainFrom config pointer capabilities) {n : ℕ} {q : BitVec 8}
    (hq : chase config pointer n = some q) :
    (∃ c, capabilities[n]? = some c ∧ c.offset = q) ∨ q = 0 := by
  induction h generalizing n with
  | zero =>
    cases n with
    | zero => exact .inr (Option.some.inj hq).symm
    | succ n => cases hq
  | @cons pointer id next rest hne hid hnext hrest ih =>
    cases n with
    | zero => exact .inl ⟨⟨id, pointer⟩, rfl, Option.some.inj hq⟩
    | succ n =>
      rw [chase, if_neg hne, hnext, Option.bind_some] at hq
      exact ih hq

def hasCapabilities (config : Bytes) : Prop :=
  BitVec.ofNat 16 (fieldAt config 0x06 2) &&& 1#16 <<< 4 ≠ 0

def firstPointer (config : Bytes) : BitVec 8 := BitVec.ofNat 8 (fieldAt config 0x34 1)

theorem walkCapabilities_ok_iff : walkCapabilities config = .ok capabilities ↔
    0x40 ≤ config.length ∧ ((¬ hasCapabilities config ∧ capabilities = []) ∨
      (hasCapabilities config ∧ ChainFrom config (firstPointer config) capabilities ∧
        Chain config [] capabilities ∧ capabilities.length ≤ maxPciCapabilities)) := by
  unfold walkCapabilities
  by_cases hlength : config.length < 0x40
  · rw [if_pos hlength]
    exact iff_of_false nofun fun h ↦ absurd hlength (Nat.not_lt.mpr h.1)
  rw [if_neg hlength, and_iff_right (Nat.not_lt.mp hlength)]
  by_cases hbit : BitVec.ofNat 16 (fieldAt config 0x06 2) &&& 1#16 <<< 4 = 0
  · have hclear : ¬ hasCapabilities config := not_not.mpr hbit
    rw [if_pos hbit, Except.ok.injEq, and_iff_right hclear]
    exact ⟨fun h ↦ .inl h.symm, fun h ↦ h.elim Eq.symm fun h ↦ absurd h.1 hclear⟩
  · have hset : hasCapabilities config := hbit
    rw [if_neg hbit]
    refine ⟨fun h ↦ .inr ⟨hset, .of_walkFrom h, chain_walkFrom h⟩, ?_⟩
    rintro (⟨hclear, -⟩ | ⟨-, hfollows, hchain, hroom⟩)
    · exact absurd hset hclear
    · exact hfollows.walkFrom_eq hchain hroom

theorem Chain.nodup (h : Chain config visited capabilities) :
    (capabilities.map (·.offset)).Nodup := by
  rw [List.Nodup, List.pairwise_map]
  refine h.apart.imp fun {c d} hslot heq ↦ hslot ?_
  rw [heq]

/-- The walk ends within 17 turns without an access out of range, with the chain of pointers up to
the zero pointer. A chain with a bad or repeated pointer or with more than 16 entries is rejected.
-/
theorem capability_walk (config : Bytes) :
    (∀ fuel, maxPciCapabilities < fuel →
      walkIndexed config fuel = some (walkCapabilities config)) ∧
    (∀ capabilities, walkCapabilities config = .ok capabilities ↔
      0x40 ≤ config.length ∧ ((¬ hasCapabilities config ∧ capabilities = []) ∨
        (hasCapabilities config ∧ ChainFrom config (firstPointer config) capabilities ∧
          capabilities.length ≤ 16 ∧ (capabilities.map (·.offset)).Nodup ∧
          ∀ c ∈ capabilities, c.offset &&& 3 = 0 ∧ 0x40 ≤ c.offset.toNat ∧
            c.offset.toNat + 2 ≤ config.length))) ∧
    ∀ n q, hasCapabilities config → chase config (firstPointer config) n = some q → q ≠ 0 →
      (q &&& 3 ≠ 0 ∨ q.toNat < 0x40 ∨ config.length < q.toNat + 2 ∨ 16 ≤ n ∨
        ∃ m < n, chase config (firstPointer config) m = some q) →
      ∃ e, walkCapabilities config = .error e := by
  refine ⟨fun fuel hfuel ↦ walkIndexed_eq config hfuel, fun capabilities ↦ ?_, ?_⟩
  · rw [walkCapabilities_ok_iff]
    refine and_congr_right fun _ ↦ or_congr_right (and_congr_right fun _ ↦ and_congr_right fun _ ↦ ?_)
    constructor
    · rintro ⟨hchain, hroom⟩
      exact ⟨hroom, hchain.nodup, fun c hc ↦ ⟨hchain.aligned c hc, hchain.inside c hc⟩⟩
    · rintro ⟨hroom, hnodup, hgood⟩
      refine ⟨⟨fun c hc ↦ (hgood c hc).1, fun c hc ↦ (hgood c hc).2, fun _ _ ↦ List.not_mem_nil,
        ?_⟩, hroom⟩
      rw [List.Nodup, List.pairwise_map] at hnodup
      refine hnodup.imp_of_mem fun {c d} hc hd hne hslot ↦ hne (BitVec.eq_of_toNat_eq ?_)
      obtain ⟨hc, hlow, -⟩ := hgood c hc
      obtain ⟨hd, hlow', -⟩ := hgood d hd
      rw [aligned_iff] at hc hd
      omega
  · intro n q hset hq hne hbad
    cases hwalk : walkCapabilities config with
    | error e => exact ⟨e, rfl⟩
    | ok capabilities =>
      obtain ⟨-, ⟨hclear, -⟩ | ⟨-, hfollows, hchain, hroom⟩⟩ := walkCapabilities_ok_iff.mp hwalk
      · exact absurd hset hclear
      obtain ⟨c, hc, rfl⟩ := (hfollows.chase_eq hq).resolve_right hne
      obtain ⟨hn, -⟩ := List.getElem?_eq_some_iff.mp hc
      have hmem := List.mem_of_getElem? hc
      obtain ⟨hlow, hinside⟩ := hchain.inside c hmem
      rcases hbad with hbad | hbad | hbad | hbad | ⟨m, hm, hrepeat⟩
      · exact absurd (hchain.aligned c hmem) hbad
      · exact absurd hlow (Nat.not_le.mpr hbad)
      · exact absurd hinside (Nat.not_le.mpr hbad)
      · exact absurd (hn.trans_le hroom) (Nat.not_lt.mpr hbad)
      · obtain ⟨d, hd, hoffset⟩ := (hfollows.chase_eq hrepeat).resolve_right hne
        have hget (i : ℕ) (c : PciCapability) (h : capabilities[i]? = some c) :
            (capabilities.map (·.offset))[i]? = some c.offset := by
          rw [List.getElem?_map, h, Option.map_some]
        have heq : m = n := by
          rw [← List.getElem?_inj (by rw [List.length_map]; omega) hchain.nodup, hget m d hd,
            hget n c hc, hoffset]
        exact absurd heq hm.ne

end BraneKernel
