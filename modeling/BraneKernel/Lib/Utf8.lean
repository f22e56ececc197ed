import BraneKernel.Lib.Bytes

namespace Utf8

def encode (text : List Char) : Bytes :=
  text.flatMap fun c ↦ (String.utf8EncodeChar c).map UInt8.toBitVec

def replacement : Char := Char.ofNat 0xFFFD

def isCont (b : BitVec 8) : Bool := 0x80 ≤ b.toNat && b.toNat ≤ 0xBF

def width (b : BitVec 8) : ℕ :=
  let n := b.toNat
  if n < 0x80 then 1
  else if 0xC2 ≤ n ∧ n ≤ 0xDF then 2
  else if 0xE0 ≤ n ∧ n ≤ 0xEF then 3
  else if 0xF0 ≤ n ∧ n ≤ 0xF4 then 4
  else 0

/-- The second bytes that keep a sequence of three or four bytes shortest, out
of the surrogates and in the Unicode range. -/
def secondOk (lead b : BitVec 8) : Bool :=
  let n := b.toNat
  match lead.toNat with
  | 0xE0 => 0xA0 ≤ n && n ≤ 0xBF
  | 0xED => 0x80 ≤ n && n ≤ 0x9F
  | 0xF0 => 0x90 ≤ n && n ≤ 0xBF
  | 0xF4 => 0x80 ≤ n && n ≤ 0x8F
  | _ => 0x80 ≤ n && n ≤ 0xBF

def scalar (lead : ℕ) (conts : List (BitVec 8)) : Char :=
  Char.ofNat (conts.foldl (fun acc b ↦ acc * 64 + b.toNat % 64) lead)

/-- The first character of a non-empty input and what is left after it. An
invalid sequence is consumed up to the byte that breaks it. -/
def next (lead : BitVec 8) (rest : Bytes) : Char × Bytes :=
  match width lead, rest with
  | 1, _ => (scalar lead.toNat [], rest)
  | 2, b :: rest =>
    if isCont b then (scalar (lead.toNat % 32) [b], rest) else (replacement, b :: rest)
  | 3, b :: rest =>
    if secondOk lead b then
      match rest with
      | c :: rest =>
        if isCont c then (scalar (lead.toNat % 16) [b, c], rest) else (replacement, c :: rest)
      | [] => (replacement, [])
    else (replacement, b :: rest)
  | 4, b :: rest =>
    if secondOk lead b then
      match rest with
      | c :: rest =>
        if isCont c then
          match rest with
          | d :: rest =>
            if isCont d then (scalar (lead.toNat % 8) [b, c, d], rest) else (replacement, d :: rest)
          | [] => (replacement, [])
        else (replacement, c :: rest)
      | [] => (replacement, [])
    else (replacement, b :: rest)
  | _, rest => (replacement, rest)

def lossyLoop : ℕ → Bytes → List Char
  | 0, _ => []
  | _ + 1, [] => []
  | fuel + 1, lead :: rest => (next lead rest).1 :: lossyLoop fuel (next lead rest).2

/-- Decode with a replacement character for every maximal invalid sequence. Each
character takes at least one byte, so the length is enough fuel. -/
def fromUtf8Lossy (bytes : Bytes) : List Char := lossyLoop bytes.length bytes

def encodeChar (c : Char) : Bytes := (String.utf8EncodeChar c).map UInt8.toBitVec

theorem encode_cons (c : Char) (text : List Char) :
    encode (c :: text) = encodeChar c ++ encode text :=
  rfl

variable {b : BitVec 8} {text : List Char} {bytes : Bytes} {lead : BitVec 8}

theorem secondOk_iff : secondOk lead b = true ↔
    0x80 ≤ b.toNat ∧ b.toNat ≤ 0xBF ∧ (lead.toNat = 0xE0 → 0xA0 ≤ b.toNat) ∧
      (lead.toNat = 0xED → b.toNat ≤ 0x9F) ∧ (lead.toNat = 0xF0 → 0x90 ≤ b.toNat) ∧
      (lead.toNat = 0xF4 → b.toNat ≤ 0x8F) := by
  unfold secondOk
  dsimp only
  split <;> grind

theorem isCont_iff : isCont b = true ↔ 0x80 ≤ b.toNat ∧ b.toNat ≤ 0xBF := by
  rw [isCont, Bool.and_eq_true, decide_eq_true_eq, decide_eq_true_eq]

theorem next_one (h : width lead = 1) (rest : Bytes) :
    next lead rest = (scalar lead.toNat [], rest) := by
  unfold next
  rw [h]
  cases rest <;> rfl

theorem next_two (h : width lead = 2) (hb : isCont b = true) (rest : Bytes) :
    next lead (b :: rest) = (scalar (lead.toNat % 32) [b], rest) := by
  unfold next
  rw [h]
  exact if_pos hb

theorem next_three {c : BitVec 8} (h : width lead = 3) (hb : secondOk lead b = true)
    (hc : isCont c = true) (rest : Bytes) :
    next lead (b :: c :: rest) = (scalar (lead.toNat % 16) [b, c], rest) := by
  unfold next
  rw [h]
  simp only [hb, hc, if_true]

theorem next_four {c d : BitVec 8} (h : width lead = 4) (hb : secondOk lead b = true)
    (hc : isCont c = true) (hd : isCont d = true) (rest : Bytes) :
    next lead (b :: c :: d :: rest) = (scalar (lead.toNat % 8) [b, c, d], rest) := by
  unfold next
  rw [h]
  simp only [hb, hc, hd, if_true]

theorem scalar_eq {c : Char} {lead : ℕ} {conts : List (BitVec 8)}
    (h : conts.foldl (fun acc b ↦ acc * 64 + b.toNat % 64) lead = c.toNat) :
    scalar lead conts = c := by
  rw [scalar, h, Char.ofNat_toNat]

theorem toNat_ofNat8 {n : ℕ} (h : n < 256) : (UInt8.ofNat n).toBitVec.toNat = n :=
  Nat.mod_eq_of_lt h

theorem next_encodeChar (c : Char) (rest : Bytes) : ∃ lead conts,
    encodeChar c = lead :: conts ∧ next lead (conts ++ rest) = (c, rest) := by
  have hvalid : c.toNat < 0xD800 ∨ 0xDFFF < c.toNat ∧ c.toNat < 0x110000 := c.valid
  have hval : c.val.toNat = c.toNat := rfl
  rw [encodeChar, String.utf8EncodeChar, hval]
  split_ifs with h1 h2 h3
  · have hlead : (UInt8.ofNat c.toNat).toBitVec.toNat = c.toNat := toNat_ofNat8 (by omega)
    refine ⟨_, _, rfl, ?_⟩
    rw [next_one (by rw [width, hlead]; grind), hlead]
    exact Prod.ext (scalar_eq rfl) rfl
  · have hlead : (UInt8.ofNat (c.toNat / 64 % 32 + 192)).toBitVec.toNat = c.toNat / 64 % 32 + 192 :=
      toNat_ofNat8 (by omega)
    have hb : (UInt8.ofNat (c.toNat % 64 + 128)).toBitVec.toNat = c.toNat % 64 + 128 :=
      toNat_ofNat8 (by omega)
    refine ⟨_, _, rfl, ?_⟩
    rw [List.map_cons, List.map_nil, List.cons_append, List.nil_append,
      next_two (by rw [width, hlead]; grind) (by rw [isCont_iff, hb]; omega)]
    rw [scalar_eq]
    rw [hlead, List.foldl_cons, List.foldl_nil, hb]
    omega
  · have hlead := toNat_ofNat8 (n := c.toNat / 4096 % 16 + 224) (by omega)
    have hb := toNat_ofNat8 (n := c.toNat / 64 % 64 + 128) (by omega)
    have hc := toNat_ofNat8 (n := c.toNat % 64 + 128) (by omega)
    refine ⟨_, _, rfl, ?_⟩
    simp only [List.map_cons, List.map_nil, List.cons_append, List.nil_append]
    rw [next_three (by rw [width, hlead]; grind) (by rw [secondOk_iff, hlead, hb]; omega)
      (by rw [isCont_iff, hc]; omega), scalar_eq]
    rw [hlead, List.foldl_cons, List.foldl_cons, List.foldl_nil, hb, hc]
    omega
  · have hlead := toNat_ofNat8 (n := c.toNat / 262144 % 8 + 240) (by omega)
    have hb := toNat_ofNat8 (n := c.toNat / 4096 % 64 + 128) (by omega)
    have hc := toNat_ofNat8 (n := c.toNat / 64 % 64 + 128) (by omega)
    have hd := toNat_ofNat8 (n := c.toNat % 64 + 128) (by omega)
    refine ⟨_, _, rfl, ?_⟩
    simp only [List.map_cons, List.map_nil, List.cons_append, List.nil_append]
    rw [next_four (by rw [width, hlead]; grind) (by rw [secondOk_iff, hlead, hb]; omega)
      (by rw [isCont_iff, hc]; omega) (by rw [isCont_iff, hd]; omega), scalar_eq]
    rw [hlead, List.foldl_cons, List.foldl_cons, List.foldl_cons, List.foldl_nil, hb, hc, hd]
    omega

theorem lossyLoop_encode (text : List Char) {fuel : ℕ} (h : (encode text).length ≤ fuel) :
    lossyLoop fuel (encode text) = text := by
  induction text generalizing fuel with
  | nil => cases fuel <;> rfl
  | cons c text ih =>
    obtain ⟨lead, conts, hc, hnext⟩ := next_encodeChar c (encode text)
    rw [encode_cons, hc, List.cons_append] at h ⊢
    rw [List.length_cons, List.length_append] at h
    obtain ⟨fuel, rfl⟩ : ∃ n, fuel = n + 1 := ⟨fuel - 1, by omega⟩
    rw [lossyLoop, hnext, ih (by omega)]

theorem fromUtf8Lossy_encode (text : List Char) : fromUtf8Lossy (encode text) = text :=
  lossyLoop_encode text (Nat.le_refl _)

theorem encode_append (a b : List Char) : encode (a ++ b) = encode a ++ encode b :=
  List.flatMap_append

theorem eq_nil_of_length_encode (h : (encode text).length = 0) : text = [] := by
  cases text with
  | nil => rfl
  | cons c text =>
    obtain ⟨lead, conts, hc, -⟩ := next_encodeChar c []
    rw [encode_cons, hc] at h
    exact absurd h (Nat.succ_ne_zero _)

theorem prefix_of_length_encode_le {a b : List Char} (ha : a <+: text) (hb : b <+: text)
    (h : (encode a).length ≤ (encode b).length) : a <+: b := by
  rcases List.prefix_or_prefix_of_prefix ha hb with hab | ⟨rest, rfl⟩
  · exact hab
  · rw [encode_append, List.length_append] at h
    have hrest : rest = [] := eq_nil_of_length_encode (by omega)
    rw [hrest, List.append_nil]

def Valid (bytes : Bytes) : Prop := ∃ text, encode text = bytes

theorem Valid.encode_fromUtf8Lossy (h : Valid bytes) :
    encode (fromUtf8Lossy bytes) = bytes := by
  obtain ⟨text, rfl⟩ := h
  rw [fromUtf8Lossy_encode]

def fromUtf8 (bytes : Bytes) : Option (List Char) :=
  if encode (fromUtf8Lossy bytes) = bytes then some (fromUtf8Lossy bytes) else none

theorem fromUtf8_encode (text : List Char) : fromUtf8 (encode text) = some text := by
  rw [fromUtf8, fromUtf8Lossy_encode, if_pos rfl]

theorem encode_of_fromUtf8 (h : fromUtf8 bytes = some text) :
    encode text = bytes := by
  rw [fromUtf8] at h
  split_ifs at h with hvalid
  rwa [Option.some_inj.mp h] at hvalid

theorem encode_injective : Function.Injective encode := by
  intro a b h
  have hread := congrArg fromUtf8 h
  rwa [fromUtf8_encode, fromUtf8_encode, Option.some_inj] at hread

theorem Valid.fromUtf8_eq (h : Valid bytes) :
    fromUtf8 bytes = some (fromUtf8Lossy bytes) :=
  if_pos h.encode_fromUtf8Lossy

theorem encodeChar_ofNat (h : b.toNat < 0x80) :
    encodeChar (Char.ofNat b.toNat) = [b] := by
  have hvalid : b.toNat.isValidChar := .inl (by omega)
  have hval : (Char.ofNat b.toNat).val.toNat = b.toNat := by
    rw [Char.ofNat, dif_pos hvalid]
    rfl
  rw [encodeChar, String.utf8EncodeChar]
  simp only [hval]
  rw [if_pos (by omega), List.map_singleton]
  apply congrArg (fun x ↦ [x])
  apply BitVec.eq_of_toNat_eq
  rw [toNat_ofNat8 (by omega)]

theorem le_of_mem_encodeChar {c : Char} (hc : 0x80 ≤ c.toNat) (h : b ∈ encodeChar c) :
    0x80 ≤ b.toNat := by
  have hval : c.val.toNat = c.toNat := rfl
  rw [encodeChar, List.mem_map] at h
  obtain ⟨byte, hbyte, rfl⟩ := h
  rw [String.utf8EncodeChar, hval, if_neg (by omega)] at hbyte
  have hcont (n : ℕ) : 0x80 ≤ (UInt8.ofNat (n % 64 + 128)).toBitVec.toNat := by
    rw [toNat_ofNat8 (by omega)]
    omega
  split_ifs at hbyte with h2 h3
  · obtain rfl | rfl := List.mem_pair.mp hbyte
    · rw [toNat_ofNat8 (by omega)]
      omega
    · apply hcont
  · simp only [List.mem_cons, List.not_mem_nil, or_false] at hbyte
    obtain rfl | rfl | rfl := hbyte
    · rw [toNat_ofNat8 (by omega)]
      omega
    · apply hcont
    · apply hcont
  · simp only [List.mem_cons, List.not_mem_nil, or_false] at hbyte
    obtain rfl | rfl | rfl | rfl := hbyte
    · rw [toNat_ofNat8 (by omega)]
      omega
    · apply hcont
    · apply hcont
    · apply hcont

theorem mem_encode_iff (hb : b.toNat < 0x80) :
    b ∈ encode text ↔ Char.ofNat b.toNat ∈ text := by
  constructor
  · intro h
    obtain ⟨c, hc, hbyte⟩ := List.mem_flatMap.mp h
    by_cases hascii : c.toNat < 0x80
    · have hsame : (BitVec.ofNat 8 c.toNat).toNat = c.toNat := by
        rw [BitVec.toNat_ofNat]
        omega
      have hone : encodeChar c = [BitVec.ofNat 8 c.toNat] := by
        rw [← encodeChar_ofNat (hsame.symm ▸ hascii), hsame, Char.ofNat_toNat]
      have hmem : b ∈ encodeChar c := hbyte
      rw [hone, List.mem_singleton] at hmem
      rwa [hmem, hsame, Char.ofNat_toNat]
    · have hle := le_of_mem_encodeChar (Nat.not_lt.mp hascii) hbyte
      omega
  · intro h
    have hbyte : b ∈ encodeChar (Char.ofNat b.toNat) := by
      rw [encodeChar_ofNat hb]
      exact List.mem_singleton_self b
    exact List.mem_flatMap.mpr ⟨_, h, hbyte⟩

theorem valid_of_ascii (h : ∀ b ∈ bytes, b.toNat < 0x80) : Valid bytes := by
  induction bytes with
  | nil => exact ⟨[], rfl⟩
  | cons b bytes ih =>
    rw [List.forall_mem_cons] at h
    obtain ⟨text, htext⟩ := ih h.2
    refine ⟨Char.ofNat b.toNat :: text, ?_⟩
    rw [encode_cons, encodeChar_ofNat h.1, htext, List.singleton_append]

end Utf8
