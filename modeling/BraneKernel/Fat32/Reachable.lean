import BraneKernel.Fat32.Lookup
import Mathlib.Data.List.Pairwise

namespace BraneKernel

open DirectoryRecord

/-- A listed name that is one component of a path, and not one of the two that are refused. -/
def Resolvable (raw : Bytes) : Prop :=
  slash ∉ base raw ++ listedExtension raw ∧
    ¬ (listedExtension raw = [] ∧ (base raw = [dot] ∨ base raw = [dot, dot]))

instance (raw : Bytes) : Decidable (Resolvable raw) := inferInstanceAs (Decidable (_ ∧ _))

theorem SameIgnoringCase.eq_of_signs {left right : Bytes} (h : SameIgnoringCase left right)
    (hsigns : ∀ b ∈ right, b.toNat < 0x41) : left = right := by
  induction right generalizing left with
  | nil => exact List.map_eq_nil_iff.mp h
  | cons b right ih =>
    rw [List.forall_mem_cons] at hsigns
    cases left with
    | nil => simp [SameIgnoringCase] at h
    | cons a left =>
      rw [SameIgnoringCase, List.map_cons, List.map_cons, List.cons.injEq] at h
      have hb := (toAsciiLowercase_eq_iff (.inl hsigns.1)).mpr (rfl : b = b)
      rw [hb, toAsciiLowercase_eq_iff (.inl hsigns.1)] at h
      rw [h.1, ih h.2 hsigns.2]

theorem SameIgnoringCase.slash_mem {left right : Bytes} (h : SameIgnoringCase left right)
    (hleft : slash ∈ left) : slash ∈ right := by
  have hlower : slash ∈ left.map toAsciiLowercase := List.mem_map.mpr ⟨slash, hleft, rfl⟩
  rw [h] at hlower
  obtain ⟨b, hb, hslash⟩ := List.mem_map.mp hlower
  rwa [← (toAsciiLowercase_eq_iff (.inl (by decide))).mp hslash]

namespace DirectoryRecord

theorem resolvable_iff {raw : Bytes} {record : DirectoryRecord} (h : parse raw = some record)
    (hvalid : ValidShortName raw) :
    (slash ∉ record.name ∧ record.name ≠ [dot] ∧ record.name ≠ [dot, dot]) ↔ Resolvable raw := by
  obtain ⟨hname, hne⟩ := parse_valid h hvalid
  rw [Resolvable, hname, List.mem_append, List.mem_append, not_or, not_or]
  cases listedExtension raw with
  | nil => simp [dotted]
  | cons b extension =>
    have hlong : 2 < (base raw ++ dotted (b :: extension)).length := by
      have hpos := List.length_pos_iff.mpr hne
      rw [dotted, List.length_append, List.length_cons, List.length_cons]
      omega
    have hone : base raw ++ dotted (b :: extension) ≠ [dot] := by
      intro heq
      rw [heq] at hlong
      exact absurd hlong (by decide)
    have htwo : base raw ++ dotted (b :: extension) ≠ [dot, dot] := by
      intro heq
      rw [heq] at hlong
      exact absurd hlong (by decide)
    have hslash : slash ∉ dotted (b :: extension) ↔ slash ∉ b :: extension := by
      rw [dotted, List.mem_cons, not_or]
      exact and_iff_right (by decide)
    rw [hslash]
    simp [hone, htwo]

theorem slash_mem_nameStr {raw : Bytes} {record : DirectoryRecord} (h : parse raw = some record) :
    '/' ∈ record.nameStr ↔ slash ∈ record.name := by
  rw [← encode_nameStr h, Utf8.mem_encode_iff (by decide)]
  rfl

end DirectoryRecord

namespace Fat32Fs

variable {fs : Fat32Fs} {start : U32}

namespace DirectoryChain

variable (chain : fs.DirectoryChain start)

def entries : List Bytes :=
  (beforeEnd chain.slots).filter fun raw ↦ (parse raw).isSome

theorem mem_records_iff {record : DirectoryRecord} :
    record ∈ chain.records ↔ ∃ raw ∈ chain.entries, parse raw = some record := by
  rw [records, List.mem_filterMap]
  constructor
  · rintro ⟨raw, hraw, hparse⟩
    exact ⟨raw, List.mem_filter.mpr ⟨hraw, by rw [hparse]; rfl⟩, hparse⟩
  · rintro ⟨raw, hraw, hparse⟩
    exact ⟨raw, (List.mem_filter.mp hraw).1, hparse⟩

theorem records_eq : chain.records = chain.entries.filterMap parse := by
  rw [records, entries, List.filterMap_filter]
  apply List.filterMap_congr
  intro raw _
  cases parse raw <;> rfl

theorem pairwise_names_iff (hvalid : ∀ raw ∈ chain.entries, ValidShortName raw) :
    chain.records.Pairwise (fun r r' ↦ ¬ SameIgnoringCase r.name r'.name) ↔
      chain.entries.Pairwise fun a b ↦ ¬ Clash a b := by
  rw [records_eq, List.pairwise_filterMap]
  apply List.Pairwise.iff_of_mem
  intro a b ha hb
  obtain ⟨r, hr⟩ := Option.isSome_iff_exists.mp (List.mem_filter.mp ha).2
  obtain ⟨r', hr'⟩ := Option.isSome_iff_exists.mp (List.mem_filter.mp hb).2
  rw [← same_name_iff hr hr' (hvalid a ha) (hvalid b hb)]
  constructor
  · intro h
    exact h r hr r' hr'
  · intro h x hx y hy
    obtain rfl := Option.some.inj (hr.symm.trans hx)
    obtain rfl := Option.some.inj (hr'.symm.trans hy)
    exact h

theorem find_name {record : DirectoryRecord} (hmem : record ∈ chain.records)
    (hdistinct : chain.records.Pairwise fun r r' ↦ ¬ SameIgnoringCase r.name r'.name) :
    chain.records.find? (fun r ↦ decide (SameIgnoringCase r.name record.name)) = some record := by
  have hself : decide (SameIgnoringCase record.name record.name) = true := decide_eq_true rfl
  obtain ⟨found, hfound⟩ : ∃ found, chain.records.find? (fun r ↦
      decide (SameIgnoringCase r.name record.name)) = some found :=
    Option.isSome_iff_exists.mp (List.find?_isSome.mpr ⟨record, hmem, hself⟩)
  have hsame : SameIgnoringCase found.name record.name := by
    have hdecide := List.find?_some hfound
    exact of_decide_eq_true hdecide
  have hequal : found = record := by
    by_contra hne
    have hsymm : Std.Symm fun r r' : DirectoryRecord ↦ ¬ SameIgnoringCase r.name r'.name :=
      ⟨fun r r' h hback ↦ h hback.symm⟩
    exact hdistinct.forall (List.mem_of_find?_eq_some hfound) hmem hne hsame
  rw [hfound, hequal]

end DirectoryChain

section Path

variable {path : List Char} {raw : Bytes} {record : DirectoryRecord}

theorem name_of_resolvePath (hparse : parse raw = some record)
    (h : fs.resolvePath path = some (.ok (some record))) :
    slash ∉ record.name ∧ record.name ≠ [dot] ∧ record.name ≠ [dot, dot] := by
  rw [resolvePath] at h
  split_ifs at h
  · simp at h
  · simp at h
  · have hne : Path.components '/' path ≠ [] := by
      intro hnil
      rw [hnil] at h
      simp [resolveComponents] at h
    obtain ⟨last, hlast, ⟨hdot, hdots, -⟩, hname⟩ := namesEqual_of_resolveComponents hne h
    rw [namesEqual_iff, encode_nameStr hparse] at hname
    refine ⟨?_, ?_, ?_⟩
    · intro hslash
      have hin := (Utf8.mem_encode_iff (by decide)).mp (hname.slash_mem hslash)
      exact Path.not_mem_of_mem_components hlast hin
    · intro heq
      rw [heq] at hname
      have hencode : Utf8.encode last = Utf8.encode ['.'] :=
        SameIgnoringCase.eq_of_signs hname.symm (by decide)
      exact hdot (Utf8.encode_injective hencode)
    · intro heq
      rw [heq] at hname
      have hencode : Utf8.encode last = Utf8.encode ['.', '.'] :=
        SameIgnoringCase.eq_of_signs hname.symm (by decide)
      exact hdots (Utf8.encode_injective hencode)

theorem resolvePath_nameStr_iff (hpath : fs.directoryCluster path = some (.ok start))
    (chain : fs.DirectoryChain start) (hparse : parse raw = some record)
    (hvalid : ValidShortName raw) :
    fs.resolvePath (path ++ '/' :: record.nameStr) = some (.ok (some record)) ↔
      Resolvable raw ∧ chain.records.find? (fun r ↦ SameIgnoringCase r.name record.name) =
        some record := by
  have hfinds (hname : slash ∉ record.name ∧ record.name ≠ [dot] ∧ record.name ≠ [dot, dot]) :
      fs.resolvePath (path ++ '/' :: record.nameStr) = some (.ok (some record)) ↔
        chain.records.find? (fun r ↦ SameIgnoringCase r.name record.name) = some record := by
    obtain ⟨hslash, hdot, hdots⟩ := hname
    have hencode := encode_nameStr hparse
    have hne : record.nameStr ≠ [] := by
      intro hnil
      obtain ⟨hname, hbase⟩ := parse_valid hparse hvalid
      rw [hnil] at hencode
      rw [← hencode] at hname
      exact hbase (List.append_eq_nil_iff.mp hname.symm).1
    have hallowed : Allowed record.nameStr := by
      refine ⟨?_, ?_, ?_⟩
      · intro heq
        exact hdot (by rw [← hencode, heq]; rfl)
      · intro heq
        exact hdots (by rw [← hencode, heq]; rfl)
      · rw [hencode]
        exact length_name_le hparse hvalid
    have hplain : '/' ∉ record.nameStr := by rwa [slash_mem_nameStr hparse]
    obtain ⟨current, hlookup⟩ := resolvePath_append hpath hplain hne
    rw [hlookup, resolveComponents_cons hallowed, chain.findEntry_eq, hencode, Option.bind_some]
    cases chain.records.find? fun r ↦ SameIgnoringCase r.name record.name <;> simp
  rw [← resolvable_iff hparse hvalid]
  constructor
  · intro h
    have hname := name_of_resolvePath hparse h
    exact ⟨hname, (hfinds hname).mp h⟩
  · rintro ⟨hname, hfind⟩
    exact (hfinds hname).mpr hfind

end Path

/-- Two valid entries are listed under different names exactly when they do not clash. The
listed name of a valid entry resolves to it exactly when a path can hold the name and no other
entry is found first. In a directory of valid entries, the listed names are distinct and each
resolves to its entry exactly when no two clash and a path can hold every one of them. -/
theorem entries_reachable_iff (fs : Fat32Fs) (path : List Char) (start : U32)
    (hpath : fs.directoryCluster path = some (.ok start)) (chain : fs.DirectoryChain start) :
    (∀ a ∈ chain.entries, ∀ b ∈ chain.entries, ValidShortName a → ValidShortName b →
      ∀ r r', parse a = some r → parse b = some r' →
        (¬ SameIgnoringCase r.name r'.name ↔ ¬ Clash a b)) ∧
    (∀ raw ∈ chain.entries, ValidShortName raw →
      ∀ record, parse raw = some record →
        (fs.resolvePath (path ++ '/' :: record.nameStr) = some (.ok (some record)) ↔
          Resolvable raw ∧ chain.records.find? (fun r ↦ SameIgnoringCase r.name record.name) =
            some record)) ∧
    ((∀ raw ∈ chain.entries, ValidShortName raw) →
      (chain.records.Pairwise (fun r r' ↦ ¬ SameIgnoringCase r.name r'.name) ∧
          (∀ record ∈ chain.records,
            fs.resolvePath (path ++ '/' :: record.nameStr) = some (.ok (some record))) ↔
        chain.entries.Pairwise (fun a b ↦ ¬ Clash a b) ∧
          ∀ raw ∈ chain.entries, Resolvable raw)) := by
  refine ⟨?_, fun raw _ hvalid record hparse ↦ resolvePath_nameStr_iff hpath chain hparse hvalid,
    fun hvalid ↦ ?_⟩
  · intro a _ b _ ha hb r r' hr hr'
    rw [same_name_iff hr hr' ha hb]
  · rw [← chain.pairwise_names_iff hvalid]
    apply and_congr_right
    intro hdistinct
    constructor
    · intro hall raw hraw
      obtain ⟨record, hparse⟩ := Option.isSome_iff_exists.mp (List.mem_filter.mp hraw).2
      have hmem := chain.mem_records_iff.mpr ⟨raw, hraw, hparse⟩
      exact ((resolvePath_nameStr_iff hpath chain hparse (hvalid raw hraw)).mp (hall record hmem)).1
    · intro hall record hrecord
      obtain ⟨raw, hraw, hparse⟩ := chain.mem_records_iff.mp hrecord
      exact (resolvePath_nameStr_iff hpath chain hparse (hvalid raw hraw)).mpr
        ⟨hall raw hraw, chain.find_name hrecord hdistinct⟩

theorem entries_reachable_iff_files :
    let fs := rootVolume (emptyEntry [0x41, 32, 32, 32, 32, 32, 32, 32, 0x42, 32, 32] 0x20 3 ++
      emptyEntry [0x43, 32, 32, 32, 32, 32, 32, 32, 32, 32, 32] 0x20 4)
    fs.resolvePath ['/', 'A', '.', 'B'] = some (.ok (some ⟨[0x41, 0x2E, 0x42], .file, 3, 0⟩)) ∧
      fs.resolvePath ['/', 'C'] = some (.ok (some ⟨[0x43], .file, 4, 0⟩)) := by
  intro fs
  have hvalid : ∀ raw ∈ (rootChain _ : fs.DirectoryChain 2).entries, ValidShortName raw := by
    decide +kernel
  have hreach := (((entries_reachable_iff fs [] 2 (by decide) (rootChain _)).2.2 hvalid).mpr
    ⟨by decide +kernel, by decide +kernel⟩).2
  exact ⟨hreach ⟨[0x41, 0x2E, 0x42], .file, 3, 0⟩ (by decide +kernel),
    hreach ⟨[0x43], .file, 4, 0⟩ (by decide +kernel)⟩

/-- The directories `FOO.BAR` and `FOO.BAZ` are both listed as `FOO`, and the name finds the first
of them only. -/
theorem directories_share_listed_name :
    let bar : Bytes := [0x46, 0x4F, 0x4F, 32, 32, 32, 32, 32, 0x42, 0x41, 0x52]
    let baz : Bytes := [0x46, 0x4F, 0x4F, 32, 32, 32, 32, 32, 0x42, 0x41, 0x5A]
    let fs := rootVolume (emptyEntry bar 0x10 3 ++ emptyEntry baz 0x10 4)
    ValidShortName bar ∧ ValidShortName baz ∧ ¬ SameIgnoringCase bar baz ∧
      fs.readdir ['/'] (List.replicate 2 ⟨[], .device⟩) =
        some ([⟨[0x46, 0x4F, 0x4F], .directory⟩, ⟨[0x46, 0x4F, 0x4F], .directory⟩], .ok 2) ∧
      fs.findEntry 2 ['F', 'O', 'O'] = some (.ok (some ⟨[0x46, 0x4F, 0x4F], .directory, 3, 0⟩)) := by
  decide +kernel

end Fat32Fs

end BraneKernel
