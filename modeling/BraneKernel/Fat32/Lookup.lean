import BraneKernel.Fat32.Names

namespace BraneKernel.Fat32Fs

variable {fs : Fat32Fs} {σ : Type} {visitor : σ → DirectoryRecord → σ × Bool} {I : σ → Prop}
  {s t : σ}

theorem visitSlot_invariant (h : ∀ s record, I s → I (visitor s record).1) (s : σ) (raw : Bytes)
    (hs : I s) : I (visitSlot visitor s raw).1 := by
  rw [visitSlot]
  split_ifs
  · exact hs
  · cases DirectoryRecord.parse raw with
    | none => exact hs
    | some record => exact h s record hs

theorem scanSectors_invariant (h : ∀ s record, I s → I (visitor s record).1) {firstLba : U64}
    {step : ScanStep} (n i : ℕ) (hs : I s)
    (hscan : fs.scanSectors visitor firstLba n i s = some (t, step)) : I t := by
  induction n generalizing i s with
  | zero =>
    rw [scanSectors, Option.some.injEq, Prod.mk.injEq] at hscan
    exact hscan.1 ▸ hs
  | succ n ih =>
    rw [scanSectors] at hscan
    obtain ⟨lba, -, hscan⟩ := Option.bind_eq_some_iff.mp hscan
    cases hsector : fs.readSector lba with
    | error e =>
      rw [hsector] at hscan
      simp only [Option.some.injEq, Prod.mk.injEq] at hscan
      exact hscan.1 ▸ hs
    | ok sector =>
      rw [hsector] at hscan
      dsimp only at hscan
      have hrun := Visit.run_invariant (visitSlot_invariant h)
        (Chunks.chunksExact 32 sector.1) hs
      rcases hv : Visit.run (visitSlot visitor) (Chunks.chunksExact 32 sector.1) s with ⟨u, go⟩
      rw [hv] at hscan hrun
      cases go with
      | false =>
        simp only [Option.some.injEq, Prod.mk.injEq] at hscan
        exact hscan.1 ▸ hrun
      | true => exact ih (i + 1) hrun hscan

theorem scanClusters_invariant (h : ∀ s record, I s → I (visitor s record).1)
    {result : Except Fat32Error Unit} (fuel : ℕ) (cluster : U32) (traversed : ℕ) (hs : I s)
    (hscan : fs.scanClusters visitor fuel cluster traversed s = some (t, result)) : I t := by
  induction fuel generalizing cluster traversed s with
  | zero => simp [scanClusters] at hscan
  | succ fuel ih =>
    rw [scanClusters] at hscan
    obtain ⟨first, -, hscan⟩ := Option.bind_eq_some_iff.mp hscan
    cases first with
    | error e =>
      simp only [Option.some.injEq, Prod.mk.injEq] at hscan
      exact hscan.1 ▸ hs
    | ok firstLba =>
      obtain ⟨⟨u, step⟩, hsectors, hscan⟩ := Option.bind_eq_some_iff.mp hscan
      have hu := scanSectors_invariant h _ 0 hs hsectors
      cases step with
      | finished result' =>
        simp only [Option.some.injEq, Prod.mk.injEq] at hscan
        exact hscan.1 ▸ hu
      | more =>
        dsimp only at hscan
        split_ifs at hscan
        · simp only [Option.some.injEq, Prod.mk.injEq] at hscan
          exact hscan.1 ▸ hu
        · obtain ⟨link, -, hscan⟩ := Option.bind_eq_some_iff.mp hscan
          rcases link with e | (_ | next)
          · simp only [Option.some.injEq, Prod.mk.injEq] at hscan
            exact hscan.1 ▸ hu
          · simp only [Option.some.injEq, Prod.mk.injEq] at hscan
            exact hscan.1 ▸ hu
          · exact ih next (traversed + 1) hu hscan

theorem namesEqual_of_findEntry {cluster : U32} {component : List Char} {record : DirectoryRecord}
    (h : fs.findEntry cluster component = some (.ok (some record))) :
    namesEqual record.nameStr component = true := by
  rw [findEntry] at h
  obtain ⟨⟨result, outcome⟩, hscan, h⟩ := Option.bind_eq_some_iff.mp h
  have hall : ∀ found ∈ result, namesEqual found.nameStr component = true := by
    refine scanClusters_invariant ?_ _ cluster 0 (I := fun result : Option DirectoryRecord ↦
      ∀ found ∈ result, namesEqual found.nameStr component = true) (by simp) hscan
    intro found next hfound
    rw [Visit.finder]
    split_ifs with hname
    · intro r hr
      rw [Option.mem_some_iff] at hr
      rwa [← hr]
    · exact hfound
  cases outcome with
  | error e => simp at h
  | ok =>
    simp only [Option.some.injEq, Except.ok.injEq] at h
    exact hall record h

def Allowed (component : List Char) : Prop :=
  component ≠ ['.'] ∧ component ≠ ['.', '.'] ∧ (Utf8.encode component).length ≤ 12

theorem not_allowed_iff (component : List Char) :
    (component = ['.'] ∨ component = ['.', '.'] ∨ (Utf8.encode component).length > 12) ↔
      ¬ Allowed component := by
  rw [Allowed, not_and_or, not_and_or, not_ne_iff, not_ne_iff, Nat.not_le]

section Components

variable {component : List Char} {rest : List (List Char)} {cluster : U32}
  {current : Option DirectoryRecord}

theorem resolveComponents_cons (ha : Allowed component) :
    fs.resolveComponents (component :: rest) cluster current =
      (fs.findEntry cluster component).bind fun found ↦
        match found with
        | .error _ => some (.error .ioError)
        | .ok none => some (.error .notFound)
        | .ok (some record) =>
          if rest = [] then some (.ok (some record))
          else if record.nodeType ≠ .directory then some (.error .notADirectory)
          else fs.resolveComponents rest record.firstCluster (some record) := by
  rw [resolveComponents, if_neg (by rwa [not_allowed_iff, not_not])]
  rfl

theorem resolveComponents_ok {result : Option DirectoryRecord}
    (h : fs.resolveComponents (component :: rest) cluster current = some (.ok result)) :
    Allowed component ∧ ∃ record, fs.findEntry cluster component = some (.ok (some record)) ∧
      (rest = [] ∧ result = some record ∨ rest ≠ [] ∧ record.nodeType = .directory ∧
        fs.resolveComponents rest record.firstCluster (some record) = some (.ok result)) := by
  by_cases ha : Allowed component
  · rw [resolveComponents_cons ha] at h
    obtain ⟨found, hfound, h⟩ := Option.bind_eq_some_iff.mp h
    rcases found with e | (_ | record)
    · simp at h
    · simp at h
    · refine ⟨ha, record, hfound, ?_⟩
      dsimp only at h
      split_ifs at h with hrest hdirectory
      · exact .inl ⟨hrest, (Except.ok.inj (Option.some.inj h)).symm⟩
      · simp at h
      · exact .inr ⟨hrest, not_ne_iff.mp hdirectory, h⟩
  · rw [resolveComponents, if_pos ((not_allowed_iff component).mpr ha)] at h
    simp at h

theorem namesEqual_of_resolveComponents {record : DirectoryRecord} (hne : rest ≠ [])
    (h : fs.resolveComponents rest cluster current = some (.ok (some record))) :
    ∃ last ∈ rest, Allowed last ∧ namesEqual record.nameStr last = true := by
  induction rest generalizing cluster current with
  | nil => exact absurd rfl hne
  | cons component rest ih =>
    obtain ⟨ha, found, hfound, ⟨-, hrecord⟩ | ⟨hrest, -, htail⟩⟩ := resolveComponents_ok h
    · cases hrecord
      exact ⟨component, List.mem_cons_self, ha, namesEqual_of_findEntry hfound⟩
    · obtain ⟨last, hlast, hname⟩ := ih hrest htail
      exact ⟨last, List.mem_cons_of_mem component hlast, hname⟩

theorem resolveComponents_append {record : DirectoryRecord} (last : List Char) (hne : rest ≠ [])
    (h : fs.resolveComponents rest cluster current = some (.ok (some record)))
    (hdirectory : record.nodeType = .directory) :
    fs.resolveComponents (rest ++ [last]) cluster current =
      fs.resolveComponents [last] record.firstCluster (some record) := by
  induction rest generalizing cluster current with
  | nil => exact absurd rfl hne
  | cons component rest ih =>
    obtain ⟨ha, found, hfound, ⟨rfl, hrecord⟩ | ⟨hrest, hfolder, htail⟩⟩ := resolveComponents_ok h
    · cases hrecord
      rw [List.cons_append, resolveComponents_cons ha, hfound, Option.bind_some]
      dsimp only
      rw [if_neg (by simp), if_neg (not_not.mpr hdirectory), List.nil_append]
    · rw [List.cons_append, resolveComponents_cons ha, hfound, Option.bind_some]
      dsimp only
      rw [if_neg (by simp), if_neg (not_not.mpr hfolder), ih hrest htail]

end Components

theorem eq_nil_of_resolveComponents {rest : List (List Char)} {cluster : U32}
    {current : Option DirectoryRecord}
    (h : fs.resolveComponents rest cluster current = some (.ok none)) : rest = [] := by
  induction rest generalizing cluster current with
  | nil => rfl
  | cons component rest ih =>
    obtain ⟨-, record, -, ⟨-, hrecord⟩ | ⟨hrest, -, htail⟩⟩ := resolveComponents_ok h
    · exact absurd hrecord (by simp)
    · exact absurd (ih htail) hrest

theorem resolvePath_cons (path : List Char) (hne : path ≠ []) :
    fs.resolvePath ('/' :: path) =
      fs.resolveComponents (Path.components '/' path) fs.geometry.rootCluster none := by
  rw [resolvePath, if_neg (by simpa using hne), if_neg (by simp), Path.components_cons]

variable {path : List Char}

theorem resolvePath_ok {found : Option DirectoryRecord}
    (h : fs.resolvePath path = some (.ok found)) :
    (path = [] ∨ path.head? = some '/') ∧
      fs.resolveComponents (Path.components '/' path) fs.geometry.rootCluster none =
        some (.ok found) := by
  rw [resolvePath] at h
  split_ifs at h with hroot hhead
  · rcases hroot with rfl | rfl
    · rw [Path.components_nil]
      exact ⟨.inl rfl, h⟩
    · rw [Path.components_cons, Path.components_nil]
      exact ⟨.inr rfl, h⟩
  · simp at h
  · exact ⟨.inr (not_ne_iff.mp hhead), h⟩

theorem directoryCluster_ok {start : U32} (h : fs.directoryCluster path = some (.ok start)) :
    (fs.resolvePath path = some (.ok none) ∧ start = fs.geometry.rootCluster) ∨
      ∃ record, fs.resolvePath path = some (.ok (some record)) ∧
        record.nodeType = .directory ∧ start = record.firstCluster := by
  rw [directoryCluster] at h
  obtain ⟨found, hfound, h⟩ := Option.bind_eq_some_iff.mp h
  rcases found with e | (_ | record)
  · simp at h
  · exact .inl ⟨hfound, (Except.ok.inj (Option.some.inj h)).symm⟩
  · dsimp only at h
    split_ifs at h with hdirectory
    · exact .inr ⟨record, hfound, hdirectory, (Except.ok.inj (Option.some.inj h)).symm⟩
    · simp at h

theorem resolvePath_below {name : List Char} (hpath : path = [] ∨ path.head? = some '/')
    (hname : '/' ∉ name) (hne : name ≠ []) :
    fs.resolvePath (path ++ '/' :: name) =
      fs.resolveComponents (Path.components '/' path ++ [name]) fs.geometry.rootCluster none := by
  have hone := Path.components_of_not_mem hname hne
  rcases hpath with rfl | hhead
  · rw [List.nil_append, resolvePath_cons name hne, hone, Path.components_nil, List.nil_append]
  · obtain ⟨path, rfl⟩ := List.head?_eq_some_iff.mp hhead
    rw [List.cons_append, resolvePath_cons _ (by simp), Path.components_append, hone,
      Path.components_cons]

theorem resolvePath_append {name : List Char} {start : U32}
    (h : fs.directoryCluster path = some (.ok start)) (hname : '/' ∉ name) (hne : name ≠ []) :
    ∃ current, fs.resolvePath (path ++ '/' :: name) =
      fs.resolveComponents [name] start current := by
  rcases directoryCluster_ok h with ⟨hroot, rfl⟩ | ⟨record, hrecord, hdirectory, rfl⟩
  · obtain ⟨hpath, hwalk⟩ := resolvePath_ok hroot
    rw [resolvePath_below hpath hname hne, eq_nil_of_resolveComponents hwalk, List.nil_append]
    exact ⟨none, rfl⟩
  · obtain ⟨hpath, hwalk⟩ := resolvePath_ok hrecord
    have hsome : Path.components '/' path ≠ [] := by
      intro hnil
      rw [hnil] at hwalk
      simp [resolveComponents] at hwalk
    rw [resolvePath_below hpath hname hne]
    exact ⟨some record, resolveComponents_append name hsome hwalk hdirectory⟩

end BraneKernel.Fat32Fs
