import BraneKernel.Vfs.Mount

namespace BraneKernel.VfsManager

open Path (components Boundary)

variable {φ : Type} {path : List Char}

inductive Best (path : List Char) (seen : List (MountPoint φ)) :
    Option (MountPoint φ × List Char) × ℕ → Prop
  | none (h : ∀ mp ∈ seen, ¬ mp.pathStr <+: path) : Best path seen (none, 0)
  | some {mp : MountPoint φ} {rest : List Char} (hmem : mp ∈ seen)
      (hpath : path = mp.pathStr ++ rest)
      (hlongest : ∀ mp' ∈ seen, mp'.pathStr <+: path → mp'.pathStr <+: mp.pathStr) :
      Best path seen
        (some (mp, if rest = [] then ['/'] else rest), (Utf8.encode mp.pathStr).length)

variable {best : Option (MountPoint φ × List Char) × ℕ} {mp : MountPoint φ}

theorem consider_skip (h : ¬ (mp.pathStr <+: path ∧ best.2 ≤ (Utf8.encode mp.pathStr).length)) :
    consider path best mp = best := by
  rw [consider]
  dsimp only
  rw [if_neg]
  rwa [Bool.and_eq_true, List.isPrefixOf_iff_prefix, decide_eq_true_eq]

theorem consider_take {rest : List Char} (hpath : path = mp.pathStr ++ rest)
    (h : best.2 ≤ (Utf8.encode mp.pathStr).length) :
    consider path best mp =
      (some (mp, if rest = [] then ['/'] else rest), (Utf8.encode mp.pathStr).length) := by
  have hlead : mp.pathStr <+: path := ⟨rest, hpath.symm⟩
  rw [consider]
  dsimp only
  rw [if_pos, hpath, List.drop_left]
  rw [Bool.and_eq_true, List.isPrefixOf_iff_prefix, decide_eq_true_eq]
  exact ⟨hlead, h⟩

theorem longest_snoc {seen : List (MountPoint φ)} {best : MountPoint φ}
    (hseen : ∀ mp' ∈ seen, mp'.pathStr <+: path → mp'.pathStr <+: best.pathStr)
    (hmp : mp.pathStr <+: path → mp.pathStr <+: best.pathStr) :
    ∀ mp' ∈ seen ++ [mp], mp'.pathStr <+: path → mp'.pathStr <+: best.pathStr := by
  rw [List.forall_mem_append, List.forall_mem_singleton]
  exact ⟨hseen, hmp⟩

theorem Best.consider {seen : List (MountPoint φ)} (h : Best path seen best) (mp : MountPoint φ) :
    Best path (seen ++ [mp]) (consider path best mp) := by
  by_cases hlead : mp.pathStr <+: path
  · obtain ⟨rest, hrest⟩ := id hlead
    have hmp : mp ∈ seen ++ [mp] := List.mem_append_right _ List.mem_cons_self
    cases h with
    | none hnone =>
      rw [consider_take hrest.symm (Nat.zero_le _)]
      refine .some hmp hrest.symm (longest_snoc ?_ fun _ ↦ List.prefix_rfl)
      intro mp' hseen hbegins
      exact absurd hbegins (hnone mp' hseen)
    | @some old oldRest hmem hpath hlongest =>
      have hold : old.pathStr <+: path := ⟨oldRest, hpath.symm⟩
      by_cases hlen : (Utf8.encode old.pathStr).length ≤ (Utf8.encode mp.pathStr).length
      · have hle := Utf8.prefix_of_length_encode_le hold hlead hlen
        rw [consider_take hrest.symm hlen]
        refine .some hmp hrest.symm (longest_snoc ?_ fun _ ↦ List.prefix_rfl)
        intro mp' hseen hbegins
        exact (hlongest mp' hseen hbegins).trans hle
      · have hle := Utf8.prefix_of_length_encode_le hlead hold (Nat.le_of_not_le hlen)
        rw [consider_skip (fun hboth ↦ hlen hboth.2)]
        exact .some (List.mem_append_left _ hmem) hpath (longest_snoc hlongest fun _ ↦ hle)
  · rw [consider_skip (fun hboth ↦ hlead hboth.1)]
    cases h with
    | none hnone =>
      apply Best.none
      rw [List.forall_mem_append, List.forall_mem_singleton]
      exact ⟨hnone, hlead⟩
    | some hmem hpath hlongest =>
      refine .some (List.mem_append_left _ hmem) hpath (longest_snoc hlongest ?_)
      intro hbegins
      exact absurd hbegins hlead

theorem best_foldl (mounts : List (MountPoint φ)) (path : List Char) :
    Best path mounts (mounts.foldl (VfsManager.consider path) (none, 0)) := by
  induction mounts using List.reverseRecOn with
  | nil => exact .none (by simp)
  | append_singleton mounts mp ih =>
    rw [List.foldl_append, List.foldl_cons, List.foldl_nil]
    exact ih.consider mp

/-- The mount whose text is the longest that begins the path, and what follows it. -/
structure Longest (vfs : VfsManager φ) (path : List Char) (mp : MountPoint φ)
    (rest : List Char) : Prop where
  mem : mp ∈ vfs.mountPoints
  path_eq : path = mp.pathStr ++ rest
  longest : ∀ mp' ∈ vfs.mountPoints, mp'.pathStr <+: path → mp'.pathStr <+: mp.pathStr

theorem resolve_cases (vfs : VfsManager φ) (path : List Char) :
    (vfs.resolve path = none ∧ ∀ mp ∈ vfs.mountPoints, ¬ mp.pathStr <+: path) ∨
    ∃ mp rest, vfs.Longest path mp rest ∧
      vfs.resolve path = some (mp, if rest = [] then ['/'] else rest) := by
  have hbest := best_foldl vfs.mountPoints path
  rw [resolve]
  generalize vfs.mountPoints.foldl (VfsManager.consider path) (none, 0) = best at hbest
  cases hbest with
  | none hnone => exact .inl ⟨rfl, hnone⟩
  | some hmem hpath hlongest => exact .inr ⟨_, _, ⟨hmem, hpath, hlongest⟩, rfl⟩

/-- What a mount table should answer: the mount with the most components among those whose
components lead the path, and a relative path that names the others. -/
def Answers (vfs : VfsManager φ) (path : List Char) : Option (MountPoint φ × List Char) → Prop
  | none => ∀ mp ∈ vfs.mountPoints, ¬ components '/' mp.pathStr <+: components '/' path
  | some (mp, relative) => mp ∈ vfs.mountPoints ∧
      components '/' mp.pathStr <+: components '/' path ∧
      (∀ mp' ∈ vfs.mountPoints, components '/' mp'.pathStr <+: components '/' path →
        (components '/' mp'.pathStr).length ≤ (components '/' mp.pathStr).length) ∧
      components '/' relative =
        (components '/' path).drop (components '/' mp.pathStr).length

/-- The longest mount path that begins the path does not end inside a component, and a mount whose
components lead the path without its text beginning it has no more components than one whose text
does. -/
structure WholeComponents (vfs : VfsManager φ) (path : List Char) : Prop where
  longest : ∀ mp ∈ vfs.mountPoints, mp.pathStr <+: path →
    (∀ mp' ∈ vfs.mountPoints, mp'.pathStr <+: path →
      mp'.pathStr.length ≤ mp.pathStr.length) →
    Boundary '/' mp.pathStr (path.drop mp.pathStr.length)
  spelled : ∀ mp ∈ vfs.mountPoints, components '/' mp.pathStr <+: components '/' path →
    ¬ mp.pathStr <+: path → ∃ mp' ∈ vfs.mountPoints, mp'.pathStr <+: path ∧
      (components '/' mp.pathStr).length ≤ (components '/' mp'.pathStr).length

theorem components_relative (rest : List Char) :
    components '/' (if rest = [] then ['/'] else rest) = components '/' rest := by
  split_ifs with h
  · rw [h, Path.components_cons]
  · rfl

theorem length_components_le_of_begins {a b : List Char} (h : a <+: b) :
    (components '/' a).length ≤ (components '/' b).length := by
  obtain ⟨rest, rfl⟩ := h
  exact Path.length_components_le ..

namespace Longest

variable {vfs : VfsManager φ} {mp : MountPoint φ} {rest : List Char}

section

variable (h : vfs.Longest path mp rest)
include h

theorem begins : mp.pathStr <+: path := ⟨rest, h.path_eq.symm⟩

theorem drop_eq : path.drop mp.pathStr.length = rest := by
  rw [h.path_eq, List.drop_left]

theorem wholeComponents
    (hanswers : vfs.Answers path (some (mp, if rest = [] then ['/'] else rest))) :
    vfs.WholeComponents path := by
  obtain ⟨-, hleads, hmost, -⟩ := hanswers
  constructor
  · intro mp' hmp' hbegins' hmax
    have hsame : mp'.pathStr = mp.pathStr :=
      (h.longest mp' hmp' hbegins').eq_of_length_le (hmax mp h.mem h.begins)
    rw [hsame, h.drop_eq]
    apply Path.boundary_of_prefix
    rwa [← h.path_eq]
  · intro mp' hmp' hleads' _
    exact ⟨mp, h.mem, h.begins, hmost mp' hmp' hleads'⟩

theorem boundary (hwhole : vfs.WholeComponents path) :
    Boundary '/' mp.pathStr rest := by
  rw [← h.drop_eq]
  apply hwhole.longest mp h.mem h.begins
  intro mp' hmp' hbegins'
  exact (h.longest mp' hmp' hbegins').length_le

theorem length_components_le (hwhole : vfs.WholeComponents path) {mp' : MountPoint φ}
    (hmp' : mp' ∈ vfs.mountPoints) (hleads : components '/' mp'.pathStr <+: components '/' path) :
    (components '/' mp'.pathStr).length ≤ (components '/' mp.pathStr).length := by
  by_cases hbegins' : mp'.pathStr <+: path
  · exact length_components_le_of_begins (h.longest mp' hmp' hbegins')
  · obtain ⟨mp'', hmp'', hbegins'', hle⟩ := hwhole.spelled mp' hmp' hleads hbegins'
    exact hle.trans (length_components_le_of_begins (h.longest mp'' hmp'' hbegins''))

theorem answers (hwhole : vfs.WholeComponents path) :
    vfs.Answers path (some (mp, if rest = [] then ['/'] else rest)) := by
  have hsplit : components '/' path = components '/' mp.pathStr ++ components '/' rest := by
    rw [h.path_eq, Path.components_append_of_boundary (h.boundary hwhole)]
  refine ⟨h.mem, ⟨_, hsplit.symm⟩, fun mp' hmp' ↦ h.length_components_le hwhole hmp', ?_⟩
  rw [components_relative, hsplit, List.drop_left]

end

end Longest

/-- Resolution respects the components of a path exactly when the longest mount path that begins
it ends where a component ends, and no other spelling of a mount path is missed. -/
theorem resolve_components_iff (vfs : VfsManager φ) (path : List Char) :
    vfs.Answers path (vfs.resolve path) ↔ vfs.WholeComponents path := by
  rcases vfs.resolve_cases path with ⟨hresolve, hnone⟩ | ⟨mp, rest, hlongest, hresolve⟩
  · rw [hresolve]
    constructor
    · intro hanswers
      exact ⟨fun mp hmp hbegins ↦ absurd hbegins (hnone mp hmp),
        fun mp hmp hleads ↦ absurd hleads (hanswers mp hmp)⟩
    · intro hwhole mp hmp hleads
      obtain ⟨mp', hmp', hbegins, -⟩ := hwhole.spelled mp hmp hleads (hnone mp hmp)
      exact hnone mp' hmp' hbegins
  · rw [hresolve]
    exact ⟨hlongest.wholeComponents, hlongest.answers⟩

/-- With a volume on `/disk`, the path `/diskette` is taken for the file `ette` of the volume. -/
theorem resolve_inside_component :
    let vfs := ((new : VfsManager Unit).mount ['/', 'd', 'i', 's', 'k'] ()).1
    let path := ['/', 'd', 'i', 's', 'k', 'e', 't', 't', 'e']
    vfs.resolve path =
        some (⟨Utf8.encode ['/', 'd', 'i', 's', 'k'], ()⟩, ['e', 't', 't', 'e']) ∧
      ¬ vfs.Answers path (vfs.resolve path) := by
  intro vfs path
  have hresolve : vfs.resolve path =
      some (⟨Utf8.encode ['/', 'd', 'i', 's', 'k'], ()⟩, ['e', 't', 't', 'e']) := by
    decide +kernel
  refine ⟨hresolve, ?_⟩
  rw [hresolve]
  rintro ⟨-, hleads, -⟩
  exact absurd hleads (by decide +kernel)

end BraneKernel.VfsManager
