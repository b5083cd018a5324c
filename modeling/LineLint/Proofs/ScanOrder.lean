import LineLint.Proofs.PathOrder
import LineLint.Proofs.Scan

/-! # The files of a scan in order

Whatever is ignored, a scan is a list in the strict order of paths. So it is known by its members, and
these are told by four tests: there is a file, it has one of the extensions, no pattern excludes it,
and it is reached.
-/

namespace LineLint.Discovery

/-- The names lead to a file that a scan finds. -/
structure IsFound (tree : FileTree) (settings : ScanSettings)
    (patterns : List (List Exclude.Token)) (ignoring : Ignoring) (root : Path) (place : Place)
    (names : List String) : Prop where
  file : tree.HasFile place names
  extension : ∃ name, names.getLast? = some name ∧ hasExtension settings.extensions name = true
  kept : isExcluded patterns root (root.joinAll names) = false
  reached : ignoring.reaches root place names = true

variable {tree : FileTree} {settings : ScanSettings} {patterns : List (List Exclude.Token)}
  {ignoring : Ignoring} {root : Path} {place : Place}

/-- What a walk has noted is tested by its extension and by the exclude patterns. -/
theorem mem_sifted_iff {noted : List (List String)} {path : Path} :
    path ∈ sifted settings patterns root noted ↔
      ∃ names ∈ noted, (∃ name, names.getLast? = some name ∧
        hasExtension settings.extensions name = true) ∧
        isExcluded patterns root (root.joinAll names) = false ∧ path = root.joinAll names := by
  simp only [sifted, List.mem_mergeSort, List.mem_map, List.mem_filter, Bool.and_eq_true,
    Option.any_eq_true, Bool.not_eq_true']
  constructor
  · rintro ⟨names, ⟨member, extension, kept⟩, rfl⟩
    exact ⟨names, member, extension, kept, rfl⟩
  · rintro ⟨names, member, extension, kept, rfl⟩
    exact ⟨names, ⟨member, extension, kept⟩, rfl⟩

theorem mem_scan_iff_isFound {path : Path} :
    path ∈ scan tree settings patterns ignoring root place ↔
      ∃ names, IsFound tree settings patterns ignoring root place names ∧
        path = root.joinAll names := by
  rw [scan, mem_sifted_iff]
  simp only [List.mem_filter, mem_filesBelow_iff]
  constructor
  · rintro ⟨names, ⟨file, reached⟩, extension, kept, rfl⟩
    exact ⟨names, ⟨file, extension, kept, reached⟩, rfl⟩
  · rintro ⟨names, ⟨file, extension, kept, reached⟩, rfl⟩
    exact ⟨names, ⟨file, reached⟩, extension, kept, rfl⟩

/-- The paths of different files below a root, once they are sorted, are in strict order. -/
theorem pairwise_mergeSort_joinAll {files : List (List String)} (nodup : files.Nodup)
    (areNames : ∀ names ∈ files, ∀ name ∈ names, IsName name) :
    ((files.map root.joinAll).mergeSort inOrder).Pairwise Path.Before := by
  have sorted := List.pairwise_mergeSort Path.inOrder_trans Path.inOrder_total
    (files.map root.joinAll)
  -- Sorting allows equal neighbours, and different names exclude them.
  have different : ((files.map root.joinAll).mergeSort inOrder).Pairwise fun a b =>
      a.components ≠ b.components := by
    have symmetric : ∀ {a b : Path}, a.components ≠ b.components → b.components ≠ a.components :=
      Ne.symm
    rw [(List.mergeSort_perm _ _).pairwise_iff symmetric, List.pairwise_map]
    apply nodup.imp_of_mem
    intro names others member alsoMember other same
    rw [Path.components_joinAll root (areNames _ member),
      Path.components_joinAll root (areNames _ alsoMember), List.append_cancel_left_eq] at same
    exact other ((List.map_injective_iff.mpr fun _ _ => Component.name.inj) same)
  exact (sorted.and different).imp fun ⟨ordered, other⟩ => Path.before_of_inOrder ordered other

/-- What is left of different files that a walk has noted is in strict order. -/
theorem pairwise_sifted {noted : List (List String)} (nodup : noted.Nodup)
    (areNames : ∀ names ∈ noted, ∀ name ∈ names, IsName name) :
    (sifted settings patterns root noted).Pairwise Path.Before :=
  pairwise_mergeSort_joinAll (nodup.filter _) fun names member =>
    areNames names (List.mem_of_mem_filter member)

theorem pairwise_scan : (scan tree settings patterns ignoring root place).Pairwise Path.Before := by
  apply pairwise_sifted ((nodup_filesBelow tree place).filter _)
  intro names member
  exact (mem_filesBelow_iff.mp (List.mem_of_mem_filter member)).isName

/-- A list of paths in strict order is the list of a scan if it has the same members. -/
theorem eq_scan_of_mem_iff {paths : List Path} (ordered : paths.Pairwise Path.Before)
    (same : ∀ path, path ∈ paths ↔ ∃ names,
      IsFound tree settings patterns ignoring root place names ∧ path = root.joinAll names) :
    paths = scan tree settings patterns ignoring root place :=
  Path.eq_of_mem_iff ordered pairwise_scan fun path =>
    (same path).trans mem_scan_iff_isFound.symm

end LineLint.Discovery
