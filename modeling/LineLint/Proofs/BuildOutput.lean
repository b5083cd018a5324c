import LineLint.Proofs.ScanFilters
import LineLint.Text.Split

/-! # Build output

A pattern such as `**/bin/**` matches the name of a file if one of the directories in the name is
called `bin`. The last component of the name is the file itself, so it has no part in this, and the
root and what lies above it are not in the name. So the patterns that exclude files where nothing is
set leave out the files in directories called `bin` or `obj`, at any depth below the root, and no
others.
-/

namespace LineLint

namespace Exclude

variable {word text : List Char}

/-- The tokens of `**/word/**`. -/
def inDirectory (word : List Char) : List Token :=
  .anyDirectories :: (word.map .literal ++ [.literal '/', .anyDirectories])

/-- The recursive wildcard at the end of a pattern stands for whatever is left. -/
theorem isMatch_anyDirectories (text : List Char) : isMatch [.anyDirectories] text = true := by
  simp [isMatch, behindDirectories]

theorem isMatch_literals_iff {tokens : List Token} :
    isMatch (word.map .literal ++ tokens) text = true ↔
      ∃ rest, text = word ++ rest ∧ isMatch tokens rest = true := by
  induction word generalizing text with
  | nil => simp
  | cons c word ih =>
    cases text with
    | nil => simp [isMatch]
    | cons d text =>
      simp only [List.map_cons, List.cons_append, isMatch, Token.accepts, Bool.and_eq_true, ih,
        beq_iff_eq, List.cons.injEq]
      constructor
      · rintro ⟨rfl, rest, rfl, matched⟩
        exact ⟨rest, ⟨rfl, rfl⟩, matched⟩
      · rintro ⟨rest, ⟨rfl, rfl⟩, matched⟩
        exact ⟨rfl, rest, rfl, matched⟩

/-- Behind the leading wildcard the pattern asks for a word with a slash behind it. -/
theorem isMatch_word_iff :
    isMatch (word.map .literal ++ [.literal '/', .anyDirectories]) text = true ↔
      word ++ ['/'] <+: text := by
  rw [show word.map .literal ++ [.literal '/', .anyDirectories] =
    (word ++ ['/']).map .literal ++ [Token.anyDirectories] by simp, isMatch_literals_iff]
  simp only [isMatch_anyDirectories, and_true]
  exact ⟨fun ⟨rest, cut⟩ => ⟨rest, cut.symm⟩, fun ⟨rest, cut⟩ => ⟨rest, cut.symm⟩⟩

/-- The pattern `**/word/**` matches a name if one of its directories is the word. -/
theorem isMatch_inDirectory_iff (noSlash : '/' ∉ word) :
    isMatch (inDirectory word) text = true ↔ word ∈ (Text.split '/' text).dropLast := by
  rw [Text.mem_dropLast_split_iff noSlash]
  simp only [inDirectory, isMatch, List.any_eq_true, isMatch_word_iff, behindDirectories,
    List.mem_append, List.mem_cons, List.not_mem_nil, or_false, mem_behindSlashes_iff]
  constructor
  · rintro ⟨rest, (rfl | ⟨front, cut⟩) | rfl, leads⟩
    · exact .inl leads
    · exact .inr ⟨front, rest, cut, leads⟩
    · simp at leads
  · rintro (leads | ⟨front, rest, cut, leads⟩)
    · exact ⟨text, .inl (.inl rfl), leads⟩
    · exact ⟨rest, .inl (.inr ⟨front, cut⟩), leads⟩

/-- The pattern `**/word/**` matches a name if one of its directories is the word. -/
theorem isMatch_inDirectory_intercalate_iff {word : String} {names : List String}
    (noSlash : '/' ∉ word.toList) (apart : ∀ name ∈ names, '/' ∉ name.toList) :
    isMatch (inDirectory word.toList) ("/".intercalate names).toList = true ↔
      word ∈ names.dropLast := by
  rw [isMatch_inDirectory_iff noSlash]
  by_cases none : names = []
  · subst none
    simp [Text.split]
  · rw [Text.split_intercalate rfl none apart, ← List.map_dropLast, List.mem_map]
    simp [String.toList_inj]

end Exclude

/-- Whether a file that names lead to is build output: one of the directories on the way is called
`bin` or `obj`. -/
def isBuildOutput (names : List String) : Bool :=
  names.dropLast.any fun directory => directory == "bin" || directory == "obj"

/-- Only the directories of an id count: a file named `bin` is no build output. -/
theorem isBuildOutput_iff {names : List String} : isBuildOutput names = true ↔
    ∃ directory ∈ names.dropLast, directory = "bin" ∨ directory = "obj" := by
  simp [isBuildOutput]

/-- The names behind a root on the way to a file, if the file is below the root. -/
def Path.namesBelow (path root : Path) : List String :=
  ((path.componentsBelow? root).getD []).map Component.text

theorem Path.namesBelow_joinAll (root : Path) {names : List String}
    (areNames : ∀ name ∈ names, IsName name) : (root.joinAll names).namesBelow root = names := by
  have below : (root.joinAll names).componentsBelow? root = some (names.map .name) := by
    rw [componentsBelow?, components_joinAll root areNames, if_pos (by simp)]
    simp
  have text : Component.text ∘ Component.name = id := rfl
  rw [namesBelow, below, Option.getD_some, List.map_map, text, List.map_id]

theorem Path.namesBelow_self (root : Path) : root.namesBelow root = [] := by
  simp [namesBelow, componentsBelow?]

namespace Discovery

def defaultPatterns : List (List Exclude.Token) :=
  [Exclude.inDirectory "bin".toList, Exclude.inDirectory "obj".toList]

/-- The default patterns are valid, so that a scan with them cannot be refused for them. -/
theorem excludes_default : excludes ({} : ScanSettings).exclude = .ok defaultPatterns := by
  cbv

/-- The default patterns match the names of build output. -/
theorem any_isMatch_defaultPatterns {names : List String}
    (apart : ∀ name ∈ names, '/' ∉ name.toList) :
    (defaultPatterns.any fun pattern =>
      Exclude.isMatch pattern ("/".intercalate names).toList) = isBuildOutput names := by
  rw [Bool.eq_iff_iff, isBuildOutput_iff]
  simp only [defaultPatterns, List.any_cons, List.any_nil, Bool.or_false, Bool.or_eq_true]
  rw [Exclude.isMatch_inDirectory_intercalate_iff (by decide) apart,
    Exclude.isMatch_inDirectory_intercalate_iff (by decide) apart]
  constructor
  · rintro (bin | obj)
    · exact ⟨"bin", bin, .inl rfl⟩
    · exact ⟨"obj", obj, .inr rfl⟩
  · rintro ⟨_, member, rfl | rfl⟩
    · exact .inl member
    · exact .inr member

variable {w : Workspace} {settings : ScanSettings} {ignoring : Ignoring} {root : Path}
  {place : Place}

/-- The default patterns exclude build output below a root. -/
theorem isExcluded_default {names : List String} (nonempty : names ≠ [])
    (areNames : ∀ name ∈ names, IsName name) :
    isExcluded defaultPatterns root (root.joinAll names) = isBuildOutput names := by
  rw [isExcluded, Path.idBelow_joinAll root nonempty areNames,
    any_isMatch_defaultPatterns fun name member => (areNames name member).2.2.2]

theorem scan_default {exclude : List String} :
    scan w.tree { settings with exclude := exclude } defaultPatterns ignoring root place =
      (scan w.tree settings [] ignoring root place).filter
        fun path => !isBuildOutput (path.namesBelow root) := by
  have narrowed : scan w.tree { settings with exclude := exclude } ([] ++ defaultPatterns) ignoring
      root place = _ := scan_exclude
  rw [List.nil_append] at narrowed
  rw [narrowed]
  apply List.filter_congr
  intro path member
  obtain ⟨names, isFound, rfl⟩ := mem_scan_iff_isFound.mp member
  have nonempty := (FileTree.hasFile_iff.mp isFound.file).1
  have areNames := isFound.file.isName
  rw [isExcluded_default nonempty areNames, Path.namesBelow_joinAll root areNames]

theorem files_default (w : Workspace) (settings : ScanSettings) (root : Path) :
    files w { settings with exclude := ({} : ScanSettings).exclude } root =
      (files w { settings with exclude := [] } root).map (List.filter fun path =>
        !isBuildOutput (path.namesBelow root)) := by
  have narrow : files w { settings with exclude := ({} : ScanSettings).exclude } root = _ :=
    filesBy_of_excludes excludes_default
  have wide : files w { settings with exclude := [] } root = _ := filesBy_of_excludes rfl
  rw [narrow, wide]
  by_cases isFile : w.disk.isFile root = true
  · rw [if_pos isFile, if_pos isFile]
    have kept : isBuildOutput (root.namesBelow root) = false := by
      rw [Path.namesBelow_self]
      rfl
    simp [Except.map, kept]
  · rw [if_neg isFile, if_neg isFile]
    change (w.walker settings.respectGitignore root).map _ =
      ((w.walker settings.respectGitignore root).map _).map _
    cases walked : w.walker settings.respectGitignore root with
    | error error => rfl
    | ok noted =>
      obtain rfl | ⟨place, rfl⟩ := noted_of_walker walked
      · simp [Except.map, sifted_nil]
      · exact congrArg Except.ok scan_default

end Discovery

/-- The patterns that exclude files where nothing is set match the names of files in directories
called `bin` or `obj`, and no others. So what is found with them is what is found with no patterns,
but for the files with such a directory on their way from the root; a root that is a file is found
in any case. -/
theorem default_excludes_drop_build_output :
    ∃ patterns, Discovery.excludes ({} : ScanSettings).exclude = .ok patterns ∧
      (∀ names : List String, names ≠ [] → (∀ name ∈ names, name ≠ "" ∧ '/' ∉ name.toList) →
        ((patterns.any fun pattern =>
            Exclude.isMatch pattern ("/".intercalate names).toList) = true ↔
          ∃ directory ∈ names.dropLast, directory = "bin" ∨ directory = "obj")) ∧
      ∀ (w : Workspace) (settings : ScanSettings) (root : Path),
        Discovery.files w { settings with exclude := ({} : ScanSettings).exclude } root =
          (Discovery.files w { settings with exclude := [] } root).map (List.filter fun path =>
            !isBuildOutput (path.namesBelow root)) := by
  refine ⟨_, Discovery.excludes_default, ?_, ?_⟩
  · intro names _ solid
    rw [Discovery.any_isMatch_defaultPatterns fun name member => (solid name member).2,
      isBuildOutput_iff]
  · exact Discovery.files_default

/-- A directory below another one is left out, and neither a name that is alike nor the name of a file
makes a difference. -/
theorem default_excludes_drop_nested_build_output :
    let isExcluded (names : List String) : Bool :=
      Discovery.defaultPatterns.any fun pattern =>
        Exclude.isMatch pattern ("/".intercalate names).toList
    let nested := ["src", "obj", "Debug", "x.cs"]
    let alike := ["xbin", "bin2", "Obj", "bin"]
    (nested ≠ [] ∧ (∀ name ∈ nested, name ≠ "" ∧ '/' ∉ name.toList) ∧ isExcluded nested = true) ∧
      alike ≠ [] ∧ (∀ name ∈ alike, name ≠ "" ∧ '/' ∉ name.toList) ∧ isExcluded alike = false := by
  intro isExcluded nested alike
  obtain ⟨patterns, valid, isMatch_iff, -⟩ := default_excludes_drop_build_output
  obtain rfl : Discovery.defaultPatterns = patterns :=
    Except.ok.inj (Discovery.excludes_default.symm.trans valid)
  have areNames : ∀ name ∈ nested, name ≠ "" ∧ '/' ∉ name.toList := by decide
  have alsoNames : ∀ name ∈ alike, name ≠ "" ∧ '/' ∉ name.toList := by decide
  refine ⟨⟨by decide, areNames, ?_⟩, by decide, alsoNames, ?_⟩
  · exact (isMatch_iff nested (by decide) areNames).mpr (by decide)
  · rw [Bool.eq_false_iff]
    exact (isMatch_iff alike (by decide) alsoNames).not.mpr (by decide)

end LineLint
