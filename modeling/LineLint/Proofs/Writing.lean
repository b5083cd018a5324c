import LineLint.Proofs.RealPaths
import Mathlib.Tactic.FinCases

/-! # Writing to a tree

A file is written to the place where the way for writing ends: into an empty spot of a directory or
over a file. Nothing else changes, and then the path leads to the file. What is put where nothing lay
changes no way that was there before.
-/

namespace LineLint

theorem Text.not_mem_of_mem_split {α : Type} [DecidableEq α] {separator : α}
    {list piece : List α} (member : piece ∈ Text.split separator list) : separator ∉ piece := by
  induction list generalizing piece with
  | nil =>
    rw [List.mem_singleton.mp member]
    exact List.not_mem_nil
  | cons x rest ih =>
    obtain ⟨first, more, cut⟩ := List.exists_cons_of_ne_nil (Text.split_ne_nil separator rest)
    simp only [Text.split, cut] at member ih
    split at member
    · rcases List.mem_cons.mp member with rfl | later
      · exact List.not_mem_nil
      · exact ih later
    · rename_i different
      rcases List.mem_cons.mp member with rfl | later
      · simp [Ne.symm different, ih List.mem_cons_self]
      · exact ih (List.mem_cons_of_mem _ later)

/-- The names in the steps of a path are names that a directory can hold. -/
theorem Path.isName_of_mem_steps {path : Path} {name : String} (member : .into name ∈ path.steps) :
    IsName name := by
  have piece : .into name ∈ (Text.split '/' path.text.toList).filterMap Step.ofPiece? := by
    rcases List.mem_append.mp member with piece | slash
    · exact piece
    · split at slash <;> simp at slash
  obtain ⟨piece, inside, step⟩ := List.mem_filterMap.mp piece
  have noSlash := Text.not_mem_of_mem_split inside
  rw [Step.ofPiece?] at step
  split_ifs at step with nonempty notDot notDots
  · cases step
  · cases step
  obtain rfl := Step.into.inj (Option.some.inj step)
  refine ⟨by simpa using nonempty, ?_, ?_, by simpa using noSlash⟩
  · rintro same
    exact notDot (by simpa using congrArg String.toList same)
  · rintro same
    exact notDots (by simpa using congrArg String.toList same)

namespace FileTree

variable {a b tree : FileTree} {purpose : Purpose} {fits : Place → Prop} {links : Nat}
  {start place found new directory : Place} {steps : List Step} {name : String}
  {octets : List UInt8} {path : Path}

/-- A tree holds something at a place where another one holds nothing, and the same everywhere
else. -/
structure Adds (a b : FileTree) (new : Place) : Prop where
  nothing : a.at? new = none
  same : ∀ other, other ≠ new → b.at? other = a.at? other

section Adds

variable (adds : Adds a b new)
include adds

theorem Adds.at? {entry : Entry} (there : a.at? place = some entry) : b.at? place = some entry := by
  rw [adds.same, there]
  rintro rfl
  rw [adds.nothing] at there
  cases there

theorem Adds.isDirectory (inside : a.isDirectory place = true) : b.isDirectory place = true := by
  rw [FileTree.isDirectory, adds.at? (at?_of_isDirectory inside)]
  rfl

/-- What is added stands in the way of nothing. -/
theorem Adds.way (reads : purpose ≠ .writing) (way : Way a purpose fits links place steps found) :
    Way b purpose fits links place steps found := by
  induction way with
  | here => exact .here
  | stay inside _ ih => exact .stay (adds.isDirectory inside) ih
  | slash inside _ ih => exact .slash (adds.isDirectory inside) ih
  | up inside _ ih => exact .up (adds.isDirectory inside) ih
  | into inside short fit there noLink toFile _ ih =>
    exact .into (adds.isDirectory inside) short fit (adds.at? there) noLink toFile ih
  | through inside short fit link more toFile _ ih =>
    exact .through (adds.isDirectory inside) short fit (adds.at? link) more toFile ih
  | link inside short fit link itself =>
    exact .link (adds.isDirectory inside) short fit (adds.at? link) itself
  | fresh _ _ _ _ writing => exact absurd writing reads

/-- A path leads to the same as before. -/
theorem Adds.locate (reads : purpose ≠ .writing)
    (leads : a.locate purpose start path = .ok place) :
    b.locate purpose start path = .ok place := by
  obtain ⟨noZero, nonempty, fits, way⟩ := locate_eq_ok_iff.mp leads
  exact locate_eq_ok_iff.mpr ⟨noZero, nonempty, fits, adds.way reads way⟩

end Adds

/-- A tree holds a file at a place where another one holds a file or nothing, and the same everywhere
else. -/
structure Writes (a b : FileTree) (place : Place) (octets : List UInt8) : Prop where
  before : ∀ entry, a.at? place = some entry → ∃ old, entry = .file old
  content : b.at? place = some (.file octets)
  same : ∀ other, other ≠ place → b.at? other = a.at? other

theorem Writes.adds (writes : Writes a b place octets) (nothing : a.at? place = none) :
    Adds a b place :=
  ⟨nothing, writes.same⟩

section Writes

variable (writes : Writes a b place octets)
include writes

theorem Writes.at? {other : Place} {entry : Entry} (there : a.at? other = some entry)
    (noFile : ∀ old, entry ≠ .file old) : b.at? other = some entry := by
  rw [writes.same, there]
  rintro rfl
  obtain ⟨old, rfl⟩ := writes.before _ there
  exact noFile old rfl

theorem Writes.isDirectory {other : Place} (inside : a.isDirectory other = true) :
    b.isDirectory other = true := by
  rw [FileTree.isDirectory, writes.at? (at?_of_isDirectory inside) (by simp)]
  rfl

end Writes

/-- The way on which a file is written leads to the file afterwards. -/
theorem Way.of_writes (way : Way a .writing fits links place steps found)
    (writes : Writes a b found octets) : Way b .target fits links place steps found := by
  induction way with
  | here => exact .here
  | stay inside _ ih => exact .stay (writes.isDirectory inside) (ih writes)
  | slash inside _ ih => exact .slash (writes.isDirectory inside) (ih writes)
  | up inside _ ih => exact .up (writes.isDirectory inside) (ih writes)
  | @into _ place found name _ entry inside short fit there noLink toFile _ ih =>
    by_cases written : place ++ [name] = found
    · exact .into (writes.isDirectory inside) short fit (written ▸ writes.content) (by simp) (by simp)
        (ih writes)
    · exact .into (writes.isDirectory inside) short fit ((writes.same _ written).trans there) noLink
        (by simp) (ih writes)
  | through inside short fit link _ _ _ ih =>
    exact .through (writes.isDirectory inside) short fit (writes.at? link (by simp)) (by simp)
      (by simp) (ih writes)
  | link _ _ _ _ itself => cases itself
  | fresh inside short fit _ _ =>
    exact .into (writes.isDirectory inside) short fit writes.content (by simp) (by simp) .here

/-- Nothing lies at a place, but a directory lies above and can hold its last name. -/
structure IsVacant (tree : FileTree) (place : Place) : Prop where
  nothing : tree.at? place = none
  room : ∃ directory name, place = directory ++ [name] ∧ tree.isDirectory directory = true ∧
    IsName name

/-- A way for writing ends at a file or a directory or at a vacant place. -/
theorem Way.isReal_or_isVacant (way : Way tree .writing fits links place steps found)
    (start : steps ≠ [] ∨ tree.IsReal place) (named : ∀ name, .into name ∈ steps → IsName name) :
    tree.IsReal found ∨ tree.IsVacant found := by
  induction way with
  | here => exact .inl (start.resolve_left (not_not.mpr rfl))
  | stay inside _ ih | slash inside _ ih =>
    exact ih (.inr (isReal_of_isDirectory inside))
      fun name member => named name (List.mem_cons_of_mem _ member)
  | up inside _ ih =>
    exact ih (.inr (isReal_of_isDirectory (isDirectory_dropLast inside)))
      fun name member => named name (List.mem_cons_of_mem _ member)
  | into _ _ _ there noLink _ _ ih =>
    exact ih (.inr ⟨_, there, noLink⟩) fun name member => named name (List.mem_cons_of_mem _ member)
  | through inside _ _ _ _ _ _ ih =>
    refine ih (.inr (isReal_of_isDirectory (isDirectory_origin _ inside))) fun name member => ?_
    rcases List.mem_append.mp member with target | rest
    · exact Path.isName_of_mem_steps target
    · exact named name (List.mem_cons_of_mem _ rest)
  | link _ _ _ _ itself => cases itself
  | fresh inside _ _ nothing _ =>
    exact .inr ⟨nothing, _, _, rfl, inside, named _ List.mem_cons_self⟩

/-- A path leads to something that exists or to a vacant name in a directory. -/
theorem isReal_or_isVacant_of_locate (leads : tree.locate .writing start path = .ok place) :
    tree.IsReal place ∨ tree.IsVacant place := by
  obtain ⟨-, nonempty, -, way⟩ := locate_eq_ok_iff.mp leads
  exact way.isReal_or_isVacant (.inl (Path.steps_ne_nil nonempty))
    fun _ => Path.isName_of_mem_steps

theorem exists_put? (inside : tree.isDirectory directory = true) (isName : IsName name)
    (free : tree.at? (directory ++ [name]) ≠ some .directory) (entry : Entry) :
    ∃ after, tree.put? directory name entry = some after :=
  ⟨_, dif_pos ⟨inside, isName, free⟩⟩

/-- A file can be written to where a way for writing ends, unless that is a directory. -/
theorem exists_write (leads : tree.locate .writing start path = .ok place)
    (free : tree.at? place ≠ some .directory) (octets : List UInt8) :
    ∃ after, tree.write start path octets = .ok after ∧ Writes tree after place octets := by
  obtain ⟨directory, name, rfl, inside, isName, old⟩ : ∃ directory name,
      place = directory ++ [name] ∧ tree.isDirectory directory = true ∧ IsName name ∧
        ∀ entry, tree.at? place = some entry → ∃ old, entry = .file old := by
    rcases isReal_or_isVacant_of_locate leads with ⟨entry, there, noLink⟩ | vacant
    · cases place using List.reverseRecOn with
      | nil => exact absurd (at?_nil tree) free
      | append_singleton directory name =>
        refine ⟨directory, name, rfl, ?_, isName_of_at? there name (by simp), fun other same => ?_⟩
        · rw [isDirectory, at?_of_at?_append there]
          rfl
        · obtain rfl := Option.some.inj (there.symm.trans same)
          cases entry with
          | file old => exact ⟨old, rfl⟩
          | directory => exact absurd there free
          | link target => exact absurd rfl (noLink target)
    · obtain ⟨nothing, directory, name, rfl, inside, isName⟩ := vacant
      exact ⟨directory, name, rfl, inside, isName, fun entry there => by simp [nothing] at there⟩
  obtain ⟨after, done⟩ := exists_put? inside isName free (.file octets)
  refine ⟨after, ?_, old, at?_of_put? done, fun other different => at?_of_put?_of_ne done different⟩
  cases there : tree.at? (directory ++ [name]) with
  | none => simp [write, leads, there, done, bind, Except.bind]
  | some entry =>
    cases entry with
    | directory => exact absurd there free
    | file content | link target => simp [write, leads, there, done, bind, Except.bind]

/-- A write that succeeds puts the file where the way for writing ends, and changes nothing else. -/
theorem writes_of_write {after : FileTree} (written : tree.write start path octets = .ok after) :
    ∃ place, tree.locate .writing start path = .ok place ∧ Writes tree after place octets := by
  cases leads : tree.locate .writing start path with
  | error error =>
    rw [write, leads] at written
    cases written
  | ok place =>
    have free : tree.at? place ≠ some .directory := by
      intro directory
      simp [write, leads, directory, bind, Except.bind] at written
    obtain ⟨same, done, writes⟩ := exists_write leads free octets
    rw [written] at done
    exact ⟨place, rfl, Except.ok.inj done ▸ writes⟩

/-- A write fails only where no way for writing ends or where a directory lies. -/
theorem write_eq_ok_iff : (∃ after, tree.write start path octets = .ok after) ↔
    ∃ place, tree.locate .writing start path = .ok place ∧ tree.at? place ≠ some .directory := by
  constructor
  · rintro ⟨after, written⟩
    obtain ⟨place, leads, writes⟩ := writes_of_write written
    refine ⟨place, leads, fun directory => ?_⟩
    obtain ⟨old, same⟩ := writes.before _ directory
    cases same
  · rintro ⟨place, leads, free⟩
    obtain ⟨after, written, -⟩ := exists_write leads free octets
    exact ⟨after, written⟩

/-- What was written through a path is read through it. -/
theorem Writes.locate {after : FileTree} (writes : Writes tree after place octets)
    (leads : tree.locate .writing start path = .ok place) :
    after.locate .target start path = .ok place := by
  obtain ⟨noZero, nonempty, fits, way⟩ := locate_eq_ok_iff.mp leads
  exact locate_eq_ok_iff.mpr ⟨noZero, nonempty, fits, way.of_writes writes⟩

/-- A file in a directory, and below it a link of the same name that leads to where nothing lies, beside
a file of one line. -/
def nest (own : List UInt8) : FileTree where
  entries := [(["a"], .directory), (["a", "style-lint.toml"], .file own), (["a", "b"], .directory),
    (["a", "b", "style-lint.toml"], .link "../../style-lint.toml"),
    (["a", "b", "x.cs"], .file [0x20, 0x66, 0x28])]
  places_nodup := by simp
  named := by
    intro place entry member
    fin_cases member <;> decide
  inDirectory := by
    intro place entry member
    fin_cases member <;> simp

theorem steps_upward :
    Path.steps ⟨"../../style-lint.toml"⟩ = [.up, .up, .into "style-lint.toml"] := by decide

/-- The link leads nowhere. -/
theorem locate_target_nest (own : List UInt8) (place : Place) :
    (nest own).locate .target ["a", "b"] ⟨"style-lint.toml"⟩ ≠ .ok place := by
  intro located
  cases way_of_locate_name (by decide) located with
  | into _ _ _ there noLink =>
    obtain rfl := Option.some.inj there
    exact noLink _ rfl
  | through _ _ _ link _ _ onward =>
    obtain rfl := Entry.link.inj (Option.some.inj link)
    rw [steps_upward] at onward
    obtain _ | _ | _ | ⟨-, onward⟩ := onward
    obtain _ | _ | _ | ⟨-, onward⟩ := onward
    cases onward with
    | into _ _ _ there => cases there
    | through _ _ _ link => cases link
    | link _ _ _ _ itself => cases itself
    | fresh _ _ _ _ writing => cases writing
  | link _ _ _ _ itself => cases itself
  | fresh _ _ _ _ writing => cases writing

/-- What is written through the link is written to the root. -/
theorem locate_writing_nest (own : List UInt8) :
    (nest own).locate .writing ["a", "b"] ⟨"style-lint.toml"⟩ = .ok ["style-lint.toml"] := by
  have upward : Way (nest own) .writing Anywhere 39 ["a", "b"]
      [.up, .up, .into "style-lint.toml"] ["style-lint.toml"] :=
    .up rfl (.up rfl (.fresh rfl (by decide) trivial rfl rfl))
  refine locate_eq_ok_iff.mpr ⟨by decide, by decide, by decide, ?_⟩
  rw [steps_name (by decide), origin_name (by decide)]
  exact .through rfl (by decide) trivial rfl (by simp) (by simp) (steps_upward ▸ upward)

end FileTree

namespace Workspace

variable {w : Workspace} {tree : FileTree} {new : Place} {path form : Path}

/-- The canonical form of a path stays the same when something is added. -/
theorem canonical?_of_adds (adds : FileTree.Adds w.tree tree new)
    (known : w.canonical? path = some form) : { w with tree }.canonical? path = some form := by
  rw [canonical?] at known ⊢
  split at known
  · cases known
  · rename_i accepted
    rw [if_neg accepted]
    cases resolved : w.tree.resolve FileTree.linkLimit (path.origin w.current) path.steps with
    | error error => simp [resolved] at known
    | ok place =>
      have way := adds.way (by simp) (FileTree.resolve_eq_ok_iff.mp resolved)
      rw [resolved] at known
      rw [FileTree.resolve_eq_ok_iff.mpr way]
      exact known

end Workspace

end LineLint
