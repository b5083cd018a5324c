import LineLint.Proofs.ScanOrder
import Mathlib.Algebra.Order.BigOperators.Group.List
import Mathlib.Algebra.Order.Group.Nat
import Mathlib.Logic.Relation

/-! # Walks

A walk looks at one thing after the other, starting from the root. It enters a directory and then has
to look at all that is listed there, it notes a file, and it leaves out links and what is ignored. In
whatever order directories list what they hold, and in whatever order the walk takes what waits, it
ends with the same files. A scan is such a walk whose files are sifted.
-/

namespace LineLint.Discovery

/-- A directory lists the names of what it holds, in some order. -/
structure IsListing (tree : FileTree) (directory : Place) (listed : List String) : Prop where
  nodup : listed.Nodup
  mem_iff : ∀ name, name ∈ listed ↔ (tree.at? (directory ++ [name])).isSome

/-- Every directory can list what it holds. -/
theorem exists_isListing (tree : FileTree) (directory : Place) :
    ∃ listed, IsListing tree directory listed := by
  let listed := tree.entries.filterMap fun entry =>
    if entry.1.dropLast = directory then entry.1.getLast? else none
  have mem_iff : ∀ name, name ∈ listed ↔ (tree.at? (directory ++ [name])).isSome := by
    intro name
    have at?_iff : ∀ entry, tree.at? (directory ++ [name]) = some entry ↔
        (directory ++ [name], entry) ∈ tree.entries :=
      fun entry => FileTree.at?_eq_some_iff (by simp)
    simp only [listed, List.mem_filterMap, Option.isSome_iff_exists, at?_iff]
    constructor
    · rintro ⟨⟨place, entry⟩, member, named⟩
      split at named
      · rename_i here
        obtain ⟨front, rfl⟩ := List.getLast?_eq_some_iff.mp named
        rw [List.dropLast_concat] at here
        exact ⟨entry, here ▸ member⟩
      · cases named
    · rintro ⟨entry, member⟩
      exact ⟨_, member, by simp⟩
  refine ⟨listed, ?_, mem_iff⟩
  apply List.pairwise_filterMap.mpr
  apply (List.pairwise_map.mp tree.places_nodup).imp
  rintro ⟨place, _⟩ ⟨other, _⟩ different name first alsoName second rfl
  split at first
  · rename_i here
    split at second
    · rename_i there
      obtain ⟨front, rfl⟩ := List.getLast?_eq_some_iff.mp first
      obtain ⟨back, rfl⟩ := List.getLast?_eq_some_iff.mp second
      rw [List.dropLast_concat] at here there
      exact different (by rw [here, there])
    · cases second
  · cases first

/-- What a walk has still to look at, and the files that it has noted, as names from the root. -/
structure Walk where
  waiting : List (List String)
  noted : List (List String)

def Walk.start : Walk := ⟨[[]], []⟩

variable (tree : FileTree) (ignoring : Ignoring) (root : Path) (place : Place)

/-- Whether a walk leaves out what the names lead to because it is ignored. The root is not. -/
def Ignoring.ignores (names : List String) : Bool :=
  !names.isEmpty &&
    ignoring.verdict? root place names (tree.isDirectory (place ++ names)) == some .ignored

/-- A walk takes something that waits. -/
inductive Walk.Step : Walk → Walk → Prop
  | enter {waiting rest noted : List (List String)} {names listed : List String}
      (waits : waiting.Perm (names :: rest))
      (directory : tree.at? (place ++ names) = some .directory)
      (kept : ignoring.ignores tree root place names = false)
      (listing : IsListing tree (place ++ names) listed) :
      Step ⟨waiting, noted⟩ ⟨listed.map (fun name => names ++ [name]) ++ rest, noted⟩
  | note {waiting rest noted : List (List String)} {names : List String} {octets : List UInt8}
      (waits : waiting.Perm (names :: rest))
      (file : tree.at? (place ++ names) = some (.file octets))
      (kept : ignoring.ignores tree root place names = false) :
      Step ⟨waiting, noted⟩ ⟨rest, names :: noted⟩
  | leaveOut {waiting rest noted : List (List String)} {names : List String}
      (waits : waiting.Perm (names :: rest))
      (out : (∃ target, tree.at? (place ++ names) = some (.link target)) ∨
        ignoring.ignores tree root place names = true) :
      Step ⟨waiting, noted⟩ ⟨rest, noted⟩

/-- The files to note among those whose names begin with some names. -/
def toNote (front : List String) : List (List String) :=
  (filesBelow tree place).filter fun names =>
    front.isPrefixOf names && ignoring.reaches root place names

variable {tree : FileTree} {ignoring : Ignoring} {root : Path} {place : Place}
  {names front : List String}

/-- What a walk has still to note below a place it has reached. -/
theorem mem_toNote_iff : names ∈ toNote tree ignoring root place front ↔
    tree.HasFile place names ∧ front <+: names ∧ ignoring.reaches root place names = true := by
  simp [toNote, mem_filesBelow_iff]

theorem nodup_toNote : (toNote tree ignoring root place front).Nodup :=
  (nodup_filesBelow tree place).filter _

theorem toNote_nil : toNote tree ignoring root place [] =
    (filesBelow tree place).filter (ignoring.reaches root place) := by
  simp [toNote]

theorem mem_waysTo_iff {way : List String} :
    way ∈ waysTo names ↔ ∃ behind, behind ≠ [] ∧ names = way ++ behind := by
  simp only [waysTo, List.mem_reverse, List.mem_map, List.mem_range]
  constructor
  · rintro ⟨n, shorter, rfl⟩
    exact ⟨names.drop n, by simpa using shorter, (List.take_append_drop n names).symm⟩
  · rintro ⟨behind, nonempty, rfl⟩
    exact ⟨way.length, by simpa [List.length_pos_iff] using nonempty, List.take_left⟩

theorem mem_waysTo_concat_iff {way : List String} {name : String} :
    way ∈ waysTo (names ++ [name]) ↔ way = names ∨ way ∈ waysTo names := by
  simp only [mem_waysTo_iff]
  constructor
  · rintro ⟨behind, nonempty, cut⟩
    obtain ⟨front, last, rfl⟩ := (List.eq_nil_or_concat' behind).resolve_left nonempty
    rw [← List.append_assoc] at cut
    obtain ⟨rfl, -⟩ := List.append_inj' cut rfl
    by_cases here : front = []
    · exact .inl (by rw [here, List.append_nil])
    · exact .inr ⟨front, here, rfl⟩
  · rintro (rfl | ⟨behind, nonempty, rfl⟩)
    · exact ⟨[name], by simp, rfl⟩
    · exact ⟨behind ++ [name], by simp, by simp⟩

/-- The names lead through directories that are not ignored. -/
def Ignoring.opens (ignoring : Ignoring) (tree : FileTree) (root : Path) (place : Place)
    (names : List String) : Prop :=
  ∀ way ∈ waysTo names, tree.at? (place ++ way) = some .directory ∧
    ignoring.ignores tree root place way = false

theorem ignores_of_directory (directory : tree.at? (place ++ names) = some .directory) :
    ignoring.ignores tree root place names =
      !(names.isEmpty || ignoring.verdict? root place names true != some .ignored) := by
  have isDirectory : tree.isDirectory (place ++ names) = true := by
    simp [FileTree.isDirectory, directory]
  rw [Ignoring.ignores, isDirectory, Bool.not_or, bne, Bool.not_not]

theorem ignores_of_file {octets : List UInt8} (nonempty : names ≠ [])
    (file : tree.at? (place ++ names) = some (.file octets)) :
    ignoring.ignores tree root place names =
      (ignoring.verdict? root place names false == some .ignored) := by
  have isDirectory : tree.isDirectory (place ++ names) = false := by
    simp [FileTree.isDirectory, file]
  simp [Ignoring.ignores, isDirectory, nonempty]

/-- A file is reached if the way to it is open and it is not ignored itself. -/
theorem reaches_iff (file : tree.HasFile place names) :
    ignoring.reaches root place names = true ↔
      ignoring.opens tree root place names ∧ ignoring.ignores tree root place names = false := by
  obtain ⟨nonempty, octets, content⟩ := FileTree.hasFile_iff.mp file
  have directory : ∀ way ∈ waysTo names, tree.at? (place ++ way) = some .directory := by
    intro way member
    obtain ⟨behind, more, rfl⟩ := mem_waysTo_iff.mp member
    rw [← List.append_assoc] at content
    exact FileTree.at?_of_at?_append_append more content
  rw [Ignoring.reaches, Bool.and_eq_true, List.all_eq_true, ignores_of_file nonempty content]
  refine and_congr (forall₂_congr fun way member => ?_) (by simp)
  rw [ignores_of_directory (directory way member)]
  simp only [directory way member, true_and, Bool.not_eq_false']

/-- Opening a directory leaves the same to note, split among its entries. -/
theorem toNote_of_directory {listed : List String} (listing : IsListing tree (place ++ front) listed)
    (directory : tree.at? (place ++ front) = some .directory) :
    (toNote tree ignoring root place front).Perm
      (listed.flatMap fun name => toNote tree ignoring root place (front ++ [name])) := by
  -- Each name is listed once, and files below different names are different.
  have apart : (listed.flatMap fun name => toNote tree ignoring root place (front ++ [name])).Nodup := by
    rw [List.nodup_flatMap]
    refine ⟨fun _ _ => nodup_toNote, listing.nodup.imp ?_⟩
    intro name other different names first second
    obtain ⟨_, ⟨behind, cut⟩, _⟩ := mem_toNote_iff.mp first
    obtain ⟨_, ⟨alsoBehind, alsoCut⟩, _⟩ := mem_toNote_iff.mp second
    rw [← alsoCut] at cut
    simp at cut
    exact different cut.1
  apply (List.perm_ext_iff_of_nodup nodup_toNote apart).mpr
  intro names
  simp only [List.mem_flatMap, mem_toNote_iff, listing.mem_iff]
  constructor
  · rintro ⟨file, ⟨behind, rfl⟩, reached⟩
    obtain ⟨_, octets, content⟩ := FileTree.hasFile_iff.mp file
    rw [← List.append_assoc] at content
    cases behind with
    | nil =>
      rw [List.append_nil, directory] at content
      cases content
    | cons name behind =>
      refine ⟨name, ?_, file, ⟨behind, by simp⟩, reached⟩
      by_cases last : behind = []
      · rw [last] at content
        rw [content]
        rfl
      · rw [List.append_cons] at content
        rw [FileTree.at?_of_at?_append_append last content]
        rfl
  · rintro ⟨name, _, file, leads, reached⟩
    exact ⟨file, (List.prefix_append front [name]).trans leads, reached⟩

theorem toNote_of_file {octets : List UInt8}
    (content : tree.at? (place ++ front) = some (.file octets))
    (top : tree.at? place = some .directory)
    (opens : ignoring.opens tree root place front)
    (kept : ignoring.ignores tree root place front = false) :
    toNote tree ignoring root place front = [front] := by
  have nonempty : front ≠ [] := by
    rintro rfl
    rw [List.append_nil, top] at content
    cases content
  apply List.perm_singleton.mp
  apply (List.perm_ext_iff_of_nodup nodup_toNote (List.nodup_singleton _)).mpr
  intro names
  rw [mem_toNote_iff, List.mem_singleton]
  constructor
  · rintro ⟨file, ⟨behind, rfl⟩, -⟩
    obtain ⟨_, octets, below⟩ := FileTree.hasFile_iff.mp file
    by_cases last : behind = []
    · rw [last, List.append_nil]
    · rw [← List.append_assoc] at below
      rw [FileTree.at?_of_at?_append_append last below] at content
      cases content
  · rintro rfl
    have file := FileTree.hasFile_iff.mpr ⟨nonempty, octets, content⟩
    exact ⟨file, List.prefix_refl _, (reaches_iff file).mpr ⟨opens, kept⟩⟩

theorem toNote_of_out
    (out : (∃ target, tree.at? (place ++ front) = some (.link target)) ∨
      ignoring.ignores tree root place front = true) :
    toNote tree ignoring root place front = [] := by
  apply List.eq_nil_iff_forall_not_mem.mpr
  intro names member
  obtain ⟨file, ⟨behind, rfl⟩, reached⟩ := mem_toNote_iff.mp member
  obtain ⟨opens, kept⟩ := (reaches_iff file).mp reached
  by_cases last : behind = []
  · obtain ⟨_, octets, content⟩ := FileTree.hasFile_iff.mp file
    rw [last, List.append_nil] at content kept
    rcases out with ⟨target, link⟩ | ignored
    · rw [link] at content
      cases content
    · rw [ignored] at kept
      cases kept
  · obtain ⟨directory, kept⟩ := opens front (mem_waysTo_iff.mpr ⟨behind, last, rfl⟩)
    rcases out with ⟨target, link⟩ | ignored
    · rw [link] at directory
      cases directory
    · rw [ignored] at kept
      cases kept

/-- What a walk keeps true: the ways to what waits are open, and what has been noted and what is
below what waits are together the files to note. -/
structure Walk.Invariant (tree : FileTree) (ignoring : Ignoring) (root : Path) (place : Place)
    (walk : Walk) : Prop where
  opens : ∀ names ∈ walk.waiting, ignoring.opens tree root place names
  parts : (walk.noted ++ walk.waiting.flatMap (toNote tree ignoring root place)).Perm
    (toNote tree ignoring root place [])

/-- At the start everything is still to note. -/
theorem Walk.Invariant.start : Walk.start.Invariant tree ignoring root place where
  opens := by simp [Walk.start, Ignoring.opens, waysTo]
  parts := by simp [Walk.start]

/-- Taking what waits first or last makes no difference. -/
theorem Walk.Invariant.of_perm {waiting others noted : List (List String)}
    (perm : waiting.Perm others)
    (invariant : Walk.Invariant tree ignoring root place ⟨waiting, noted⟩) :
    Walk.Invariant tree ignoring root place ⟨others, noted⟩ where
  opens := fun names member => invariant.opens names (perm.mem_iff.mpr member)
  parts := ((perm.symm.flatMap_right _).append_left noted).trans invariant.parts

/-- The step of a walk keeps its invariant. -/
theorem Walk.Step.invariant {before after : Walk} (top : tree.at? place = some .directory)
    (step : Walk.Step tree ignoring root place before after)
    (invariant : before.Invariant tree ignoring root place) :
    after.Invariant tree ignoring root place := by
  cases step with
  | @enter waiting rest noted names listed waits directory kept listing =>
    obtain ⟨opens, parts⟩ := invariant.of_perm waits
    obtain ⟨here, others⟩ := List.forall_mem_cons.mp opens
    refine ⟨?_, ?_⟩
    · -- What is listed waits behind one more directory, the one that was entered.
      intro names member
      rcases List.mem_append.mp member with below | other
      · obtain ⟨name, _, rfl⟩ := List.mem_map.mp below
        intro way member
        rcases mem_waysTo_concat_iff.mp member with rfl | earlier
        · exact ⟨directory, kept⟩
        · exact here way earlier
      · exact others names other
    · refine List.Perm.trans ?_ parts
      rw [List.flatMap_append, List.flatMap_map, List.flatMap_cons]
      exact ((toNote_of_directory listing directory).symm.append_right _).append_left noted
  | @note waiting rest noted names octets waits file kept =>
    obtain ⟨opens, parts⟩ := invariant.of_perm waits
    obtain ⟨here, others⟩ := List.forall_mem_cons.mp opens
    refine ⟨others, List.Perm.trans ?_ parts⟩
    rw [List.flatMap_cons, toNote_of_file file top here kept]
    exact List.perm_middle.symm
  | @leaveOut waiting rest noted names waits out =>
    obtain ⟨opens, parts⟩ := invariant.of_perm waits
    rw [List.flatMap_cons, toNote_of_out out] at parts
    exact ⟨(List.forall_mem_cons.mp opens).2, parts⟩

/-- A walk from the root that has nothing left to look at has noted the files that are reached, each
of them once. -/
theorem perm_of_walk {noted : List (List String)} (top : tree.at? place = some .directory)
    (walk : Relation.ReflTransGen (Walk.Step tree ignoring root place) .start ⟨[], noted⟩) :
    noted.Perm ((filesBelow tree place).filter (ignoring.reaches root place)) := by
  have invariant : Walk.Invariant tree ignoring root place ⟨[], noted⟩ := by
    refine Relation.ReflTransGen.head_induction_on
      (motive := fun before _ => before.Invariant tree ignoring root place →
        Walk.Invariant tree ignoring root place ⟨[], noted⟩) walk id ?_ .start
    intro before after step _ ih invariant
    exact ih (step.invariant top invariant)
  rw [← toNote_nil]
  simpa using invariant.parts

/-- However a walk went, the scan is what it noted, once this is sifted. -/
theorem scan_eq_of_walk {settings : ScanSettings} {patterns : List (List Exclude.Token)}
    {noted : List (List String)} (top : tree.at? place = some .directory)
    (walk : Relation.ReflTransGen (Walk.Step tree ignoring root place) .start ⟨[], noted⟩) :
    scan tree settings patterns ignoring root place = sifted settings patterns root noted := by
  have perm := perm_of_walk top walk
  have areNames : ∀ names ∈ noted, ∀ name ∈ names, IsName name := fun names member =>
    (mem_filesBelow_iff.mp (List.mem_of_mem_filter (perm.mem_iff.mp member))).isName
  have nodup : noted.Nodup := perm.nodup_iff.mpr ((nodup_filesBelow tree place).filter _)
  refine Path.eq_of_mem_iff pairwise_scan (pairwise_sifted nodup areNames) fun path => ?_
  simp only [scan, mem_sifted_iff, perm.mem_iff]

/-- A walk can look at things one after the other if it can look at each of them. -/
theorem exists_walk_of_forall (names : List (List String))
    (each : ∀ front ∈ names, ∀ rest noted, ∃ more, Relation.ReflTransGen
      (Walk.Step tree ignoring root place) ⟨front :: rest, noted⟩ ⟨rest, more⟩)
    (rest noted : List (List String)) : ∃ more, Relation.ReflTransGen
      (Walk.Step tree ignoring root place) ⟨names ++ rest, noted⟩ ⟨rest, more⟩ := by
  induction names generalizing noted with
  | nil => exact ⟨noted, .refl⟩
  | cons front names ih =>
    obtain ⟨first, others⟩ := List.forall_mem_cons.mp each
    obtain ⟨some, begun⟩ := first (names ++ rest) noted
    obtain ⟨more, ended⟩ := ih others some
    exact ⟨more, begun.trans ended⟩

/-- A walk can look at all that lies below something. The induction is on how much deeper than that
anything in the tree can lie. -/
theorem exists_walk_of_depth {limit : Nat}
    (bounded : ∀ entry ∈ tree.entries, entry.1.length ≤ limit) (depth : Nat) :
    ∀ front, (tree.at? (place ++ front)).isSome → limit < depth + (place ++ front).length →
      ∀ rest noted, ∃ more, Relation.ReflTransGen (Walk.Step tree ignoring root place)
        ⟨front :: rest, noted⟩ ⟨rest, more⟩ := by
  induction depth with
  | zero =>
    -- Nothing lies deeper than the limit, so there is nothing to look at.
    intro front there deep
    obtain ⟨entry, found⟩ := Option.isSome_iff_exists.mp there
    have proper : place ++ front ≠ [] := List.ne_nil_of_length_pos (by omega)
    have shallow : (place ++ front).length ≤ limit :=
      bounded _ (FileTree.mem_of_at? proper found)
    omega
  | succ depth ih =>
    intro front there deep rest noted
    cases kept : ignoring.ignores tree root place front with
    | true => exact ⟨noted, .single (.leaveOut (.refl _) (.inr kept))⟩
    | false =>
      obtain ⟨entry, found⟩ := Option.isSome_iff_exists.mp there
      cases entry with
      | link target => exact ⟨noted, .single (.leaveOut (.refl _) (.inl ⟨target, found⟩))⟩
      | file octets => exact ⟨_, .single (.note (.refl _) found kept)⟩
      | directory =>
        obtain ⟨listed, listing⟩ := exists_isListing tree (place ++ front)
        have enter : Walk.Step tree ignoring root place ⟨front :: rest, noted⟩
            ⟨listed.map (fun name => front ++ [name]) ++ rest, noted⟩ :=
          .enter (.refl _) found kept listing
        have each : ∀ below ∈ listed.map (fun name => front ++ [name]), ∀ rest noted, ∃ more,
            Relation.ReflTransGen (Walk.Step tree ignoring root place)
              ⟨below :: rest, noted⟩ ⟨rest, more⟩ := by
          intro below member
          obtain ⟨name, inside, rfl⟩ := List.mem_map.mp member
          apply ih
          · rw [← List.append_assoc]
            exact (listing.mem_iff name).mp inside
          · simp only [List.length_append, List.length_singleton] at deep ⊢
            omega
        obtain ⟨more, walked⟩ := exists_walk_of_forall _ each rest noted
        exact ⟨more, .head enter walked⟩

/-- From every directory there is a walk that ends. -/
theorem exists_walk (top : tree.at? place = some .directory) :
    ∃ noted, Relation.ReflTransGen (Walk.Step tree ignoring root place) .start ⟨[], noted⟩ := by
  let limit := (tree.entries.map fun entry => entry.1.length).sum
  have bounded : ∀ entry ∈ tree.entries, entry.1.length ≤ limit := fun entry member =>
    List.le_sum_of_mem (List.mem_map_of_mem (f := fun entry => entry.1.length) member)
  have there : (tree.at? (place ++ [])).isSome := by simp [top]
  exact exists_walk_of_depth bounded (limit + 1) [] there (by omega) [] []

end LineLint.Discovery
