import LineLint.Discovery
import LineLint.Proofs.Paths

/-! # The order of paths

Paths are ordered by their components, one after the other, and names by their characters. So what
lies below one directory stands together in any list in this order. The names of files in reports
are cut at their slashes in the same way; in the order of these names as texts the files below a
directory would not stand together.
-/

namespace LineLint

/-- Lists whose members are known by their keys are compared member by member. -/
theorem compare_map_eq_lt_iff {α β : Type} [Ord β] [Std.LawfulEqOrd β] {key : α → β}
    {before : α → α → Prop} (injective : Function.Injective key)
    (compared : ∀ a b, compare (key a) (key b) = .lt ↔ before a b) {front back : List α} :
    compare (front.map key) (back.map key) = .lt ↔ List.Lex before front back := by
  induction front generalizing back with
  | nil => cases back <;> simp
  | cons a front ih =>
    cases back with
    | nil => simp
    | cons b back =>
      rw [List.map_cons, List.map_cons, List.compare_cons_cons, Ordering.then_eq_lt,
        List.cons_lex_cons_iff, compared, ih, Std.compare_eq_iff_eq, injective.eq_iff]

section Blocks

variable {α : Type} {before : α → α → Prop}

section

variable {keep : α → Bool} {list : List α}
  (convex : ∀ a b c, before a b → before b c → keep a = true → keep c = true → keep b = true)
include convex

/-- Behind something that is kept, what is kept comes first. -/
theorem filter_prefix_of_convex {a : α} (kept : keep a = true) (first : ∀ b ∈ list, before a b)
    (ordered : list.Pairwise before) : list.filter keep <+: list := by
  induction list with
  | nil => simp
  | cons b rest ih =>
    obtain ⟨second, ordered⟩ := List.pairwise_cons.mp ordered
    obtain ⟨next, first⟩ := List.forall_mem_cons.mp first
    by_cases also : keep b = true
    · rw [List.filter_cons_of_pos also]
      exact List.cons_prefix_cons.mpr ⟨rfl, ih first ordered⟩
    · have none : rest.filter keep = [] := by
        apply List.filter_eq_nil_iff.mpr
        intro c member later
        exact also (convex a b c next (second c member) kept later)
      rw [List.filter_cons_of_neg also, none]
      exact List.nil_prefix

/-- What is kept stands together if everything between two things that are kept is kept as well. -/
theorem filter_infix_of_convex (ordered : list.Pairwise before) : list.filter keep <:+: list := by
  induction list with
  | nil => simp
  | cons a rest ih =>
    obtain ⟨first, ordered⟩ := List.pairwise_cons.mp ordered
    by_cases kept : keep a = true
    · rw [List.filter_cons_of_pos kept]
      have together := filter_prefix_of_convex convex kept first ordered
      exact (List.cons_prefix_cons.mpr ⟨rfl, together⟩).isInfix
    · rw [List.filter_cons_of_neg kept]
      exact (ih ordered).trans (List.suffix_cons a rest).isInfix

end

/-- What comes between two lists with the same front has that front as well. -/
theorem exists_append_of_lex_between (asymm : ∀ a b, before a b → ¬ before b a)
    {front low middle high : List α} (above : List.Lex before (front ++ low) middle)
    (below : List.Lex before middle (front ++ high)) :
    ∃ rest, middle = front ++ rest ∧ List.Lex before low rest := by
  induction front generalizing middle with
  | nil => exact ⟨middle, rfl, above⟩
  | cons a front ih =>
    cases middle with
    | nil => cases above
    | cons b middle =>
      rcases List.cons_lex_cons_iff.mp above with lower | ⟨rfl, lower⟩
      · rcases List.cons_lex_cons_iff.mp below with upper | ⟨rfl, _⟩
        · exact absurd upper (asymm _ _ lower)
        · exact absurd lower (asymm _ _ lower)
      · rcases List.cons_lex_cons_iff.mp below with upper | ⟨_, upper⟩
        · exact absurd upper (asymm _ _ upper)
        · obtain ⟨rest, rfl, further⟩ := ih lower upper
          exact ⟨rest, rfl, further⟩

end Blocks

namespace Component

/-- The rank of a component: the root, `.`, `..`, and last the names. -/
def rank : Component → Nat
  | root => 0
  | current => 1
  | parent => 2
  | name _ => 3

/-- Whether a component comes before another one: it has a lower rank, or both are names and its
characters come first. -/
inductive Before : Component → Component → Prop
  | ofRank {a b : Component} (lower : a.rank < b.rank) : Before a b
  | ofName {a b : String} (smaller : a < b) : Before (name a) (name b)

theorem before_asymm (a b : Component) (before : a.Before b) : ¬ b.Before a := by
  intro after
  cases before with
  | ofRank lower =>
    cases after with
    | ofRank higher => exact Nat.lt_asymm lower higher
    | ofName _ => exact Nat.lt_irrefl _ lower
  | ofName smaller =>
    cases after with
    | ofRank higher => exact Nat.lt_irrefl _ higher
    | ofName larger => exact absurd larger (String.lt_asymm smaller)

theorem toNat_injective : Function.Injective Char.toNat := fun _ _ => Char.toNat_inj.mp

theorem compare_toNat_iff (a b : Char) : compare a.toNat b.toNat = .lt ↔ a < b :=
  Nat.compare_eq_lt

theorem key_injective : Function.Injective key := by
  intro a b same
  cases a <;> cases b <;>
    simp_all [key, List.map_inj_right fun _ _ => Char.toNat_inj.mp, String.toList_inj]

theorem before_iff {a b : Component} :
    a.Before b ↔ a.rank < b.rank ∨ ∃ m n, a = name m ∧ b = name n ∧ m < n := by
  constructor
  · intro before
    cases before with
    | ofRank lower => exact .inl lower
    | ofName smaller => exact .inr ⟨_, _, rfl, rfl, smaller⟩
  · rintro (lower | ⟨m, n, rfl, rfl, smaller⟩)
    · exact .ofRank lower
    · exact .ofName smaller

/-- The keys of components are compared as the components are. -/
theorem compare_key_iff (a b : Component) : compare a.key b.key = .lt ↔ a.Before b := by
  have chars : ∀ m n : String, compare (m.toList.map Char.toNat) (n.toList.map Char.toNat) = .lt ↔
      m < n := fun m n => (compare_map_eq_lt_iff toNat_injective compare_toNat_iff).trans
    String.lt_iff.symm
  cases a <;> cases b <;>
    simp [before_iff, key, rank, chars, List.compare_cons_cons, Ordering.then_eq_lt,
      Nat.compare_eq_lt]

end Component

namespace Path

/-- Whether a path comes before another one: at the first difference of their components its own
component comes before the other, or its components end there. -/
def Before (a b : Path) : Prop := List.Lex Component.Before a.components b.components

theorem compare_key_iff {a b : Path} : compare a.key b.key = .lt ↔ a.Before b :=
  compare_map_eq_lt_iff Component.key_injective Component.compare_key_iff

theorem key_inj {a b : Path} : a.key = b.key ↔ a.components = b.components :=
  (List.map_injective_iff.mpr Component.key_injective).eq_iff

theorem Before.asymm {a b : Path} (before : a.Before b) : ¬ b.Before a := by
  rw [← compare_key_iff] at before ⊢
  simp [Std.OrientedCmp.gt_of_lt before]

/-- Whether a path leads to something in a directory, at any depth. -/
def isBelow (path directory : Path) : Bool :=
  (path.componentsBelow? directory).any fun behind => !behind.isEmpty

theorem isBelow_iff {path directory : Path} : path.isBelow directory = true ↔
    ∃ behind, behind ≠ [] ∧ path.components = directory.components ++ behind := by
  simp only [isBelow, componentsBelow?, List.isPrefixOf_iff_prefix]
  constructor
  · intro below
    split at below
    · rename_i leads
      obtain ⟨behind, cut⟩ := leads
      rw [← cut] at below
      exact ⟨behind, by simpa using below, cut.symm⟩
    · simp at below
  · rintro ⟨behind, nonempty, cut⟩
    rw [if_pos ⟨behind, cut.symm⟩, cut]
    simpa using nonempty

/-- Of two paths that names lead to from one directory, one is below the other if its names begin with
those of the other. -/
theorem isBelow_joinAll_iff (directory : Path) {names others : List String}
    (areNames : ∀ name ∈ names, IsName name) (alsoNames : ∀ name ∈ others, IsName name) :
    (directory.joinAll others).isBelow (directory.joinAll names) = true ↔
      ∃ behind, behind ≠ [] ∧ others = names ++ behind := by
  rw [isBelow_iff, components_joinAll directory areNames, components_joinAll directory alsoNames]
  simp only [List.append_assoc, List.append_cancel_left_eq]
  constructor
  · rintro ⟨behind, nonempty, cut⟩
    obtain ⟨front, back, rfl, same, rfl⟩ := List.map_eq_append_iff.mp cut
    obtain rfl := (List.map_injective_iff.mpr fun _ _ => Component.name.inj) same
    exact ⟨back, by simpa using nonempty, rfl⟩
  · rintro ⟨behind, nonempty, rfl⟩
    exact ⟨behind.map .name, by simpa using nonempty, List.map_append⟩

/-- What comes between two paths below a directory is below it as well. -/
theorem isBelow_of_between {directory a b c : Path} (above : a.Before b) (under : b.Before c)
    (first : a.isBelow directory = true) (last : c.isBelow directory = true) :
    b.isBelow directory = true := by
  obtain ⟨low, _, first⟩ := isBelow_iff.mp first
  obtain ⟨high, _, last⟩ := isBelow_iff.mp last
  rw [Before, first] at above
  rw [Before, last] at under
  obtain ⟨rest, middle, further⟩ :=
    exists_append_of_lex_between Component.before_asymm above under
  refine isBelow_iff.mpr ⟨rest, ?_, middle⟩
  rintro rfl
  cases further

/-- The paths below a directory stand together. -/
theorem filter_isBelow_together {paths : List Path} (ordered : paths.Pairwise Before)
    (directory : Path) : paths.filter (·.isBelow directory) <:+: paths := by
  have convex : ∀ a b c : Path, a.Before b → b.Before c → a.isBelow directory = true →
      c.isBelow directory = true → b.isBelow directory = true := fun _ _ _ => isBelow_of_between
  exact filter_infix_of_convex convex ordered

/-- Paths in order whose components differ are in strict order. -/
theorem before_of_inOrder {a b : Path} (ordered : Discovery.inOrder a b = true)
    (different : a.components ≠ b.components) : a.Before b := by
  rw [← compare_key_iff]
  rcases Ordering.isLE_iff_eq_lt_or_eq_eq.mp ordered with lower | same
  · exact lower
  · exact absurd (key_inj.mp (Std.compare_eq_iff_eq.mp same)) different

theorem inOrder_trans (a b c : Path) (first : Discovery.inOrder a b = true)
    (second : Discovery.inOrder b c = true) : Discovery.inOrder a c = true :=
  Std.TransCmp.isLE_trans first second

theorem inOrder_total (a b : Path) : (Discovery.inOrder a b || Discovery.inOrder b a) = true := by
  have swapped : compare b.key a.key = (compare a.key b.key).swap := Std.OrientedCmp.eq_swap
  rw [Discovery.inOrder, Discovery.inOrder, swapped]
  cases compare a.key b.key <;> rfl

theorem nodup_of_pairwise_before {paths : List Path} (ordered : paths.Pairwise Before) :
    paths.Nodup :=
  ordered.imp fun before same => (same ▸ before).asymm (same ▸ before)

/-- Two lists of paths in strict order with the same members are the same list. -/
theorem eq_of_mem_iff {paths others : List Path} (ordered : paths.Pairwise Before)
    (alsoOrdered : others.Pairwise Before) (same : ∀ path, path ∈ paths ↔ path ∈ others) :
    paths = others := by
  apply List.Perm.eq_of_pairwise (fun a b _ _ before after => absurd after before.asymm) ordered
    alsoOrdered
  exact (List.perm_ext_iff_of_nodup (nodup_of_pairwise_before ordered)
    (nodup_of_pairwise_before alsoOrdered)).mpr same

/-- Of two lists of paths in strict order, one whose members the other has is a part of it. -/
theorem sublist_of_subset {paths others : List Path} (ordered : paths.Pairwise Before)
    (alsoOrdered : others.Pairwise Before) (subset : paths ⊆ others) :
    paths.Sublist others := by
  have selected : paths = others.filter (paths.contains ·) := by
    refine eq_of_mem_iff ordered (alsoOrdered.filter _) fun path => ?_
    simp only [List.mem_filter, List.contains_iff_mem]
    exact ⟨fun member => ⟨subset member, member⟩, And.right⟩
  rw [selected]
  exact List.filter_sublist

/-- Whether the name of a file in reports begins with the names of directories, with a slash behind
each of them. -/
def isNamedBelow (id : String) (names : List String) : Bool :=
  ("/".intercalate names ++ "/").toList.isPrefixOf id.toList

theorem intercalate_append {front back : List String} (nonempty : front ≠ [])
    (alsoNonempty : back ≠ []) : "/".intercalate (front ++ back) =
      "/".intercalate front ++ "/" ++ "/".intercalate back := by
  obtain ⟨next, more, rfl⟩ := List.exists_cons_of_ne_nil alsoNonempty
  induction front with
  | nil => exact absurd rfl nonempty
  | cons name rest ih =>
    cases rest with
    | nil => simp [String.intercalate_cons_cons]
    | cons other rest =>
      simp only [List.cons_append, String.intercalate_cons_cons] at ih ⊢
      rw [ih (by simp)]
      simp only [String.append_assoc]

theorem toList_append_slash (front back : String) :
    (front ++ "/" ++ back).toList = front.toList ++ '/' :: back.toList := by
  simp

/-- Joined names are found again between the slashes. -/
theorem split_intercalate {names : List String} (nonempty : names ≠ [])
    (areNames : ∀ name ∈ names, IsName name) :
    Text.split '/' ("/".intercalate names).toList = names.map String.toList :=
  Text.split_intercalate rfl nonempty fun name member => (areNames name member).2.2.2

/-- The name of a file begins with the names of directories if it lies below them. -/
theorem isNamedBelow_intercalate {names others : List String} (nonempty : names ≠ [])
    (alsoNonempty : others ≠ []) (areNames : ∀ name ∈ names, IsName name)
    (alsoNames : ∀ name ∈ others, IsName name) :
    isNamedBelow ("/".intercalate others) names = true ↔
      ∃ behind, behind ≠ [] ∧ others = names ++ behind := by
  rw [isNamedBelow, List.isPrefixOf_iff_prefix]
  constructor
  · rintro ⟨rest, cut⟩
    rw [← String.toList_ofList (l := rest), ← String.toList_append, toList_append_slash] at cut
    have pieces := congrArg (Text.split '/') cut
    rw [Text.split_append_cons, split_intercalate nonempty areNames,
      split_intercalate alsoNonempty alsoNames] at pieces
    obtain ⟨front, behind, rfl, same, more⟩ := List.map_eq_append_iff.mp pieces.symm
    obtain rfl := (List.map_injective_iff.mpr fun _ _ => String.toList_inj.mp) same
    refine ⟨behind, ?_, rfl⟩
    rintro rfl
    exact Text.split_ne_nil _ _ more.symm
  · rintro ⟨behind, more, rfl⟩
    have cut := intercalate_append nonempty more
    exact ⟨("/".intercalate behind).toList, by rw [cut, ← String.toList_append]⟩

end Path

end LineLint
