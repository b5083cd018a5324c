import LineLint.Finding.Json

/-! # Members of JSON values

A value presents members as an object, which holds them in any order and may hold others, or as the
array of their values. Main statements: the members are found however they are presented, and none
is found where one of them is missing or repeated.
-/

namespace LineLint

theorem mapM_map_eq_some_map {α β γ : Type} {read : β → Option γ} {written : α → β} {meant : α → γ}
    {list : List α} (each : ∀ a ∈ list, read (written a) = some (meant a)) :
    (list.map written).mapM read = some (list.map meant) := by
  induction list with
  | nil => rfl
  | cons a rest ih =>
    obtain ⟨first, others⟩ := List.forall_mem_cons.mp each
    simp [first, ih others]

theorem exists_mem_zip_of_mapM {α β : Type} {read : α → Option β} {list : List α} {found : List β}
    (all : list.mapM read = some found) {a : α} (member : a ∈ list) :
    ∃ b, read a = some b ∧ (a, b) ∈ list.zip found := by
  induction list generalizing found with
  | nil => cases member
  | cons first rest ih =>
    simp only [List.mapM_cons, Option.pure_def, Option.bind_eq_bind, Option.bind_eq_some_iff,
      Option.some.injEq] at all
    obtain ⟨b, read, others, more, rfl⟩ := all
    rcases List.mem_cons.mp member with rfl | later
    · exact ⟨b, read, List.mem_cons_self⟩
    · obtain ⟨c, read, listed⟩ := ih more later
      exact ⟨c, read, List.mem_cons_of_mem _ listed⟩

namespace Json.Value

/-- The members of an object with these keys. -/
def named (members : List (String × Value)) : List (Text × Value) :=
  members.map fun (key, item) => (some key, item)

/-- Whether a value presents members: as an object that holds them in any order, with others under
other names, or as the array of them in order. The names of the others are listed. -/
inductive Presents (members : List (String × Value)) : List Text → Value → Prop
  | object {entries others : List (Text × Value)}
      (order : entries.Perm (named members ++ others))
      (further : ∀ other ∈ others, ∀ member ∈ members, other.1 ≠ some member.1) :
      Presents members (others.map Prod.fst) (object entries)
  | array : Presents members [] (array (members.map Prod.snd))

/-- Whether a value holds an item under a key: by name, or in an array in the place that the key has
among these. -/
inductive Holds (keys : List String) (key : String) : Value → Value → Prop
  | named {entries : List (Text × Value)} {item : Value} (listed : (some key, item) ∈ entries) :
      Holds keys key (object entries) item
  | placed {items : List Value} {item : Value} (listed : (key, item) ∈ keys.zip items) :
      Holds keys key (array items) item

/-- Whether there is a key among these under which a value holds nothing, or more than one item. -/
inductive Misses (keys : List String) : Value → Prop
  | missing {entries : List (Text × Value)} {key : String} (known : key ∈ keys)
      (absent : ∀ item, (some key, item) ∉ entries) : Misses keys (object entries)
  | repeated {entries : List (Text × Value)} {key : String} {a b : Value} (known : key ∈ keys)
      (twice : [(some key, a), (some key, b)].Sublist entries) : Misses keys (object entries)
  | miscounted {items : List Value} (other : items.length ≠ keys.length) : Misses keys (array items)

variable {keys : List String} {key : String} {item value : Value} {items : List Value}
  {entries others : List (Text × Value)} {members : List (String × Value)} {names : List Text}

theorem presents_ofMembers (members : List (String × Value)) :
    (ofMembers members).Presents members [] := by
  have order : (named members).Perm (named members ++ []) := by rw [List.append_nil]
  exact .object order (by simp)

theorem mem_under : item ∈ under key entries ↔ (some key, item) ∈ entries := by
  simp [under]

theorem under_append : under key (entries ++ others) = under key entries ++ under key others := by
  simp [under]

theorem under_perm (key : String) (order : entries.Perm others) :
    (under key entries).Perm (under key others) :=
  (order.filter _).map _

theorem under_sublist (key : String) (fewer : entries.Sublist others) :
    (under key entries).Sublist (under key others) :=
  (fewer.filter _).map _

theorem under_eq_nil (absent : ∀ entry ∈ entries, entry.1 ≠ some key) : under key entries = [] :=
  List.eq_nil_iff_forall_not_mem.mpr fun _ found => absurd rfl (absent _ (mem_under.mp found))

/-- A key given twice counts as no field. -/
theorem unique?_eq_some_iff : unique? key entries = some item ↔ under key entries = [item] := by
  unfold unique?
  split
  · rename_i found
    rw [found, Option.some.injEq, List.cons.injEq, and_iff_left rfl]
  · rename_i other
    constructor
    · intro found
      cases found
    · exact fun found => absurd found (other item)

theorem under_cons (name : String) (item : Value) :
    under key ((some name, item) :: entries) =
      if name = key then item :: under key entries else under key entries := by
  by_cases same : name = key <;> simp [under, same]

/-- Of members with different keys exactly one stands under the key of each. -/
theorem under_of_mem (different : (members.map Prod.fst).Nodup) (member : (key, item) ∈ members) :
    under key (named members) = [item] := by
  induction members with
  | nil => cases member
  | cons first rest ih =>
    obtain ⟨fresh, different⟩ := List.nodup_cons.mp different
    rw [named, List.map_cons, under_cons]
    rcases List.mem_cons.mp member with rfl | later
    · have absent : under key (named rest) = [] := by
        apply under_eq_nil
        rintro _ listed same
        obtain ⟨other, given, rfl⟩ := List.mem_map.mp listed
        exact fresh (List.mem_map.mpr ⟨other, given, Option.some.inj same⟩)
      rw [if_pos rfl, ← named, absent]
    · have otherKey : first.1 ≠ key := fun same =>
        fresh (List.mem_map.mpr ⟨_, later, same.symm⟩)
      rw [if_neg otherKey]
      exact ih different later

/-- Members are found where they are presented, if every other name has a text. -/
theorem Presents.fields?_eq (presented : Presents members names value)
    (different : (members.map Prod.fst).Nodup) (readable : none ∉ names) :
    value.fields? (members.map Prod.fst) = some (members.map Prod.snd) := by
  cases presented with
  | array => simp [fields?]
  | @object entries others order further =>
    have texts : (entries.all fun entry => entry.1.isSome) = true := by
      rw [List.all_eq_true]
      intro entry listed
      rcases List.mem_append.mp (order.mem_iff.mp listed) with known | other
      · obtain ⟨member, _, rfl⟩ := List.mem_map.mp known
        rfl
      · rw [Option.isSome_iff_ne_none]
        intro nameless
        exact readable (List.mem_map.mpr ⟨entry, other, nameless⟩)
    rw [fields?, if_pos texts]
    apply mapM_map_eq_some_map
    intro member given
    have alone : under member.1 others = [] :=
      under_eq_nil fun other listed => further other listed member given
    have found := under_perm member.1 order
    rw [under_append, alone, List.append_nil, under_of_mem different given] at found
    exact unique?_eq_some_iff.mpr (List.perm_singleton.mp found)

/-- No member is found in an object in which a name has no text. -/
theorem Presents.fields?_eq_none (presented : Presents members names value)
    (unreadable : none ∈ names) : value.fields? keys = none := by
  cases presented with
  | array => cases unreadable
  | @object entries others order further =>
    obtain ⟨other, listed, nameless⟩ := List.mem_map.mp unreadable
    have inside : other ∈ entries := order.mem_iff.mpr (List.mem_append_right _ listed)
    rw [fields?, if_neg]
    intro texts
    have text := List.all_eq_true.mp texts other inside
    rw [nameless] at text
    cases text

/-- The members of an object are found where each key comes exactly once. -/
theorem exists_under_eq (known : key ∈ keys) (found : (object entries).fields? keys = some items) :
    ∃ item, under key entries = [item] ∧ (key, item) ∈ keys.zip items := by
  rw [fields?] at found
  split at found
  · obtain ⟨item, unique, inside⟩ := exists_mem_zip_of_mapM found known
    exact ⟨item, unique?_eq_some_iff.mp unique, inside⟩
  · cases found

/-- What is found under a key is what the value holds there. -/
theorem Holds.mem_zip (holds : value.Holds keys key item) (known : key ∈ keys)
    (found : value.fields? keys = some items) : (key, item) ∈ keys.zip items := by
  cases holds with
  | placed listed =>
    rw [fields?] at found
    split at found <;> cases found
    exact listed
  | named listed =>
    obtain ⟨other, alone, inside⟩ := exists_under_eq known found
    have same := mem_under.mpr listed
    rw [alone, List.mem_singleton] at same
    rwa [same]

/-- Nothing is found where a member is missing or repeated. -/
theorem Misses.fields?_eq_none (misses : Misses keys value) : value.fields? keys = none := by
  rw [Option.eq_none_iff_forall_ne_some]
  intro items found
  cases misses with
  | miscounted other =>
    rw [fields?, if_neg other] at found
    cases found
  | missing known absent =>
    obtain ⟨item, alone, _⟩ := exists_under_eq known found
    exact absent item (mem_under.mp (alone ▸ List.mem_singleton_self item))
  | @repeated _ key _ _ known twice =>
    obtain ⟨item, alone, _⟩ := exists_under_eq known found
    have both := (under_sublist key twice).length_le
    rw [alone, under_cons, if_pos rfl, under_cons, if_pos rfl] at both
    exact absurd both (by simp)

end Json.Value

end LineLint
