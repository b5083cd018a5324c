import LineLint.Proofs.Checking

/-! # What a filter of rules means

A filter is a text between whose commas kinds of rules are named. All that counts of it is which
kinds are named: neither their order nor how often they are named, neither blanks nor case, neither
names against codes nor words that name nothing make a difference to the rules that run. A filter
that names no kind is an error.
-/

namespace LineLint

namespace Text

/-- A text is its trimmed form between blanks. -/
theorem exists_eq_append_trim (text : List Char) : ∃ before after,
    text = before ++ trim text ++ after ∧ ∀ c ∈ before ++ after, isBlank c = true := by
  let rest := text.dropWhile isBlank
  have behind : rest = trim text ++ (rest.reverse.takeWhile isBlank).reverse := by
    rw [trim, ← List.reverse_append, List.takeWhile_append_dropWhile, List.reverse_reverse]
  refine ⟨text.takeWhile isBlank, (rest.reverse.takeWhile isBlank).reverse, ?_, ?_⟩
  · rw [List.append_assoc, ← behind, List.takeWhile_append_dropWhile]
  · intro c member
    rcases List.mem_append.mp member with before | after
    · exact List.mem_takeWhile_imp before
    · exact List.mem_takeWhile_imp (List.mem_reverse.mp after)

theorem trim_of_solid {text : List Char} (solid : ∀ c ∈ text, isBlank c = false) :
    trim text = text := by
  have dropped {text : List Char} (solid : ∀ c ∈ text, isBlank c = false) :
      text.dropWhile isBlank = text := by
    rw [List.dropWhile_eq_self_iff]
    intro nonempty
    rw [solid _ (List.getElem_mem nonempty)]
    exact Bool.false_ne_true
  rw [trim, dropped solid, dropped fun c member => solid c (List.mem_reverse.mp member),
    List.reverse_reverse]

/-- Blanks around a text are trimmed off. -/
theorem trim_append {before text after : List Char}
    (blank : ∀ c ∈ before ++ after, isBlank c = true) :
    trim (before ++ text ++ after) = trim text := by
  obtain ⟨front, back⟩ := List.forall_mem_append.mp blank
  have none : after.dropWhile isBlank = [] := List.dropWhile_eq_nil_iff.mpr back
  rw [trim, List.append_assoc, List.dropWhile_append_of_pos front, List.dropWhile_append, none]
  split
  · rename_i empty
    rw [trim, List.isEmpty_iff.mp empty]
  · rw [List.reverse_append, List.dropWhile_append_of_pos fun c member =>
      back c (List.mem_reverse.mp member)]
    rfl

/-- A blank is no letter, so it has no case. -/
theorem toLower_of_isBlank {c : Char} (blank : isBlank c = true) : c.toLower = c := by
  unfold Char.toLower
  split
  · rename_i upper
    have alphanum : c.isAlphanum = true := by
      change ((decide (c.val ≥ 'A'.val ∧ c.val ≤ 'Z'.val) || _) || _) = true
      rw [decide_eq_true upper]
      rfl
    rw [isBlank_eq_false_of_isAlphanum alphanum] at blank
    cases blank
  · rfl

/-- A text that is a text without blanks in another case has no blanks. -/
theorem solid_of_map_toLower {text word : List Char} (solid : ∀ c ∈ word, isBlank c.toLower = false)
    (same : text.map Char.toLower = word.map Char.toLower) : ∀ c ∈ text, isBlank c = false := by
  intro c member
  have lowered : c.toLower ∈ word.map Char.toLower := same ▸ List.mem_map_of_mem member
  obtain ⟨d, inWord, equal⟩ := List.mem_map.mp lowered
  rw [Bool.eq_false_iff]
  intro blank
  have other := solid d inWord
  rw [equal, toLower_of_isBlank blank, blank] at other
  cases other

end Text

namespace RuleKind

variable {kind : RuleKind} {piece : List Char}

/-- A text spells a kind: it is the name or the code of the kind in any case, with or without blanks
around it. -/
def SpelledBy (kind : RuleKind) (piece : List Char) : Prop :=
  ∃ before written after, piece = before ++ written ++ after ∧
    (∀ c ∈ before ++ after, Text.isBlank c = true) ∧
    ∃ word ∈ [kind.name, kind.code], written.map Char.toLower = word.toList.map Char.toLower

theorem solid_words (kind : RuleKind) : ∀ word ∈ [kind.name, kind.code], ∀ c ∈ word.toList,
    Text.isBlank c.toLower = false := by
  cases kind <;> simp [name, code, Text.isBlank]

theorem spelledBy_iff : kind.SpelledBy piece ↔ ∃ word ∈ [kind.name, kind.code],
    (Text.trim piece).map Char.toLower = word.toList.map Char.toLower := by
  constructor
  · rintro ⟨before, written, after, rfl, blank, word, named, same⟩
    have solid := Text.solid_of_map_toLower (solid_words kind word named) same
    exact ⟨word, named, by rw [Text.trim_append blank, Text.trim_of_solid solid, same]⟩
  · rintro ⟨word, named, same⟩
    obtain ⟨before, after, whole, blank⟩ := Text.exists_eq_append_trim piece
    exact ⟨before, Text.trim piece, after, whole, blank, word, named, same⟩

/-- An empty piece between commas names nothing. -/
theorem not_spelledBy_nil (kind : RuleKind) : ¬ kind.SpelledBy [] := by
  rw [spelledBy_iff]
  cases kind <;> decide

end RuleKind

namespace RuleSet

/-- Which kinds are listed is all that counts of a list of kinds. -/
theorem only_congr {kinds others : List RuleKind} (same : ∀ kind, kind ∈ kinds ↔ kind ∈ others)
    (set : RuleSet) : set.only kinds = set.only others := by
  have listed : ∀ kind, kinds.contains kind = others.contains kind := by
    intro kind
    rw [Bool.eq_iff_iff, List.contains_iff_mem, List.contains_iff_mem, same]
  simp only [only, listed]

end RuleSet

namespace CheckOptions

variable {options : CheckOptions} {settings : Settings} {all : RuleSet} {filter : String}

/-- A filter names a kind: one of its pieces between commas, trimmed of blanks, is the name or the
code of the kind up to ASCII case. -/
def Names (filter : String) (kind : RuleKind) : Prop :=
  ∃ piece ∈ Text.split ',' filter.toList, ∃ word ∈ [kind.name, kind.code],
    (Text.trim piece).map Char.toLower = word.toList.map Char.toLower

instance (filter : String) (kind : RuleKind) : Decidable (Names filter kind) :=
  inferInstanceAs (Decidable (∃ piece ∈ _, ∃ word ∈ _, _))

theorem mem_kindsOf_iff_names {kind : RuleKind} : kind ∈ kindsOf filter ↔ Names filter kind := by
  rw [mem_kindsOf_iff, List.any_eq_true]
  refine exists_congr fun piece => and_congr_right fun _ => ?_
  rw [RuleKind.isNamedBy_iff]
  simp only [eq_comm]

/-- What a filter that is made of pieces names is what its pieces spell. -/
theorem names_intercalate_iff {pieces : List String} (apart : ∀ piece ∈ pieces, ',' ∉ piece.toList)
    {kind : RuleKind} : Names (",".intercalate pieces) kind ↔
      ∃ piece ∈ pieces, kind.SpelledBy piece.toList := by
  simp only [Names, ← RuleKind.spelledBy_iff]
  cases pieces with
  | nil =>
    -- No pieces at all make the text of one empty piece.
    simp [Text.split, RuleKind.not_spelledBy_nil]
  | cons first rest =>
    rw [Text.split_intercalate rfl (List.cons_ne_nil first rest) apart]
    simp only [List.mem_map, exists_exists_and_eq_and]

/-- A set of rules is what a filter makes of all rules: it has those of the kinds that the filter
names, each once, in the order in which they run. -/
structure Selection (filter : String) (all set : RuleSet) : Prop where
  kinds_iff : ∀ kind, kind ∈ set.kinds ↔ Names filter kind
  inOrder : set.kinds.Pairwise fun a b => a.rank < b.rank
  sublist : set.rules.Sublist all.rules

theorem selection_only (built : options.builtIn settings = .ok all) (filter : String) :
    Selection filter all (all.only (kindsOf filter)) := by
  obtain ⟨unit, -, rfl⟩ := exists_unit_of_builtIn built
  have kinds : ((RuleSet.ofIndentUnit unit).only (kindsOf filter)).kinds =
      RuleKind.all.filter (kindsOf filter).contains := by
    rw [RuleSet.kinds_only, RuleSet.kinds_ofIndentUnit]
  refine ⟨?_, ?_, List.filter_sublist⟩
  · intro kind
    rw [kinds, List.mem_filter, List.contains_iff_mem, mem_kindsOf_iff_names]
    exact and_iff_right (RuleKind.mem_all kind)
  · rw [kinds]
    exact RuleKind.pairwise_rank_all.filter _

/-- Filters that name the same kinds give the same rules. -/
theorem toOption_ruleSet_congr {filter other : String}
    (same : ∀ kind, Names filter kind ↔ Names other kind) (options : CheckOptions)
    (settings : Settings) :
    ({ options with rules := some filter }.ruleSet settings).toOption =
      ({ options with rules := some other }.ruleSet settings).toOption := by
  have kinds : ∀ kind, kind ∈ kindsOf filter ↔ kind ∈ kindsOf other := by
    intro kind
    rw [mem_kindsOf_iff_names, mem_kindsOf_iff_names, same]
  have none : kindsOf filter = [] ↔ kindsOf other = [] := by
    simp only [List.eq_nil_iff_forall_not_mem, kinds]
  cases built : options.builtIn settings with
  | error error =>
    have failed (filter : String) :
        { options with rules := some filter }.builtIn settings = .error error := built
    rw [ruleSet_of_builtIn (failed filter), ruleSet_of_builtIn (failed other)]
  | ok all =>
    have built (filter : String) :
        { options with rules := some filter }.builtIn settings = .ok all := built
    rw [ruleSet_of_kinds (built filter) rfl, ruleSet_of_kinds (built other) rfl,
      RuleSet.only_congr kinds all]
    by_cases empty : kindsOf other = []
    · rw [if_pos (none.mpr empty), if_pos empty]
      rfl
    · rw [if_neg (none.not.mpr empty), if_neg empty]

end CheckOptions

/-- A filter means the set of the kinds that it names. Where the indent unit is sound, rules are
built if and only if some kind is named, and then they are those of the named kinds. Filters that
name the same kinds are alike, and what a filter names depends on what its pieces spell, in whatever
order, case and company. To select twice is to select what is listed both times. -/
theorem filter_means_set_of_kinds :
    (∀ (options : CheckOptions) (settings : Settings) (all : RuleSet) (filter : String),
      options.builtIn settings = .ok all → options.rules = some filter →
        ((∃ set, options.ruleSet settings = .ok set) ↔ ∃ kind, CheckOptions.Names filter kind) ∧
          ∀ set, options.ruleSet settings = .ok set → CheckOptions.Selection filter all set) ∧
      (∀ (options : CheckOptions) (settings : Settings) (filter other : String),
        (∀ kind, CheckOptions.Names filter kind ↔ CheckOptions.Names other kind) →
          ({ options with rules := some filter }.ruleSet settings).toOption =
            ({ options with rules := some other }.ruleSet settings).toOption) ∧
      (∀ pieces : List String, (∀ piece ∈ pieces, ',' ∉ piece.toList) →
        ∀ kind, CheckOptions.Names (",".intercalate pieces) kind ↔
          ∃ piece ∈ pieces, kind.SpelledBy piece.toList) ∧
      ∀ (set : RuleSet) (kinds others both : List RuleKind),
        (∀ kind, kind ∈ both ↔ kind ∈ kinds ∧ kind ∈ others) →
          (set.only kinds).only others = set.only both := by
  refine ⟨?_, ?_, ?_, ?_⟩
  · intro options settings all filter built given
    have named : (∃ kind, CheckOptions.Names filter kind) ↔ CheckOptions.kindsOf filter ≠ [] := by
      simp only [← CheckOptions.mem_kindsOf_iff_names]
      exact ⟨fun ⟨_, member⟩ => List.ne_nil_of_mem member, List.exists_mem_of_ne_nil _⟩
    rw [CheckOptions.ruleSet_of_kinds built given, named]
    split
    · rename_i none
      simp [none]
    · rename_i some
      refine ⟨iff_of_true ⟨_, rfl⟩ some, ?_⟩
      rintro _ ⟨⟩
      exact CheckOptions.selection_only built filter
  · intro options settings filter other same
    exact CheckOptions.toOption_ruleSet_congr same options settings
  · intro pieces apart kind
    exact CheckOptions.names_intercalate_iff apart
  · intro set kinds others both listed
    rw [RuleSet.only_only]
    refine RuleSet.only_congr (fun kind => ?_) set
    rw [List.mem_filter, List.contains_iff_mem, listed]

/-- Two filters that look little alike: one has a kind twice, blanks, a word that names nothing and
an empty piece. -/
theorem filter_means_set_of_kinds_in_two_spellings :
    let options : CheckOptions := { indentUnit := some 2 }
    let all : RuleSet := .ofIndentUnit ⟨2, by decide⟩
    let pieces := [" sl003", "lint", "", "Method-Naming\t", "\u00a0INDENTATION"]
    let filter := ",".intercalate pieces
    options.builtIn .default = .ok all ∧ (∀ piece ∈ pieces, ',' ∉ piece.toList) ∧
      (∃ kind, CheckOptions.Names filter kind) ∧
      (∀ kind, CheckOptions.Names filter kind ↔ CheckOptions.Names "SL001,SL003" kind) ∧
      (∃ set, { options with rules := some filter }.ruleSet .default = .ok set ∧
        CheckOptions.Selection filter all set) ∧
      ({ options with rules := some filter }.ruleSet .default).toOption =
        ({ options with rules := some "SL001,SL003" }.ruleSet .default).toOption ∧
      RuleKind.methodNaming.SpelledBy "Method-Naming\t".toList ∧
      (all.only [.methodNaming, .indentation]).only [.variableNaming, .methodNaming] =
        all.only [.methodNaming] := by
  intro options all pieces filter
  obtain ⟨means, alike, spelled, twice⟩ := filter_means_set_of_kinds
  have apart : ∀ piece ∈ pieces, ',' ∉ piece.toList := by decide
  have spells : RuleKind.methodNaming.SpelledBy "Method-Naming\t".toList :=
    RuleKind.spelledBy_iff.mpr (by decide)
  have named : ∃ kind, CheckOptions.Names filter kind :=
    ⟨.methodNaming, (spelled pieces apart _).mpr ⟨_, by decide, spells⟩⟩
  have same : ∀ kind, CheckOptions.Names filter kind ↔
      CheckOptions.Names "SL001,SL003" kind := by
    intro kind
    cases kind <;> decide
  have built : options.builtIn .default = .ok all := rfl
  obtain ⟨exist, selection⟩ :=
    means { options with rules := some filter } .default all filter built rfl
  obtain ⟨set, made⟩ := exist.mpr named
  refine ⟨built, apart, named, same, ⟨set, made, selection set made⟩,
    alike options .default filter _ same, spells, twice all _ _ _ ?_⟩
  intro kind
  cases kind <;> decide

end LineLint
