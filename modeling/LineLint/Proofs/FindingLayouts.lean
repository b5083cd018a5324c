import LineLint.Proofs.JsonGrammar
import LineLint.Proofs.JsonMembers
import LineLint.Proofs.JsonReport

/-! # Layouts of a finding in JSON

The members of a finding and those of its location may each be presented in many ways, and a text
may say each of these layouts in many ways. Main statement: the finding is read from all of these
texts, unless a further member has a name without a text, and nothing is read from a text with a
fault.
-/

namespace LineLint

open Json (Text Value)

namespace Location

def keys : List String := ["file", "line", "column"]

def members (location : Location) : List (String × Value) :=
  [("file", .ofString location.file), ("line", .ofNat location.line),
    ("column", .ofNat location.column)]

/-- Whether a number is no line and no column: it is written with a minus sign, a fraction or an
exponent, or does not fit in 64 bits. -/
inductive IsNoPosition : Value → Prop
  | marked {literal : String} {c : Char} (listed : c ∈ literal.toList)
      (mark : c ∈ ['-', '.', 'e', 'E']) : IsNoPosition (.number literal)
  | large {n : Nat} (large : UInt64.size ≤ n) : IsNoPosition (.ofNat n)

/-- Whether a value has a fault for which it is no location. -/
inductive IsFaulty (value : Value) : Prop
  | misses (misses : value.Misses keys)
  | null {key : String} (known : key ∈ keys) (holds : value.Holds keys key .null)
  | position {key : String} {item : Value} (known : key ∈ ["line", "column"])
      (holds : value.Holds keys key item) (no : IsNoPosition item)

variable {location : Location} {value item : Value} {names : List Text}

/-- A sign, a fraction, an exponent or a number over 64 bits makes no position. -/
theorem position?_eq_none (no : IsNoPosition item) : position? item = none := by
  cases no with
  | @marked literal c listed mark =>
    have other : literal.toList.all Char.isDigit = false := by
      rw [List.all_eq_false]
      refine ⟨c, listed, ?_⟩
      simp only [List.mem_cons, List.not_mem_nil, or_false] at mark
      rcases mark with rfl | rfl | rfl | rfl <;> decide
    simp [position?, Value.toNat?, other]
  | large large => simp [position?, Value.toNat?_ofNat, large]

theorem ofJson?_eq_some_iff :
    ofJson? value = some location ↔
      ∃ file line column, value.fields? keys = some [file, line, column] ∧
        file.toText? = some location.file ∧ position? line = some location.line ∧
          position? column = some location.column := by
  constructor
  · intro read
    unfold ofJson? at read
    split at read
    · rename_i file line column found
      simp only [Option.bind_eq_bind, Option.bind_eq_some_iff, Option.some.injEq] at read
      obtain ⟨_, named, _, lined, _, columned, rfl⟩ := read
      exact ⟨file, line, column, found, named, lined, columned⟩
    · cases read
  · rintro ⟨file, line, column, found, named, lined, columned⟩
    unfold keys at found
    simp [ofJson?, found, named, lined, columned]

/-- A location is read however its members are presented. -/
theorem ofJson?_of_presents (fits : location.Fits)
    (presented : value.Presents location.members names) (readable : none ∉ names) :
    ofJson? value = some location := by
  have different : (location.members.map Prod.fst).Nodup := by simp [members]
  exact ofJson?_eq_some_iff.mpr ⟨_, _, _, presented.fields?_eq different readable,
    Value.toText?_ofString _, position?_ofNat fits.1, position?_ofNat fits.2⟩

/-- Nothing is read from a value with a fault. -/
theorem ofJson?_of_isFaulty (faulty : IsFaulty value) : ofJson? value = none := by
  rw [Option.eq_none_iff_forall_ne_some]
  intro location read
  obtain ⟨file, line, column, found, named, lined, columned⟩ := ofJson?_eq_some_iff.mp read
  cases faulty with
  | misses misses =>
    rw [misses.fields?_eq_none] at found
    cases found
  | null known holds =>
    have inside := (List.of_mem_zip (holds.mem_zip known found)).2
    simp only [List.mem_cons, List.not_mem_nil, or_false] at inside
    rcases inside with rfl | rfl | rfl
    · cases named
    · cases lined
    · cases columned
  | @position key item known holds no =>
    have place := holds.mem_zip (List.mem_cons_of_mem _ known) found
    have unread := position?_eq_none no
    simp only [List.mem_cons, List.not_mem_nil, or_false] at known
    rcases known with rfl | rfl
    · obtain rfl : item = line := by simpa [keys] using place
      rw [unread] at lined
      cases lined
    · obtain rfl : item = column := by simpa [keys] using place
      rw [unread] at columned
      cases columned

end Location

namespace Finding

def keys : List String := ["rule", "severity", "location", "text", "message"]

/-- The members of a finding, in order, with its location as this value. -/
def members (f : Finding) (location : Value) : List (String × Value) :=
  [("rule", .ofString f.kind.name), ("severity", .ofString f.severity.name),
    ("location", location), ("text", .ofString f.text), ("message", .ofString f.message)]

/-- Whether a value is a layout of a finding: it presents its members, and the location in it
presents those of the location. The names of further members are listed. -/
inductive Layout (f : Finding) : List Text → Value → Prop
  | mk {outer inner : List Text} {location value : Value}
      (presented : value.Presents (f.members location) outer)
      (inside : location.Presents f.location.members inner) : Layout f (outer ++ inner) value

/-- Whether a value has a fault for which it is no finding. -/
inductive IsFaulty (value : Value) : Prop
  | misses (misses : value.Misses keys)
  | null {key : String} (known : key ∈ keys) (holds : value.Holds keys key .null)
  | rule {text : Text} (holds : value.Holds keys "rule" (.string text))
      (other : ∀ kind : RuleKind, text ≠ some kind.name)
  | severity {text : Text} (holds : value.Holds keys "severity" (.string text))
      (other : ∀ severity : Severity, text ≠ some severity.name)
  | location {location : Value} (holds : value.Holds keys "location" location)
      (faulty : Location.IsFaulty location)

variable {f : Finding} {value : Value} {names : List Text} {text : List Char}

theorem ofJson?_eq_some_iff :
    ofJson? value = some f ↔
      ∃ rule severity location text message,
        value.fields? keys = some [rule, severity, location, text, message] ∧
          rule.word?.bind RuleKind.ofName? = some f.kind ∧
          severity.word?.bind Severity.ofName? = some f.severity ∧
          Location.ofJson? location = some f.location ∧
          text.toText? = some f.text ∧ message.toText? = some f.message := by
  constructor
  · intro read
    unfold ofJson? at read
    split at read
    · rename_i rule severity location text message found
      simp only [Option.bind_eq_bind, Option.bind_eq_some_iff, Option.some.injEq] at read
      obtain ⟨_, kind, _, level, _, third, _, fourth, _, fifth, rfl⟩ := read
      exact ⟨rule, severity, location, text, message, found, Option.bind_eq_some_iff.mpr kind,
        Option.bind_eq_some_iff.mpr level, third, fourth, fifth⟩
    · cases read
  · rintro ⟨rule, severity, location, text, message, found, first, second, third, fourth, fifth⟩
    unfold keys at found
    simp [ofJson?, found, first, second, third, fourth, fifth]

/-- Members in any order, among any others with readable names, present the five fields. -/
theorem fields?_of_presents {location : Value} {outer : List Text}
    (presented : value.Presents (f.members location) outer) (readable : none ∉ outer) :
    value.fields? keys =
      some [.ofString f.kind.name, .ofString f.severity.name, location, .ofString f.text,
        .ofString f.message] := by
  have different : ((f.members location).map Prod.fst).Nodup := by simp [members]
  exact presented.fields?_eq different readable

/-- A finding is read from each of its layouts, if every further name has a text. -/
theorem ofJson?_of_layout (fits : f.location.Fits) (layout : f.Layout names value)
    (readable : none ∉ names) : ofJson? value = some f := by
  obtain ⟨presented, inside⟩ := layout
  rw [List.mem_append, not_or] at readable
  exact ofJson?_eq_some_iff.mpr ⟨_, _, _, _, _, fields?_of_presents presented readable.1,
    RuleKind.ofName?_name _, Severity.ofName?_name _,
    Location.ofJson?_of_presents fits inside readable.2, Value.toText?_ofString _,
    Value.toText?_ofString _⟩

/-- Nothing is read from a layout in which a further name has no text. -/
theorem ofJson?_of_layout_of_mem (layout : f.Layout names value) (unreadable : none ∈ names) :
    ofJson? value = none := by
  rw [Option.eq_none_iff_forall_ne_some]
  intro g read
  obtain ⟨_, _, location, _, _, found, _, _, located, _⟩ := ofJson?_eq_some_iff.mp read
  obtain @⟨outer, inner, _, _, presented, inside⟩ := layout
  by_cases nameless : none ∈ outer
  · rw [presented.fields?_eq_none nameless] at found
    cases found
  · have within := (List.mem_append.mp unreadable).resolve_left nameless
    rw [fields?_of_presents presented nameless] at found
    cases found
    obtain ⟨_, _, _, found, _⟩ := Location.ofJson?_eq_some_iff.mp located
    rw [inside.fields?_eq_none within] at found
    cases found

/-- Nothing is read from a value with a fault. -/
theorem ofJson?_of_isFaulty (faulty : IsFaulty value) : ofJson? value = none := by
  rw [Option.eq_none_iff_forall_ne_some]
  intro f read
  obtain ⟨rule, severity, location, text, message, found, first, second, third, fourth, fifth⟩ :=
    ofJson?_eq_some_iff.mp read
  cases faulty with
  | misses misses =>
    rw [misses.fields?_eq_none] at found
    cases found
  | null known holds =>
    have inside := (List.of_mem_zip (holds.mem_zip known found)).2
    simp only [List.mem_cons, List.not_mem_nil, or_false] at inside
    rcases inside with rfl | rfl | rfl | rfl | rfl
    · cases first
    · cases second
    · cases third
    · cases fourth
    · cases fifth
  | @rule word holds other =>
    obtain rfl : .string word = rule := by simpa [keys] using holds.mem_zip (by decide) found
    obtain ⟨name, rfl, named⟩ := Option.bind_eq_some_iff.mp first
    exact other _ (congrArg some (RuleKind.ofName?_eq_some_iff.mp named))
  | @severity word holds other =>
    obtain rfl : .string word = severity := by simpa [keys] using holds.mem_zip (by decide) found
    obtain ⟨name, rfl, named⟩ := Option.bind_eq_some_iff.mp second
    exact other _ (congrArg some (Severity.ofName?_eq_some_iff.mp named))
  | @location place holds faulty =>
    obtain rfl : place = location := by simpa [keys] using holds.mem_zip (by decide) found
    rw [Location.ofJson?_of_isFaulty faulty] at third
    cases third

/-- A text that says a layout of a finding is read as this finding, unless a further name has no
text, for then nothing is read. Nothing is read either from a text that says a value with a fault. -/
theorem reading_ignores_layout (said : value.SaidBy text) :
    (∀ (f : Finding) (names : List Text), f.location.Fits → f.Layout names value →
      (none ∉ names → ofText? text = some f) ∧ (none ∈ names → ofText? text = none)) ∧
    (IsFaulty value → ofText? text = none) := by
  have read : ofText? text = ofJson? value := by
    rw [ofText?, Value.ofText?_eq_some_iff.mpr said, Option.bind_some]
  rw [read]
  exact ⟨fun f names fits layout =>
    ⟨ofJson?_of_layout fits layout, ofJson?_of_layout_of_mem layout⟩, ofJson?_of_isFaulty⟩

/-- The members back to front and one more, the location as an array, and characters of a key and of
a text as units of UTF-16; and an array in which the line has a fraction. -/
theorem reading_ignores_layout_of_units :
    let f : Finding := ⟨.methodNaming, .info, ⟨"é", 0, 12⟩, "😀", "m\n"⟩
    let location : Value := .array [.ofString "é", .ofNat 0, .ofNat 12]
    let further : List (Text × Value) := [(some "more", .array [.object [(some "rule", .null)]])]
    let value : Value := .object (Value.named (f.members location) ++ further).reverse
    let text := ("\x7b\"more\":[ \x7b\"rule\" : null\x7d ], \"mess\\u0061ge\": \"m\\n\",\t" ++
      "\"text\":\"\\uD83D\\ude00\",\"location\":[\"é\",0,12],\n" ++
      "\"severity\":\"info\",\"rule\":\"method-naming\"\x7d").toList
    let fraction : Value := .array [.ofString "a", .number "1.0", .ofNat 1]
    let wrong : Value := .array
      [.ofString "indentation", .ofString "info", fraction, .ofString "", .ofString ""]
    let wrongText := "[\"indentation\",\"info\",[\"a\",1.0,1],\"\",\"\"]".toList
    (value.SaidBy text ∧ f.location.Fits ∧ f.Layout [some "more"] value ∧ ofText? text = some f) ∧
      wrong.SaidBy wrongText ∧ IsFaulty wrong ∧ ofText? wrongText = none := by
  intro f location further value text fraction wrong wrongText
  have said : value.SaidBy text := by
    apply Json.Token.spells_of_ofText?
    dsimp only [text, value, further, location, f]
    decide +kernel
  have fits : f.location.Fits := ⟨by decide, by decide⟩
  have others : ∀ other ∈ further, ∀ member ∈ f.members location, other.1 ≠ some member.1 := by
    simp [further, members]
  have presented : value.Presents (f.members location) [some "more"] :=
    .object (List.reverse_perm _) others
  have layout : f.Layout [some "more"] value := .mk presented .array
  have wronglySaid : wrong.SaidBy wrongText := by
    apply Json.Token.spells_of_ofText?
    dsimp only [wrongText, wrong, fraction]
    decide +kernel
  have place : wrong.Holds keys "location" fraction := .placed (by simp [keys])
  have line : fraction.Holds Location.keys "line" (.number "1.0") :=
    .placed (by simp [Location.keys])
  have point : Location.IsNoPosition (.number "1.0") := .marked (c := '.') (by decide) (by decide)
  have faulty : IsFaulty wrong := .location place (.position (by decide) line point)
  exact ⟨⟨said, fits, layout, ((reading_ignores_layout said).1 f _ fits layout).1 (by simp)⟩,
    wronglySaid, faulty, (reading_ignores_layout wronglySaid).2 faulty⟩

/-- A layout of a finding is not read where the name of a further member is half of a surrogate pair
alone. -/
theorem layout_with_nameless_member_is_not_read :
    let f : Finding := ⟨.methodNaming, .info, ⟨"a", 1, 1⟩, "b", "c"⟩
    let further : List (Text × Value) := [(none, .ofNat 0)]
    let value : Value := .object (further ++ Value.named (f.members f.location.toJson))
    let text := ("\x7b\"\\ud800\":0,\"rule\":\"method-naming\",\"severity\":\"info\"," ++
      "\"location\":\x7b\"file\":\"a\",\"line\":1,\"column\":1\x7d,\"text\":\"b\"," ++
      "\"message\":\"c\"\x7d").toList
    value.SaidBy text ∧ f.location.Fits ∧ f.Layout [none] value ∧ ofText? text = none := by
  intro f further value text
  have others : ∀ other ∈ further, ∀ member ∈ f.members f.location.toJson,
      other.1 ≠ some member.1 := by simp [further]
  have presented : value.Presents (f.members f.location.toJson) [none] :=
    .object List.perm_append_comm others
  have layout : f.Layout [none] value := .mk presented (Value.presents_ofMembers _)
  have said : value.SaidBy text := by
    apply Json.Token.spells_of_ofText?
    dsimp only [text, value, further, f]
    decide +kernel
  have unread : ofText? text = none := by
    dsimp only [text]
    decide +kernel
  exact ⟨said, ⟨by decide, by decide⟩, layout, unread⟩

end Finding

end LineLint
