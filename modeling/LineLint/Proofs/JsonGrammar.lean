import LineLint.Json.Reader
import LineLint.Proofs.JsonLexemes

/-! # What JSON texts say

The tokens of a value determine the value, and a text says it where it spells these tokens, with
blank space anywhere between them and the strings in any spelling. Main statement: a text is read as
a value exactly where it says it.
-/

namespace LineLint.Json

open Token

mutual

def Value.tokens : Value → List Token
  | .null => [.null]
  | .boolean value => [.boolean value]
  | .number literal => [.number literal]
  | .string text => [.string text]
  | .array [] => [.openBracket, .closeBracket]
  | .array (item :: rest) => .openBracket :: item.tokens ++ Value.itemTokens rest
  | .object [] => [.openBrace, .closeBrace]
  | .object ((key, item) :: rest) =>
    .openBrace :: .string key :: .colon :: item.tokens ++ Value.memberTokens rest

/-- The tokens of the items of an array behind the first, up to its end. -/
def Value.itemTokens : List Value → List Token
  | [] => [.closeBracket]
  | item :: rest => .comma :: item.tokens ++ Value.itemTokens rest

/-- The tokens of the members of an object behind the first, up to its end. -/
def Value.memberTokens : List (Text × Value) → List Token
  | [] => [.closeBrace]
  | (key, item) :: rest => .comma :: .string key :: .colon :: item.tokens ++ Value.memberTokens rest

end

/-- Whether a text says a value: it spells the tokens of the value. -/
def Value.SaidBy (value : Value) (text : List Char) : Prop := Token.Spells value.tokens text

namespace Reading

variable {reading next : Reading} {frames : List Frame}

/-- Whether a value is what comes next inside of these containers, as it is behind a comma and,
unless the array ends, behind an opening bracket. -/
def Awaits (reading : Reading) (frames : List Frame) : Prop :=
  ∀ token, token ≠ .closeBracket → reading.take? token = takeValue? frames token

theorem awaits_value (frames : List Frame) : Awaits ⟨frames, .value⟩ frames :=
  fun _ _ => rfl

theorem awaits_item (frames : List Frame) : Awaits ⟨frames, .itemOrEnd⟩ (.array [] :: frames) := by
  intro token other
  cases token <;> first | rfl | exact absurd rfl other

theorem takeAll?_cons {token : Token} (taken : reading.take? token = some next)
    (tokens : List Token) : reading.takeAll? (token :: tokens) = next.takeAll? tokens := by
  rw [takeAll?, taken, Option.bind_some]

mutual

/-- The tokens of a value are taken for the value, whatever is open around it. -/
theorem takeAll?_tokens (value : Value) {reading : Reading} {frames : List Frame}
    (awaits : reading.Awaits frames) (rest : List Token) :
    reading.takeAll? (value.tokens ++ rest) =
      (⟨frames, .moreOrEnd value⟩ : Reading).takeAll? rest := by
  cases value with
  | null => exact takeAll?_cons (awaits _ (by simp)) rest
  | boolean => exact takeAll?_cons (awaits _ (by simp)) rest
  | number => exact takeAll?_cons (awaits _ (by simp)) rest
  | string => exact takeAll?_cons (awaits _ (by simp)) rest
  | array items =>
    have opened := awaits .openBracket (by simp)
    cases items with
    | nil =>
      rw [Value.tokens, List.cons_append, takeAll?_cons opened]
      exact takeAll?_cons rfl rest
    | cons item items =>
      rw [Value.tokens, List.cons_append, List.cons_append, List.append_assoc, takeAll?_cons opened,
        takeAll?_tokens item (awaits_item frames), takeAll?_itemTokens items]
      rfl
  | object members =>
    have opened := awaits .openBrace (by simp)
    match members with
    | [] =>
      rw [Value.tokens, List.cons_append, takeAll?_cons opened]
      exact takeAll?_cons rfl rest
    | (key, item) :: members =>
      have named : (⟨frames, .keyOrEnd⟩ : Reading).take? (.string key) =
          some ⟨frames, .colon [] key⟩ := rfl
      have colon : (⟨frames, .colon [] key⟩ : Reading).take? .colon =
          some ⟨.object [] key :: frames, .value⟩ := rfl
      simp only [Value.tokens, List.cons_append, List.append_assoc]
      rw [takeAll?_cons opened, takeAll?_cons named, takeAll?_cons colon,
        takeAll?_tokens item (awaits_value _), takeAll?_memberTokens members]
      rfl

theorem takeAll?_itemTokens (items : List Value) (done : List Value) (last : Value)
    (frames : List Frame) (rest : List Token) :
    (⟨.array done :: frames, .moreOrEnd last⟩ : Reading).takeAll?
        (Value.itemTokens items ++ rest) =
      (⟨frames, .moreOrEnd (.array ((last :: done).reverse ++ items))⟩ : Reading).takeAll? rest := by
  match items with
  | [] =>
    rw [Value.itemTokens, List.append_nil]
    exact takeAll?_cons rfl rest
  | item :: items =>
    have comma : (⟨.array done :: frames, .moreOrEnd last⟩ : Reading).take? .comma =
        some ⟨.array (last :: done) :: frames, .value⟩ := rfl
    simp only [Value.itemTokens, List.cons_append, List.append_assoc]
    rw [takeAll?_cons comma, takeAll?_tokens item (awaits_value _), takeAll?_itemTokens items]
    simp

theorem takeAll?_memberTokens (members done : List (Text × Value)) (key : Text) (last : Value)
    (frames : List Frame) (rest : List Token) :
    (⟨.object done key :: frames, .moreOrEnd last⟩ : Reading).takeAll?
        (Value.memberTokens members ++ rest) =
      (⟨frames, .moreOrEnd (.object (((key, last) :: done).reverse ++ members))⟩ :
        Reading).takeAll? rest := by
  match members with
  | [] =>
    rw [Value.memberTokens, List.append_nil]
    exact takeAll?_cons rfl rest
  | (name, item) :: members =>
    have comma : (⟨.object done key :: frames, .moreOrEnd last⟩ : Reading).take? .comma =
        some ⟨frames, .key ((key, last) :: done)⟩ := rfl
    have named : (⟨frames, .key ((key, last) :: done)⟩ : Reading).take? (.string name) =
        some ⟨frames, .colon ((key, last) :: done) name⟩ := rfl
    have colon : (⟨frames, .colon ((key, last) :: done) name⟩ : Reading).take? .colon =
        some ⟨.object ((key, last) :: done) name :: frames, .value⟩ := rfl
    simp only [Value.memberTokens, List.cons_append, List.append_assoc]
    rw [takeAll?_cons comma, takeAll?_cons named, takeAll?_cons colon,
      takeAll?_tokens item (awaits_value _), takeAll?_memberTokens members]
    simp

end

/-- The tokens of an array from its opening bracket up to the comma behind these items, which are
given back to front. -/
def itemsBefore : List Value → List Token
  | [] => [.openBracket]
  | item :: before => itemsBefore before ++ item.tokens ++ [.comma]

/-- The tokens of an object from its opening brace up to the comma behind these members, which are
given back to front. -/
def membersBefore : List (Text × Value) → List Token
  | [] => [.openBrace]
  | (key, item) :: before =>
    membersBefore before ++ .string key :: .colon :: item.tokens ++ [.comma]

/-- The tokens that were taken for a container that is open. -/
def frameTokens : Frame → List Token
  | .array items => itemsBefore items
  | .object members key => membersBefore members ++ [.string key, .colon]

/-- The tokens that were taken behind those of the open containers. -/
def dueTokens : Due → List Token
  | .value => []
  | .itemOrEnd => [.openBracket]
  | .keyOrEnd => [.openBrace]
  | .key members => membersBefore members
  | .colon members key => membersBefore members ++ [.string key]
  | .moreOrEnd value => value.tokens

/-- The tokens that were taken. -/
def tokens (reading : Reading) : List Token :=
  reading.frames.reverse.flatMap frameTokens ++ dueTokens reading.due

theorem itemsBefore_append (done items : List Value) (last : Value) :
    itemsBefore done ++ last.tokens ++ Value.itemTokens items =
      (Value.array ((last :: done).reverse ++ items)).tokens := by
  induction done generalizing last items with
  | nil => simp [itemsBefore, Value.tokens]
  | cons item done ih =>
    have more := ih (last :: items) item
    simp only [Value.itemTokens, List.reverse_cons, List.append_assoc, List.cons_append,
      List.nil_append] at more
    simpa [itemsBefore] using more

theorem membersBefore_append (done members : List (Text × Value)) (key : Text) (last : Value) :
    membersBefore done ++ .string key :: .colon :: last.tokens ++ Value.memberTokens members =
      (Value.object (((key, last) :: done).reverse ++ members)).tokens := by
  induction done generalizing key last members with
  | nil => simp [membersBefore, Value.tokens]
  | cons member done ih =>
    have more := ih ((key, last) :: members) member.1 member.2
    simp only [Value.memberTokens, List.reverse_cons, List.append_assoc, List.cons_append,
      List.nil_append] at more
    simpa [membersBefore] using more

theorem tokens_of_takeValue? {token : Token} (taken : takeValue? frames token = some next) :
    next.tokens = frames.reverse.flatMap frameTokens ++ [token] := by
  unfold takeValue? at taken
  split at taken <;> cases taken <;> rfl

theorem tokens_of_takeAfter? {value : Value} {token : Token}
    (taken : takeAfter? value frames token = some next) :
    next.tokens = frames.reverse.flatMap frameTokens ++ value.tokens ++ [token] := by
  cases frames with
  | nil => cases taken
  | cons frame frames =>
    cases frame with
    | array items =>
      have whole := itemsBefore_append items [] value
      rw [Value.itemTokens, List.append_nil] at whole
      cases token <;> cases taken
      · simpa [tokens, dueTokens, frameTokens] using whole.symm
      · simp [tokens, dueTokens, frameTokens, itemsBefore]
    | object members key =>
      have whole := membersBefore_append members [] key value
      rw [Value.memberTokens, List.append_nil] at whole
      cases token <;> cases taken
      · simpa [tokens, dueTokens, frameTokens] using whole.symm
      · simp [tokens, dueTokens, frameTokens, membersBefore]

/-- A token that is taken is one more. -/
theorem tokens_of_take? {token : Token} (taken : reading.take? token = some next) :
    next.tokens = reading.tokens ++ [token] := by
  obtain ⟨frames, due⟩ := reading
  cases due with
  | value =>
    rw [tokens_of_takeValue? taken]
    simp [tokens, dueTokens]
  | itemOrEnd =>
    by_cases ends : token = .closeBracket
    · subst ends
      cases taken
      simp [tokens, dueTokens, Value.tokens]
    · rw [awaits_item frames token ends] at taken
      rw [tokens_of_takeValue? taken]
      simp [tokens, dueTokens, frameTokens, itemsBefore]
  | keyOrEnd =>
    cases token <;> cases taken <;> simp [tokens, dueTokens, Value.tokens, membersBefore]
  | key members =>
    cases token <;> cases taken
    simp [tokens, dueTokens]
  | colon members key =>
    cases token <;> cases taken
    simp [tokens, dueTokens, frameTokens]
  | moreOrEnd value =>
    rw [tokens_of_takeAfter? taken]
    simp [tokens, dueTokens]

/-- A reading never forgets a token that it took: its state spells them all. -/
theorem tokens_of_takeAll? {tokens : List Token} (taken : reading.takeAll? tokens = some next) :
    next.tokens = reading.tokens ++ tokens := by
  induction tokens generalizing reading with
  | nil =>
    cases taken
    exact (List.append_nil _).symm
  | cons token rest ih =>
    obtain ⟨middle, first, others⟩ := Option.bind_eq_some_iff.mp taken
    rw [ih others, tokens_of_take? first, List.append_assoc, List.singleton_append]

theorem isRun_of_takeAfter? {value : Value} {token : Token}
    (taken : takeAfter? value frames token = some next) : token.isRun = false := by
  cases frames with
  | nil => cases taken
  | cons frame frames => cases frame <;> cases token <;> cases taken <;> rfl

/-- Behind a word or a number there is something that is no such thing. -/
theorem isRun_of_take? {a b : Token} {after : Reading} (first : reading.take? a = some next)
    (second : next.take? b = some after) (run : a.isRun = true) : b.isRun = false := by
  have ends : ∃ frames value, next = ⟨frames, .moreOrEnd value⟩ := by
    obtain ⟨frames, due⟩ := reading
    cases due with
    | moreOrEnd =>
      rw [isRun_of_takeAfter? first] at run
      cases run
    | _ => cases a <;> cases run <;> cases first <;> exact ⟨_, _, rfl⟩
  obtain ⟨frames, value, rfl⟩ := ends
  exact isRun_of_takeAfter? second

/-- Tokens that are taken have no two words or numbers side by side. -/
theorem separated_of_takeAll? {tokens : List Token} (taken : reading.takeAll? tokens = some next) :
    Token.Separated tokens := by
  induction tokens generalizing reading with
  | nil => exact .nil
  | cons a rest ih =>
    obtain ⟨middle, first, others⟩ := Option.bind_eq_some_iff.mp taken
    cases rest with
    | nil => exact .singleton a
    | cons b rest =>
      obtain ⟨_, second, _⟩ := Option.bind_eq_some_iff.mp others
      exact .cons_cons (isRun_of_take? first second) (ih others)

end Reading

namespace Value

variable {value : Value} {tokens : List Token} {text : List Char}

theorem takeAll?_start (value : Value) :
    Reading.start.takeAll? value.tokens = some ⟨[], .moreOrEnd value⟩ := by
  have taken := Reading.takeAll?_tokens value (Reading.awaits_value []) []
  rwa [List.append_nil] at taken

/-- Tokens make the value of which they are the tokens. -/
theorem ofTokens?_eq_some_iff : ofTokens? tokens = some value ↔ tokens = value.tokens := by
  rw [ofTokens?, Option.bind_eq_some_iff]
  constructor
  · rintro ⟨⟨frames, due⟩, taken, result⟩
    have all := Reading.tokens_of_takeAll? taken
    cases frames <;> cases due <;> cases result
    exact all.symm
  · rintro rfl
    exact ⟨_, takeAll?_start value, rfl⟩

/-- A text is read as the value that it says. -/
theorem ofText?_eq_some_iff : ofText? text = some value ↔ value.SaidBy text := by
  rw [ofText?, Option.bind_eq_some_iff]
  constructor
  · rintro ⟨tokens, read, made⟩
    rw [ofTokens?_eq_some_iff.mp made] at read
    exact Token.spells_of_ofText? read
  · intro said
    have separated := Reading.separated_of_takeAll? (takeAll?_start value)
    exact ⟨value.tokens, said.ofText?_eq separated, ofTokens?_eq_some_iff.mpr rfl⟩

end Value

end LineLint.Json
