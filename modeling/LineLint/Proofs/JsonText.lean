import LineLint.Json.Printer
import LineLint.Proofs.JsonGrammar
import Mathlib.Tactic.SplitIfs

/-! # Reading back what is written as JSON

What is written of a value says that value: line by line it spells the tokens of the value, and so
it is read as the value. The statement is about one value in front of more tokens, so that it carries
over to the items of an array and the members of an object.
-/

namespace LineLint.Json

namespace Piece

/-- Four hexadecimal digits as they are written for a control character. -/
theorem hex?_hexDigit {n : Nat} (small : n < 0x20) :
    hex? '0' '0' (Printer.hexDigit (n / 16)) (Printer.hexDigit (n % 16)) = some n := by
  have each : ∀ n : Fin 0x20,
      hex? '0' '0' (Printer.hexDigit (n / 16)) (Printer.hexDigit (n % 16)) = some n.val := by
    decide
  exact each ⟨n, small⟩

/-- A character is written as a piece that stands for it. -/
theorem exists_spells_escape (c : Char) {pieces : List Piece} {body text : List Char}
    (spelled : Spells pieces body) (means : StandFor pieces text) :
    ∃ piece, Spells (piece :: pieces) (Printer.escape c ++ body) ∧
      StandFor (piece :: pieces) (c :: text) := by
  simp only [Printer.escape]
  split_ifs with quote backslash backspace tab feed formFeed carriage control
  · subst quote
    exact ⟨_, .letter rfl spelled, .char means⟩
  · subst backslash
    exact ⟨_, .letter rfl spelled, .char means⟩
  · subst backspace
    exact ⟨_, .letter rfl spelled, .char means⟩
  · subst tab
    exact ⟨_, .letter rfl spelled, .char means⟩
  · subst feed
    exact ⟨_, .letter rfl spelled, .char means⟩
  · subst formFeed
    exact ⟨_, .letter rfl spelled, .char means⟩
  · subst carriage
    exact ⟨_, .letter rfl spelled, .char means⟩
  · exact ⟨_, .unit (hex?_hexDigit control) spelled,
      .small (Nat.lt_trans control (by decide)) means⟩
  · exact ⟨_, .plain (Nat.not_lt.mp control) quote backslash spelled, .char means⟩

/-- A text is written as pieces that stand for it. -/
theorem exists_spells_flatMap_escape (text : List Char) :
    ∃ pieces, Spells pieces (text.flatMap Printer.escape) ∧ StandFor pieces text := by
  induction text with
  | nil => exact ⟨[], .nil, .nil⟩
  | cons c text ih =>
    obtain ⟨pieces, spelled, means⟩ := ih
    obtain ⟨piece, first, one⟩ := exists_spells_escape c spelled means
    exact ⟨piece :: pieces, first, one⟩

end Piece

namespace Token

theorem lexeme_string (text : Text) : Lexeme (.string text) (Printer.string text) := by
  cases text with
  | none =>
    have half : Piece.Spells [.unit 0xD800] ['\\', 'u', 'd', '8', '0', '0'] :=
      .unit (by decide) .nil
    refine .string half fun chars => ⟨by simp, fun means => ?_⟩
    cases means.text?_eq
  | some text =>
    obtain ⟨pieces, spelled, means⟩ := Piece.exists_spells_flatMap_escape text.toList
    refine .string spelled fun chars => ?_
    rw [← spelled.text?_eq_some_iff, means.text?_eq, Option.some.injEq, Option.some.injEq,
      ← String.toList_inj, String.toList_ofList]

theorem lexeme_ofNat (n : Nat) : Lexeme (.number (Value.digits n)) (Value.digits n).toList := by
  have nonempty : (Value.digits n).toList ≠ [] := by simp [Value.digits, Nat.toDigits_ne_nil]
  have run : IsDigits (Value.digits n).toList :=
    ⟨nonempty, fun _ member => Value.isDigit_of_mem_digits member⟩
  have zero : (Value.digits n).toList.head? = some '0' → (Value.digits n).toList = ['0'] := by
    intro leading
    obtain ⟨rest, same⟩ := List.head?_eq_some_iff.mp leading
    rw [same, Value.eq_nil_of_digits_eq same]
  have numeral := IsNumeral.mk (.inl rfl) run zero (.inl rfl) (.inl rfl)
  rw [List.nil_append, List.append_nil, List.append_nil] at numeral
  simpa using Lexeme.number numeral

theorem Spells.newline {tokens : List Token} {text : List Char} (spelled : Spells tokens text)
    (depth : Nat) : Spells tokens (Printer.newline depth ++ text) := by
  have indented : ∀ count, Spells tokens (List.replicate count ' ' ++ text) := by
    intro count
    induction count with
    | zero => exact spelled
    | succ count ih => exact ih.cons_of_isSpace rfl
  exact (indented (2 * depth)).cons_of_isSpace rfl

end Token

/-- A value whose numbers are natural numbers. -/
inductive Value.Plain : Value → Prop
  | null : Plain .null
  | boolean (value : Bool) : Plain (.boolean value)
  | ofNat (n : Nat) : Plain (.ofNat n)
  | string (text : Text) : Plain (.string text)
  | array {items : List Value} (plain : ∀ item ∈ items, Plain item) : Plain (.array items)
  | object {members : List (Text × Value)} (plain : ∀ member ∈ members, Plain member.2) :
      Plain (.object members)

namespace Printer

open Token

/-- Whether what is written of a value spells its tokens, whatever tokens follow. -/
def Says (item : Value) : Prop :=
  ∀ (depth : Nat) {tokens : List Token} {text : List Char}, Token.Spells tokens text →
    Token.Spells (item.tokens ++ tokens) (value depth item ++ text)

variable {tokens : List Token} {text : List Char}

/-- Indentation is white space, so the items of an array are spelled in order. -/
theorem spells_items {list : List Value} (each : ∀ item ∈ list, Says item) (depth outer : Nat)
    (behind : Token.Spells tokens text) :
    Token.Spells (Value.itemTokens list ++ tokens)
      (items depth list ++ (newline outer ++ ']' :: text)) := by
  induction list with
  | nil => exact (Token.Spells.cons_of_lexeme .closeBracket behind).newline outer
  | cons item list ih =>
    obtain ⟨first, others⟩ := List.forall_mem_cons.mp each
    simp only [Value.itemTokens, items, List.cons_append, List.append_assoc]
    exact .cons_of_lexeme .comma ((first depth (ih others)).newline depth)

theorem spells_members {list : List (Text × Value)} (each : ∀ member ∈ list, Says member.2)
    (depth outer : Nat) (behind : Token.Spells tokens text) :
    Token.Spells (Value.memberTokens list ++ tokens)
      (members depth list ++ (newline outer ++ '\x7d' :: text)) := by
  induction list with
  | nil => exact (Token.Spells.cons_of_lexeme .closeBrace behind).newline outer
  | cons member list ih =>
    obtain ⟨key, item⟩ := member
    obtain ⟨first, others⟩ := List.forall_mem_cons.mp each
    have colon := Token.Spells.cons_of_lexeme .colon
      ((first depth (ih others)).cons_of_isSpace (c := ' ') rfl)
    simp only [Value.memberTokens, members, List.cons_append, List.append_assoc, List.nil_append]
    exact .cons_of_lexeme .comma
      ((Token.Spells.cons_of_lexeme (lexeme_string key) colon).newline depth)

end Printer

/-- A printed value, tokens and white space together, says that value. -/
theorem Value.Plain.says {value : Value} (plain : value.Plain) : Printer.Says value := by
  induction plain with
  | null => exact fun _ _ _ behind => .cons_of_lexeme .null behind
  | boolean value =>
    cases value with
    | true => exact fun _ _ _ behind => .cons_of_lexeme .yes behind
    | false => exact fun _ _ _ behind => .cons_of_lexeme .no behind
  | ofNat n => exact fun _ _ _ behind => .cons_of_lexeme (Token.lexeme_ofNat n) behind
  | string text => exact fun _ _ _ behind => .cons_of_lexeme (Token.lexeme_string text) behind
  | @array items _ each =>
    intro depth tokens text behind
    cases items with
    | nil =>
      have ended := Token.Spells.cons_of_lexeme .closeBracket behind
      have whole := Token.Spells.cons_of_lexeme .openBracket ended
      rwa [Value.tokens, Printer.value]
    | cons item items =>
      obtain ⟨first, others⟩ := List.forall_mem_cons.mp each
      have tail := Printer.spells_items others (depth + 1) depth behind
      simp only [Value.tokens, Printer.value, List.cons_append, List.append_assoc, List.nil_append]
      exact .cons_of_lexeme .openBracket ((first (depth + 1) tail).newline (depth + 1))
  | @object members _ each =>
    intro depth tokens text behind
    cases members with
    | nil =>
      have ended := Token.Spells.cons_of_lexeme .closeBrace behind
      have whole := Token.Spells.cons_of_lexeme .openBrace ended
      rwa [Value.tokens, Printer.value]
    | cons member members =>
      obtain ⟨key, item⟩ := member
      obtain ⟨first, others⟩ := List.forall_mem_cons.mp each
      have tail := Printer.spells_members others (depth + 1) depth behind
      have colon := Token.Spells.cons_of_lexeme .colon
        ((first (depth + 1) tail).cons_of_isSpace (c := ' ') rfl)
      simp only [Value.tokens, Printer.value, List.cons_append, List.append_assoc, List.nil_append]
      exact .cons_of_lexeme .openBrace
        ((Token.Spells.cons_of_lexeme (Token.lexeme_string key) colon).newline (depth + 1))

/-- What is written of a value, with an end of line behind it, is read as that value. -/
theorem Value.ofText?_text {value : Value} (plain : value.Plain) :
    ofText? (value.text ++ "\n").toList = some value := by
  have ended : Token.Spells [] ['\n'] := (Token.Spells.nil (by simp)).cons_of_isSpace rfl
  have said := plain.says 0 ended
  rw [List.append_nil] at said
  rw [Value.ofText?_eq_some_iff, String.toList_append, Value.text, String.toList_ofList]
  exact said

end LineLint.Json
