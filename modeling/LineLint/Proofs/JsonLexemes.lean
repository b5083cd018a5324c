import LineLint.Proofs.JsonNumerals
import LineLint.Proofs.JsonStrings
import Mathlib.Data.List.Chain

/-! # How JSON tokens are spelled

Between tokens there may be blank space anywhere. Main statement: a text is cut into tokens exactly
where it spells them, provided that no two words or numbers stand side by side.
-/

namespace LineLint.Json

namespace Token

variable {text rest : List Char}

/-- Whether a token is spelled so. -/
inductive Lexeme : Token → List Char → Prop
  | openBracket : Lexeme openBracket ['[']
  | closeBracket : Lexeme closeBracket [']']
  | openBrace : Lexeme openBrace ['\x7b']
  | closeBrace : Lexeme closeBrace ['\x7d']
  | comma : Lexeme comma [',']
  | colon : Lexeme colon [':']
  | null : Lexeme null ['n', 'u', 'l', 'l']
  | yes : Lexeme (boolean true) ['t', 'r', 'u', 'e']
  | no : Lexeme (boolean false) ['f', 'a', 'l', 's', 'e']
  | number {literal : List Char} (numeral : IsNumeral literal) :
      Lexeme (number (String.ofList literal)) literal
  | string {text : Text} {pieces : List Piece} {body : List Char}
      (spelled : Piece.Spells pieces body)
      (means : ∀ chars, text = some (String.ofList chars) ↔ Piece.StandFor pieces chars) :
      Lexeme (string text) ('"' :: (body ++ ['"']))

/-- Whether a token is a word or a number, which goes on as long as its characters do. -/
def isRun : Token → Bool
  | null | boolean _ | number _ => true
  | _ => false

/-- Whether a text spells tokens, one after the other, with blank space anywhere between them. -/
inductive Spells : List Token → List Char → Prop
  | nil {space : List Char} (blank : ∀ c ∈ space, isSpace c = true) : Spells [] space
  | cons {space lexeme text : List Char} {token : Token} {tokens : List Token}
      (blank : ∀ c ∈ space, isSpace c = true) (first : Lexeme token lexeme)
      (others : Spells tokens text) : Spells (token :: tokens) (space ++ lexeme ++ text)

/-- Whether a word or a number at the front of a text ends there. -/
def Apart (rest : List Char) : Prop := ∀ c ∈ rest.head?, c.isAlpha = false ∧ isNumeric c = false

theorem read?_of_mark {c : Char} {token : Token} (mark : ofMark? c = some token)
    (rest : List Char) : isSpace c = false ∧ read? c rest = some (token, rest) := by
  unfold ofMark? at mark
  split at mark <;> cases mark <;> exact ⟨rfl, rfl⟩

theorem read?_of_word {c : Char} {word : List Char} {token : Token}
    (letters : (c :: word).all Char.isAlpha = true) (known : ofWord? (c :: word) = some token)
    (apart : Apart rest) : read? c (word ++ rest) = some (token, rest) := by
  obtain ⟨letter, letters⟩ := List.forall_mem_cons.mp (List.all_eq_true.mp letters)
  have noQuote : c ≠ '"' := by
    rintro rfl
    cases letter
  obtain ⟨taken, left⟩ := Text.takeWhile_append_stop letters fun d head => (apart d head).1
  simp [read?, noQuote, letter, taken, left, known]

theorem isAlpha_eq_false_of_isDigit {c : Char} (digit : c.isDigit = true) :
    c.isAlpha = false := by
  have bounds : 48 ≤ c.toNat ∧ c.toNat ≤ 57 := Char.isDigit_iff_toNat.mp digit
  change (decide (65 ≤ c.val ∧ c.val ≤ 90) || decide (97 ≤ c.val) && decide (c.val ≤ 122)) = false
  simp only [Bool.or_eq_false_iff, Bool.and_eq_false_iff, decide_eq_false_iff_not,
    UInt32.le_iff_toNat_le]
  change ¬ (65 ≤ c.toNat ∧ c.toNat ≤ 90) ∧ (¬ 97 ≤ c.toNat ∨ ¬ c.toNat ≤ 122)
  omega

theorem isSpace_eq_false_of_isDigit {c : Char} (digit : c.isDigit = true) : isSpace c = false := by
  simp only [isSpace, Bool.or_eq_false_iff, beq_eq_false_iff_ne]
  refine ⟨⟨⟨?_, ?_⟩, ?_⟩, ?_⟩ <;> rintro rfl <;> cases digit

/-- A numeral is read to its end, when what follows cannot belong to it. -/
theorem read?_of_numeral {literal : List Char} (numeral : IsNumeral literal) (apart : Apart rest) :
    ∃ c body, literal = c :: body ∧ isSpace c = false ∧
      read? c (body ++ rest) = some (number (String.ofList literal), rest) := by
  have numeric := numeral.isNumeric
  have isNumber := isNumber_iff.mpr numeral
  obtain ⟨c, body, rfl, begins⟩ := numeral.begins
  obtain ⟨first, others⟩ := List.forall_mem_cons.mp numeric
  obtain ⟨taken, left⟩ := Text.takeWhile_append_stop others fun d head => (apart d head).2
  have plain : isSpace c = false ∧ c ≠ '"' ∧ c.isAlpha = false := by
    rcases begins with rfl | digit
    · decide
    · refine ⟨isSpace_eq_false_of_isDigit digit, ?_, isAlpha_eq_false_of_isDigit digit⟩
      rintro rfl
      cases digit
  refine ⟨c, body, rfl, plain.1, ?_⟩
  simp [read?, plain, first, taken, left, isNumber]

/-- A token is read where it is spelled, a word or a number provided that it ends there. -/
theorem Lexeme.read?_eq {token : Token} {lexeme : List Char} (spelled : Lexeme token lexeme)
    (apart : token.isRun = true → Apart rest) :
    ∃ c body, lexeme = c :: body ∧ isSpace c = false ∧
      read? c (body ++ rest) = some (token, rest) := by
  cases spelled with
  | openBracket | closeBracket | openBrace | closeBrace | comma | colon =>
    exact ⟨_, [], rfl, read?_of_mark rfl rest⟩
  | null | yes | no => exact ⟨_, _, rfl, rfl, read?_of_word (by decide) (by decide) (apart rfl)⟩
  | number numeral => exact read?_of_numeral numeral (apart rfl)
  | @string text pieces body spelled means =>
    have same : (Piece.text? pieces).map String.ofList = text := by
      cases text with
      | none =>
        rw [Option.map_eq_none_iff, Option.eq_none_iff_forall_ne_some]
        intro chars stands
        cases (means chars).mpr (spelled.text?_eq_some_iff.mp stands)
      | some text =>
        have stands := (means text.toList).mp (by rw [String.ofList_toList])
        rw [stands.text?_eq, Option.map_some, String.ofList_toList]
    refine ⟨'"', body ++ ['"'], rfl, rfl, ?_⟩
    rw [List.append_assoc, read?, if_pos rfl]
    change (Piece.read? (body ++ '"' :: rest)).map _ = _
    rw [spelled.read?_eq, Option.map_some]
    simp only [same]

theorem lexeme_of_ofWord? {word : List Char} {token : Token}
    (known : ofWord? word = some token) : Lexeme token word := by
  unfold ofWord? at known
  split at known
  · rename_i same
    cases known
    rw [same]
    exact .null
  · split at known
    · rename_i same
      cases known
      rw [same]
      exact .yes
    · split at known
      · rename_i same
        cases known
        rw [same]
        exact .no
      · cases known

theorem lexeme_of_ofMark? {c : Char} {token : Token} (mark : ofMark? c = some token) :
    Lexeme token [c] := by
  unfold ofMark? at mark
  split at mark <;> cases mark <;> constructor

/-- What is read is spelled in front of what is left. -/
theorem exists_lexeme_of_read? {c : Char} {after : List Char} {token : Token}
    (read : read? c rest = some (token, after)) :
    ∃ body, rest = body ++ after ∧ Lexeme token (c :: body) := by
  unfold read? at read
  split at read
  · rename_i quote
    subst quote
    simp only [Option.map_eq_some_iff, Prod.mk.injEq, Prod.exists] at read
    obtain ⟨pieces, after, inner, rfl, rfl⟩ := read
    obtain ⟨body, rfl, spelled⟩ := Piece.spells_of_read? inner
    refine ⟨body ++ ['"'], by simp, .string spelled fun chars => ?_⟩
    rw [Option.map_eq_some_iff, ← spelled.text?_eq_some_iff]
    constructor
    · rintro ⟨others, stands, same⟩
      rwa [String.ofList_injective same] at stands
    · exact fun stands => ⟨chars, stands, rfl⟩
  · split at read
    · simp only [Option.map_eq_some_iff, Prod.mk.injEq] at read
      obtain ⟨token, known, rfl, rfl⟩ := read
      exact ⟨_, List.takeWhile_append_dropWhile.symm, lexeme_of_ofWord? known⟩
    · split at read
      · simp only at read
        split at read
        · rename_i numeral
          cases read
          exact ⟨_, List.takeWhile_append_dropWhile.symm, .number (isNumber_iff.mp numeral)⟩
        · cases read
      · simp only [Option.map_eq_some_iff, Prod.mk.injEq] at read
        obtain ⟨token, mark, rfl, rfl⟩ := read
        exact ⟨[], rfl, lexeme_of_ofMark? mark⟩

theorem ofText?_of_isSpace {c : Char} (blank : isSpace c = true) (rest : List Char) :
    ofText? (c :: rest) = ofText? rest := by
  rw [ofText?, if_pos blank]

theorem ofText?_append_of_isSpace {space : List Char} (blank : ∀ c ∈ space, isSpace c = true)
    (rest : List Char) : ofText? (space ++ rest) = ofText? rest := by
  induction space with
  | nil => rfl
  | cons c space ih =>
    obtain ⟨first, others⟩ := List.forall_mem_cons.mp blank
    rw [List.cons_append, ofText?_of_isSpace first, ih others]

theorem ofText?_of_read? {c : Char} {after : List Char} {token : Token}
    (noSpace : isSpace c = false) (read : read? c rest = some (token, after)) :
    ofText? (c :: rest) = (ofText? after).map (token :: ·) := by
  rw [ofText?, if_neg (by simp [noSpace])]
  split
  · rename_i failed
    rw [read] at failed
    cases failed
  · rename_i found
    rw [read] at found
    cases found
    rfl

/-- Whether no two words or numbers stand side by side. -/
def Separated (tokens : List Token) : Prop :=
  tokens.IsChain fun a b => a.isRun = true → b.isRun = false

/-- A token that is no run begins with a character that ends a run. -/
theorem Lexeme.apart {token : Token} {lexeme : List Char} (spelled : Lexeme token lexeme)
    (noRun : token.isRun = false) (rest : List Char) : Apart (lexeme ++ rest) := by
  cases spelled with
  | null | yes | no | number => cases noRun
  | _ =>
    rintro c ⟨⟩
    decide

theorem apart_of_isSpace {space : List Char} (blank : ∀ c ∈ space, isSpace c = true)
    (apart : Apart rest) : Apart (space ++ rest) := by
  cases space with
  | nil => exact apart
  | cons c space =>
    rintro _ ⟨⟩
    have first := blank c List.mem_cons_self
    simp only [isSpace, Bool.or_eq_true, beq_iff_eq] at first
    rcases first with ((rfl | rfl) | rfl) | rfl <;> decide

/-- A text is cut into the tokens that it spells. -/
theorem Spells.ofText?_eq {tokens : List Token} (spelled : Spells tokens text)
    (separated : Separated tokens) : ofText? text = some tokens := by
  induction spelled with
  | nil blank =>
    have all := ofText?_append_of_isSpace blank []
    rwa [List.append_nil, ofText?] at all
  | @cons space lexeme text token tokens blank first others ih =>
    have apart : token.isRun = true → Apart text := by
      intro run
      cases others with
      | nil blank =>
        rw [← List.append_nil text]
        exact apart_of_isSpace blank (by rintro c ⟨⟩)
      | cons blank next _ =>
        rw [List.append_assoc]
        exact apart_of_isSpace blank (next.apart (separated.rel run) _)
    obtain ⟨c, body, rfl, noSpace, read⟩ := first.read?_eq apart
    rw [List.append_assoc, ofText?_append_of_isSpace blank, List.cons_append,
      ofText?_of_read? noSpace read, ih separated.tail]
    rfl

theorem Spells.cons_of_lexeme {token : Token} {tokens : List Token} {lexeme : List Char}
    (first : Lexeme token lexeme) (others : Spells tokens text) :
    Spells (token :: tokens) (lexeme ++ text) :=
  have blank : ∀ c ∈ ([] : List Char), isSpace c = true := by simp
  .cons blank first others

theorem Spells.cons_of_isSpace {tokens : List Token} {c : Char} (blank : isSpace c = true)
    (spelled : Spells tokens text) : Spells tokens (c :: text) := by
  cases spelled with
  | nil blanks => exact .nil (List.forall_mem_cons.mpr ⟨blank, blanks⟩)
  | cons blanks first others => exact .cons (List.forall_mem_cons.mpr ⟨blank, blanks⟩) first others

/-- The tokens of a text are spelled in it. -/
theorem spells_of_ofText? {tokens : List Token} (read : ofText? text = some tokens) :
    Spells tokens text := by
  fun_induction ofText? text generalizing tokens with
  | case1 =>
    cases read
    exact .nil (by simp)
  | case2 c rest blank ih => exact (ih read).cons_of_isSpace blank
  | case3 => cases read
  | case4 c rest noSpace token after found shorter ih =>
    obtain ⟨tokens, others, rfl⟩ := Option.map_eq_some_iff.mp read
    obtain ⟨body, rfl, first⟩ := exists_lexeme_of_read? found
    exact .cons_of_lexeme first (ih others)

end Token

end LineLint.Json
