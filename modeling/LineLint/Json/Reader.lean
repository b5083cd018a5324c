import LineLint.Json.Token

/-! # Reading JSON

The tokens of a text are taken one by one by a machine that holds the containers that are open,
the innermost first, and knows what is due. Values may be nested to any depth.
-/

namespace LineLint.Json

/-- A container that is open, with what it holds so far, back to front. An object that waits for a
value has read the key of that value. -/
inductive Frame where
  | array (items : List Value)
  | object (members : List (Text × Value)) (key : Text)
deriving Repr

/-- What may come next. -/
inductive Due where
  /-- A value. -/
  | value
  /-- The first item of an array, or its end. -/
  | itemOrEnd
  /-- The first key of an object, or its end. -/
  | keyOrEnd
  /-- A key of an object with these members, back to front. -/
  | key (members : List (Text × Value))
  /-- The colon behind a key. -/
  | colon (members : List (Text × Value)) (key : Text)
  /-- More of the innermost container, or its end; the value was just read. -/
  | moreOrEnd (value : Value)
deriving Repr

/-- Where reading stands. -/
structure Reading where
  frames : List Frame
  due : Due
deriving Repr

namespace Reading

def start : Reading := ⟨[], .value⟩

/-- Takes a token where a value is due. -/
def takeValue? (frames : List Frame) : Token → Option Reading
  | .null => some ⟨frames, .moreOrEnd .null⟩
  | .boolean value => some ⟨frames, .moreOrEnd (.boolean value)⟩
  | .number literal => some ⟨frames, .moreOrEnd (.number literal)⟩
  | .string text => some ⟨frames, .moreOrEnd (.string text)⟩
  | .openBracket => some ⟨frames, .itemOrEnd⟩
  | .openBrace => some ⟨frames, .keyOrEnd⟩
  | _ => none

/-- Takes a token behind a value. -/
def takeAfter? (value : Value) : List Frame → Token → Option Reading
  | .array items :: frames, .comma => some ⟨.array (value :: items) :: frames, .value⟩
  | .array items :: frames, .closeBracket =>
    some ⟨frames, .moreOrEnd (.array (value :: items).reverse)⟩
  | .object members key :: frames, .comma => some ⟨frames, .key ((key, value) :: members)⟩
  | .object members key :: frames, .closeBrace =>
    some ⟨frames, .moreOrEnd (.object ((key, value) :: members).reverse)⟩
  | _, _ => none

def take? (reading : Reading) (token : Token) : Option Reading :=
  match reading.due, token with
  | .value, token => takeValue? reading.frames token
  | .itemOrEnd, .closeBracket => some ⟨reading.frames, .moreOrEnd (.array [])⟩
  | .itemOrEnd, token => takeValue? (.array [] :: reading.frames) token
  | .keyOrEnd, .closeBrace => some ⟨reading.frames, .moreOrEnd (.object [])⟩
  | .keyOrEnd, .string key => some ⟨reading.frames, .colon [] key⟩
  | .key members, .string key => some ⟨reading.frames, .colon members key⟩
  | .colon members key, .colon => some ⟨.object members key :: reading.frames, .value⟩
  | .moreOrEnd value, token => takeAfter? value reading.frames token
  | _, _ => none

def takeAll? (reading : Reading) : List Token → Option Reading
  | [] => some reading
  | token :: rest => (reading.take? token).bind fun reading => takeAll? reading rest

/-- The value that was read, if nothing is open. -/
def result? : Reading → Option Value
  | ⟨[], .moreOrEnd value⟩ => some value
  | _ => none

end Reading

namespace Value

def ofTokens? (tokens : List Token) : Option Value :=
  (Reading.start.takeAll? tokens).bind Reading.result?

def ofText? (text : List Char) : Option Value := (Token.ofText? text).bind ofTokens?

end Value

end LineLint.Json
