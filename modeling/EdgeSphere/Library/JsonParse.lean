import EdgeSphere.Library.NumberText

/-!
# `JSON.parse`

The whole grammar, with the white space and the escapes that `JSON.stringify` never makes.  A surrogate without its
other half, which no text here can hold, is read as U+FFFD.

* `readNumber`, `readInside`, `readValue` — the parts, each giving what it has read and what follows;
* `parse` — a text that is one value.
-/

namespace EdgeSphere.Library.JsonParse

/-- What may stand between tokens. -/
def isSpace (c : Char) : Bool := c = ' ' || c = '\t' || c = '\n' || c = '\r'

def skip (text : List Char) : List Char := text.dropWhile isSpace

/-! ### Numbers -/

/-- The whole part: a zero alone, or digits. -/
def readWhole (text : List Char) : Option (List Char × List Char) :=
  match text with
  | '0' :: rest => some (['0'], rest)
  | _ =>
    if text.takeWhile Char.isDigit = [] then none
    else some (text.takeWhile Char.isDigit, text.dropWhile Char.isDigit)

/-- A point with digits after it, or nothing. -/
def readFraction (text : List Char) : Option (List Char × List Char) :=
  match text with
  | '.' :: rest =>
    if rest.takeWhile Char.isDigit = [] then none
    else some ('.' :: rest.takeWhile Char.isDigit, rest.dropWhile Char.isDigit)
  | _ => some ([], text)

/-- A mark, a sign and digits, or nothing. -/
def readExponent (text : List Char) : Option (List Char × List Char) :=
  match text with
  | [] => some ([], [])
  | mark :: rest =>
    if mark = 'e' ∨ mark = 'E' then
      let (sign, rest) : List Char × List Char := match rest with
        | '+' :: rest => (['+'], rest)
        | '-' :: rest => (['-'], rest)
        | _ => ([], rest)
      if rest.takeWhile Char.isDigit = [] then none
      else some (mark :: (sign ++ rest.takeWhile Char.isDigit), rest.dropWhile Char.isDigit)
    else some ([], text)

def readUnsigned (minus : List Char) (text : List Char) : Option (Number × List Char) :=
  (readWhole text).bind fun whole =>
    (readFraction whole.2).bind fun fraction =>
      (readExponent fraction.2).map fun exponent =>
        (Number.decimalLiteral (minus ++ whole.1 ++ fraction.1 ++ exponent.1), exponent.2)

def readNumber (text : List Char) : Option (Number × List Char) :=
  match text with
  | '-' :: rest => readUnsigned ['-'] rest
  | _ => readUnsigned [] text

/-! ### Texts -/

/-- Four hexadecimal digits. -/
def readUnit (text : List Char) : Option (ℕ × List Char) :=
  match text with
  | a :: b :: c :: d :: rest =>
    ([a, b, c, d].mapM (Number.digitOf 16)).map fun digits => (digits.foldl (fun n d => 16 * n + d) 0, rest)
  | _ => none

def isHigh (unit : ℕ) : Bool := 0xD800 ≤ unit && unit ≤ 0xDBFF

def isLow (unit : ℕ) : Bool := 0xDC00 ≤ unit && unit ≤ 0xDFFF

/-- The character of a code unit, and of the one that follows if both are halves of a pair. -/
def readPair (unit : ℕ) (rest : List Char) : Char × List Char :=
  match rest with
  | '\\' :: 'u' :: more =>
    match readUnit more with
    | some (low, more) =>
      if isHigh unit && isLow low then (Char.ofNat (0x10000 + (unit - 0xD800) * 0x400 + (low - 0xDC00)), more)
      else if isHigh unit || isLow unit then (Char.ofNat 0xFFFD, rest) else (Char.ofNat unit, rest)
    | none => if isHigh unit || isLow unit then (Char.ofNat 0xFFFD, rest) else (Char.ofNat unit, rest)
  | _ => if isHigh unit || isLow unit then (Char.ofNat 0xFFFD, rest) else (Char.ofNat unit, rest)

/-- What follows a backslash. -/
def readEscape (text : List Char) : Option (Char × List Char) :=
  match text with
  | '"' :: rest => some ('"', rest)
  | '\\' :: rest => some ('\\', rest)
  | '/' :: rest => some ('/', rest)
  | 'b' :: rest => some (Char.ofNat 0x08, rest)
  | 'f' :: rest => some (Char.ofNat 0x0C, rest)
  | 'n' :: rest => some ('\n', rest)
  | 'r' :: rest => some ('\r', rest)
  | 't' :: rest => some ('\t', rest)
  | 'u' :: rest => (readUnit rest).map fun unit => readPair unit.1 unit.2
  | _ => none

/-- One character of a literal. -/
def readChar (text : List Char) : Option (Char × List Char) :=
  match text with
  | '\\' :: rest => readEscape rest
  | c :: rest => if c.toNat < 0x20 then none else some (c, rest)
  | [] => none

/-- The inside of a literal up to the quote that ends it. -/
def readInside : ℕ → List Char → Option (String × List Char)
  | 0, _ => none
  | fuel + 1, text =>
    match text with
    | '"' :: rest => some ("", rest)
    | _ => (readChar text).bind fun c => (readInside fuel c.2).map fun r => (String.singleton c.1 ++ r.1, r.2)

/-! ### Values -/

/-- A value at the beginning of a text, and what follows it. -/
abbrev Reader := List Char → Option (Json Number × List Char)

/-- The elements of an array up to the bracket that ends it. -/
def readElems (read : Reader) : ℕ → List Char → Option (List (Json Number) × List Char)
  | 0, _ => none
  | fuel + 1, text => (read text).bind fun elem =>
    match skip elem.2 with
    | ']' :: rest => some ([elem.1], rest)
    | ',' :: rest => (readElems read fuel rest).map fun r => (elem.1 :: r.1, r.2)
    | _ => none

/-- A name with its value. -/
def readField (read : Reader) (text : List Char) : Option ((String × Json Number) × List Char) :=
  match skip text with
  | '"' :: rest => (readInside rest.length rest).bind fun name =>
    match skip name.2 with
    | ':' :: rest => (read rest).map fun value => ((name.1, value.1), value.2)
    | _ => none
  | _ => none

/-- The properties of an object up to the brace that ends it. -/
def readFields (read : Reader) : ℕ → List Char → Option (List (String × Json Number) × List Char)
  | 0, _ => none
  | fuel + 1, text => (readField read text).bind fun field =>
    match skip field.2 with
    | '}' :: rest => some ([field.1], rest)
    | ',' :: rest => (readFields read fuel rest).map fun r => (field.1 :: r.1, r.2)
    | _ => none

/-- A property of the same name is overwritten where it stands. -/
def insertField (fields : List (String × Json Number)) (field : String × Json Number) :
    List (String × Json Number) :=
  if fields.any fun f => f.1 = field.1 then fields.map fun f => if f.1 = field.1 then field else f
  else fields ++ [field]

/-- A value, by its first character. -/
def readValue : ℕ → Reader
  | 0, _ => none
  | fuel + 1, text =>
    match skip text with
    | 'n' :: 'u' :: 'l' :: 'l' :: rest => some (.null, rest)
    | 't' :: 'r' :: 'u' :: 'e' :: rest => some (.bool true, rest)
    | 'f' :: 'a' :: 'l' :: 's' :: 'e' :: rest => some (.bool false, rest)
    | '"' :: rest => (readInside rest.length rest).map fun r => (.str r.1, r.2)
    | '[' :: rest =>
      match skip rest with
      | ']' :: rest => some (.arr [], rest)
      | _ => (readElems (readValue fuel) rest.length rest).map fun r => (.arr r.1, r.2)
    | '{' :: rest =>
      match skip rest with
      | '}' :: rest => some (.obj [], rest)
      | _ => (readFields (readValue fuel) rest.length rest).map fun r => (.obj (r.1.foldl insertField []), r.2)
    | rest => (readNumber rest).map fun r => (.num r.1, r.2)

/-- `JSON.parse`; `none` is the `SyntaxError`. -/
def parse (text : List Char) : Option (Json Number) :=
  (readValue text.length text).bind fun r => if skip r.2 = [] then some r.1 else none

end EdgeSphere.Library.JsonParse
