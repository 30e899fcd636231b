import Lossless.Json.Number

/-!
# Tokens of JSON

A text is read character by character: the reader is between two tokens, inside a text,
behind a backslash, or inside a word or a number, which lasts until some other character
comes. A text may hold code units of UTF-16 in hexadecimal digits; a high surrogate then
has to be followed by a low one.
-/

namespace Lossless.Json

/-- A token. -/
inductive Token where
  /-- `[` -/
  | openList
  /-- `]` -/
  | closeList
  /-- `\x7b` -/
  | openRecord
  /-- `\x7d` -/
  | closeRecord
  /-- `,` -/
  | comma
  /-- `:` -/
  | colon
  /-- A value that is one token. -/
  | value (d : Datum)

namespace Token

/-- Where reading stands. What was read of an unfinished token is kept backwards; a high
surrogate that came last is kept apart. -/
inductive State where
  /-- Between two tokens. -/
  | between
  /-- Inside a text. -/
  | text (read : List Char) (high : Option Nat)
  /-- Behind a backslash. -/
  | escape (read : List Char) (high : Option Nat)
  /-- Inside a code unit. -/
  | unit (read : List Char) (high : Option Nat) (digits : List Nat)
  /-- Inside a word or a number. -/
  | word (read : List Char)

/-! ### Code units -/

/-- The value of a hexadecimal digit. -/
def hexDigit? (c : Char) : Option Nat :=
  if c.isDigit then some (c.toNat - '0'.toNat)
  else if 'a' ≤ c ∧ c ≤ 'f' then some (c.toNat - 'a'.toNat + 10)
  else if 'A' ≤ c ∧ c ≤ 'F' then some (c.toNat - 'A'.toNat + 10)
  else none

/-- The state after a code unit. -/
def afterUnit? (read : List Char) (high : Option Nat) (unit : Nat) : Option State :=
  match high with
  | some h =>
    if 0xDC00 ≤ unit ∧ unit ≤ 0xDFFF then
      some (.text (Char.ofNat (0x10000 + (h - 0xD800) * 0x400 + (unit - 0xDC00)) :: read) none)
    else none
  | none =>
    if 0xD800 ≤ unit ∧ unit ≤ 0xDBFF then some (.text read (some unit))
    else if 0xDC00 ≤ unit ∧ unit ≤ 0xDFFF then none
    else some (.text (Char.ofNat unit :: read) none)

/-- The character that is written as a backslash and this one. -/
def escaped? : Char → Option Char
  | '"' => some '"'
  | '\\' => some '\\'
  | '/' => some '/'
  | 'b' => some '\x08'
  | 'f' => some '\x0c'
  | 'n' => some '\n'
  | 'r' => some '\r'
  | 't' => some '\t'
  | _ => none

/-! ### Steps -/

/-- The value of a word or a number. -/
def valueOf? (s : List Char) : Option Datum :=
  if s = ['n', 'u', 'l', 'l'] then some .null
  else if s = ['t', 'r', 'u', 'e'] then some (.bool true)
  else if s = ['f', 'a', 'l', 's', 'e'] then some (.bool false)
  else Number.read? s

/-- Does a word or a number go on with this character? -/
def isWordChar (c : Char) : Bool := c.isAlphanum || c = '-' || c = '+' || c = '.'

/-- A character between two tokens, after the tokens so far, the latest first. -/
def begin? (tokens : List Token) (c : Char) : Option (State × List Token) :=
  match c with
  | ' ' | '\t' | '\n' | '\r' => some (.between, tokens)
  | '[' => some (.between, .openList :: tokens)
  | ']' => some (.between, .closeList :: tokens)
  | '\x7b' => some (.between, .openRecord :: tokens)
  | '\x7d' => some (.between, .closeRecord :: tokens)
  | ',' => some (.between, .comma :: tokens)
  | ':' => some (.between, .colon :: tokens)
  | '"' => some (.text [] none, tokens)
  | c => if isWordChar c then some (.word [c], tokens) else none

/-- A character in some state, after the tokens so far, the latest first. -/
def step? (state : State) (tokens : List Token) (c : Char) : Option (State × List Token) :=
  match state with
  | .between => begin? tokens c
  | .text read high =>
    if c = '\\' then some (.escape read high, tokens)
    else if high.isSome ∨ c.toNat < 32 then none
    else if c = '"' then some (.between, .value (.text (String.ofList read.reverse)) :: tokens)
    else some (.text (c :: read) none, tokens)
  | .escape read high =>
    if c = 'u' then some (.unit read high [], tokens)
    else if high.isSome then none
    else (escaped? c).map fun c => (.text (c :: read) none, tokens)
  | .unit read high digits => do
    let digits := digits ++ [← hexDigit? c]
    if digits.length < 4 then return (.unit read high digits, tokens)
    else return (← afterUnit? read high (digits.foldl (fun n d => n * 16 + d) 0), tokens)
  | .word read =>
    if isWordChar c then some (.word (c :: read), tokens)
    else (valueOf? read.reverse).bind fun d => begin? (.value d :: tokens) c

/-- Reads the rest of a text in some state, after the tokens so far, the latest first. -/
def readFrom? (state : State) (tokens : List Token) : List Char → Option (List Token)
  | [] =>
    match state with
    | .between => some tokens.reverse
    | .word read => (valueOf? read.reverse).map fun d => (.value d :: tokens).reverse
    | .text _ _ | .escape _ _ | .unit _ _ _ => none
  | c :: s => (step? state tokens c).bind fun (state, tokens) => readFrom? state tokens s

/-- The tokens of a text. -/
def read? (s : List Char) : Option (List Token) := readFrom? .between [] s

end Token

end Lossless.Json
