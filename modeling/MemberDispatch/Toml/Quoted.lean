import MemberDispatch.Toml.Reader

/-!
# Quoted text

Basic strings know escapes, literal strings do not; each comes on one line or
on several.
-/

set_option autoImplicit false

namespace MemberDispatch.Toml

def hexDigit? (c : Char) : Option Nat :=
  if '0' ≤ c ∧ c ≤ '9' then some (c.toNat - '0'.toNat)
  else if 'a' ≤ c ∧ c ≤ 'f' then some (c.toNat - 'a'.toNat + 10)
  else if 'A' ≤ c ∧ c ≤ 'F' then some (c.toNat - 'A'.toNat + 10)
  else none

/-- The character whose code is written with exactly `width` digits. -/
def scalar? (width : Nat) (text : List Char) : Option (Char × List Char) :=
  let digits := text.take width
  if digits.length = width then
    match digits.mapM hexDigit? with
    | none => none
    | some values =>
      let code := values.foldl (fun sum digit => sum * 16 + digit) 0
      if code.isValidChar then some (Char.ofNat code, text.drop width) else none
  else none

/-- What an escape stands for, its backslash already read. -/
def escaped? : Reader Char
  | 'b' :: rest => some ('\x08', rest)
  | 't' :: rest => some ('\t', rest)
  | 'n' :: rest => some ('\n', rest)
  | 'f' :: rest => some ('\x0c', rest)
  | 'r' :: rest => some ('\r', rest)
  | '"' :: rest => some ('"', rest)
  | '\\' :: rest => some ('\\', rest)
  | 'u' :: rest => scalar? 4 rest
  | 'U' :: rest => scalar? 8 rest
  | _ => none

/-- The inside of a basic string and its closing quote. -/
def basicBody? : Nat → Reader (List Char)
  | 0, _ => none
  | _, [] => none
  | _, '"' :: rest => some ([], rest)
  | bound + 1, '\\' :: rest => do
    let (c, rest) ← escaped? rest
    let (cs, rest) ← basicBody? bound rest
    some (c :: cs, rest)
  | bound + 1, c :: rest =>
    if isPlain c then do
      let (cs, rest) ← basicBody? bound rest
      some (c :: cs, rest)
    else none

/-- The inside of a literal string and its closing quote. -/
def literalBody? (text : List Char) : Option (List Char × List Char) :=
  let inside := fun c => isPlain c && c ≠ '\''
  match text.dropWhile inside with
  | '\'' :: rest => some (text.takeWhile inside, rest)
  | _ => none

/-! ## Several lines -/

def skipBreaks : List Char → List Char
  | [] => []
  | '\r' :: '\n' :: rest => skipBreaks rest
  | c :: rest => if isSpace c || c = '\n' then skipBreaks rest else c :: rest

/-- A backslash at the end of a line swallows all spaces and line ends up to
the next word. -/
def continued? (text : List Char) : Option (List Char) :=
  (newline? (skipSpaces text)).map skipBreaks

/-- A run of quotes inside the text: one or two belong to it, three close it,
and up to two more before those belong to it as well. -/
inductive QuoteRun where
  | inside (quotes : List Char)
  | closing (quotes : List Char)
  | tooLong

def QuoteRun.ofLength (mark : Char) (length : Nat) : QuoteRun :=
  if length ≤ 2 then inside (List.replicate length mark)
  else if length ≤ 5 then closing (List.replicate (length - 3) mark)
  else tooLong

/-- The inside of a text on several lines and its closing quotes; `mark` is
the quote, and only a basic text knows escapes. -/
def linesBody? (mark : Char) (escapes : Bool) : Nat → Reader (List Char)
  | 0, _ => none
  | _, [] => none
  | bound + 1, c :: rest =>
    if c = mark then
      let run := (c :: rest).takeWhile (· = mark)
      let after := (c :: rest).dropWhile (· = mark)
      match QuoteRun.ofLength mark run.length with
      | .inside quotes => do
        let (cs, after) ← linesBody? mark escapes bound after
        some (quotes ++ cs, after)
      | .closing quotes => some (quotes, after)
      | .tooLong => none
    else if escapes && c = '\\' then
      match continued? rest with
      | some after => linesBody? mark escapes bound after
      | none => do
        let (e, after) ← escaped? rest
        let (cs, after) ← linesBody? mark escapes bound after
        some (e :: cs, after)
    else
      match newline? (c :: rest) with
      | some after => do
        let (cs, after) ← linesBody? mark escapes bound after
        some ('\n' :: cs, after)
      | none =>
        if isPlain c then do
          let (cs, after) ← linesBody? mark escapes bound rest
          some (c :: cs, after)
        else none

/-- A text on several lines after its opening quotes; a line end right after
them is no part of it. -/
def lines? (mark : Char) (escapes : Bool) (text : List Char) :
    Option (List Char × List Char) :=
  let body := (newline? text).getD text
  linesBody? mark escapes (body.length + 1) body

/-! ## Strings and keys -/

def lineString? : Reader String
  | '"' :: rest => (basicBody? (rest.length + 1) rest).map fun (cs, rest) => (.ofList cs, rest)
  | '\'' :: rest => (literalBody? rest).map fun (cs, rest) => (.ofList cs, rest)
  | _ => none

def string? : Reader String
  | '"' :: '"' :: '"' :: rest =>
    (lines? '"' true rest).map fun (cs, rest) => (.ofList cs, rest)
  | '\'' :: '\'' :: '\'' :: rest =>
    (lines? '\'' false rest).map fun (cs, rest) => (.ofList cs, rest)
  | text => lineString? text

def isBareKey (c : Char) : Bool :=
  c.isAlphanum || c = '_' || c = '-'

def key? (text : List Char) : Option (String × List Char) :=
  match text.takeWhile isBareKey with
  | [] => lineString? text
  | bare => some (.ofList bare, text.dropWhile isBareKey)

/-- Keys with dots between them and spaces around them. -/
def keys? : Nat → Reader (List String)
  | 0, _ => none
  | bound + 1, text => do
    let (key, rest) ← key? (skipSpaces text)
    match skipSpaces rest with
    | '.' :: rest =>
      let (keys, rest) ← keys? bound rest
      some (key :: keys, rest)
    | rest => some ([key], rest)

/-- Deeper nesting is refused, of keys as well as of values. -/
def depthLimit : Nat := 80

/-- A dotted key of fewer parts than the depth limit. -/
def dottedKey? (text : List Char) : Option (List String × List Char) :=
  keys? (depthLimit - 1) text

end MemberDispatch.Toml
