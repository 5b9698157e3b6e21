import Walkthrough.JikiScript.Mistake
import Walkthrough.Number.Reading
import Walkthrough.Stream
import Walkthrough.Text.Quoted

/-! From characters to tokens. Blanks and comments separate tokens and leave no trace; a run of
line breaks is one token, and none stands before the first other token. The last line always ends
in a line break token. -/

namespace Walkthrough.JikiScript

def isNameStart (c : Char) : Bool :=
  Text.isLetter c || c == '_'

def isNamePart (c : Char) : Bool :=
  Text.isLetter c || Number.isDigit c || c == '_'

/-- What a number literal may run on with: letters and underscores too, so that they can be
reported as part of the number. -/
def isNumberPart (c : Char) : Bool :=
  isNamePart c || c == '.'

def isGap (c : Char) : Bool :=
  c == ' ' || c == '\t' || c == '\r'

/-- Skips blanks and comments, up to the next token or line break. -/
def skipGaps (inComment : Bool) (p : Position) : List Char → Position × List Char
  | [] => (p, [])
  | c :: rest =>
    if inComment then
      if c = '\n' then (p, c :: rest) else skipGaps true (p.after c) rest
    else if isGap c then skipGaps false (p.after c) rest
    else if c = '/' && rest.head? = some '/' then skipGaps true (p.after c) rest
    else (p, c :: rest)

/-- Checks a number literal; a mistake comes with the number that may have been meant. -/
def checkNumber (cs : List Char) : Except Mistake Float :=
  let points := cs.filter (· == '.')
  if cs.any isNameStart then
    let digits := cs.filter fun c => Number.isDigit c || c == '.'
    .error (.numberContainsLetters (String.ofList digits))
  else if points.length > 1 then
    let whole := cs.takeWhile (· != '.')
    let rest := (cs.dropWhile (· != '.')).filter (· != '.')
    .error (.numberWithTwoPoints (String.ofList (whole ++ '.' :: rest)))
  else if cs.getLast? = some '.' then
    .error (.numberEndsWithPoint (String.ofList cs.dropLast))
  else if cs.length > 1 && cs.head? = some '0' && cs.tail.head? ≠ some '.' then
    .error (.numberStartsWithZero (String.ofList (cs.dropWhile (· == '0'))))
  else match Number.read? cs with
    | some x => .ok x
    | none => .error (.invalidNumber (String.ofList cs))

/-- The token of an operator or bracket and what follows it; the longest spelling wins. -/
def mark? : List Char → Option (Mark × List Char × List Char)
  | '=' :: '=' :: '=' :: rest => some (.eqEq, ['=', '=', '='], rest)
  | '=' :: '=' :: rest => some (.eqEq, ['=', '='], rest)
  | '=' :: rest => some (.eq, ['='], rest)
  | '!' :: '=' :: rest => some (.notEq, ['!', '='], rest)
  | '!' :: rest => some (.bang, ['!'], rest)
  | '<' :: '=' :: rest => some (.le, ['<', '='], rest)
  | '<' :: rest => some (.lt, ['<'], rest)
  | '>' :: '=' :: rest => some (.ge, ['>', '='], rest)
  | '>' :: rest => some (.gt, ['>'], rest)
  | '+' :: rest => some (.plus, ['+'], rest)
  | '-' :: rest => some (.minus, ['-'], rest)
  | '*' :: rest => some (.star, ['*'], rest)
  | '/' :: rest => some (.slash, ['/'], rest)
  | '%' :: rest => some (.percent, ['%'], rest)
  | '(' :: rest => some (.lParen, ['('], rest)
  | ')' :: rest => some (.rParen, [')'], rest)
  | '[' :: rest => some (.lBracket, ['['], rest)
  | ']' :: rest => some (.rBracket, [']'], rest)
  | '{' :: rest => some (.lBrace, ['{'], rest)
  | '}' :: rest => some (.rBrace, ['}'], rest)
  | ',' :: rest => some (.comma, [','], rest)
  | ':' :: rest => some (.colon, [':'], rest)
  | _ => none

def wordToken (word : String) : Token :=
  match Keyword.ofSpelling? word with
  | some k => .word k
  | none => .name word

/-- The token that starts with `c` at `p`, the place after it, and what follows. -/
def nextToken (p : Position) (c : Char) (rest : List Char) :
    Except Mistake (Token × Position × List Char) :=
  if c = '\n' then .ok (.newline, p.after c, rest)
  else if c = '"' then
    match Text.quotedBody '"' (p.after c) [] rest with
    | .ok (contents, stop, rest) => .ok (.text (String.ofList contents), stop, rest)
    | .error contents => .error (.unterminatedText (String.ofList contents))
  else if Number.isDigit c then do
    let cs := c :: rest.takeWhile isNumberPart
    let x ← checkNumber cs
    return (.number x, p.afterAll cs, rest.dropWhile isNumberPart)
  else if isNameStart c then
    let cs := c :: rest.takeWhile isNamePart
    .ok (wordToken (String.ofList cs), p.afterAll cs, rest.dropWhile isNamePart)
  else match mark? (c :: rest) with
    | some (m, spelling, rest) => .ok (.mark m, p.afterAll spelling, rest)
    | none => .error (.unknownCharacter c)

/-- Reads tokens up to the end. `fresh` holds where a further line break adds nothing: before the
first token and after a line break. The bound is the number of characters left, and every round
reads at least one. -/
def scan : Nat → Bool → Position → List Char →
    Except (Located Mistake) (List (Located Token) × Position)
  | 0, _, p, _ => .ok ([], p)
  | bound + 1, fresh, p, cs =>
    let (p, cs) := skipGaps false p cs
    match cs with
    | [] => .ok (if fresh then [] else [{ item := .newline, position := p }], p)
    | c :: rest =>
      match nextToken p c rest with
      | .error mistake => .error { item := mistake, position := p }
      | .ok (token, next, rest) =>
        if token = .newline && fresh then scan bound true next rest
        else do
          let (tokens, stop) ← scan bound (token = .newline) next rest
          return ({ item := token, position := p } :: tokens, stop)

def tokenize (source : String) : Except (Located Mistake) (Stream Token) := do
  let cs := source.toList
  let (ahead, stop) ← scan (cs.length + 1) true Position.start cs
  return { ahead, stop }

end Walkthrough.JikiScript
