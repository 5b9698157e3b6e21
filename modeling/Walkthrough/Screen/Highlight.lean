import Walkthrough.Language
import Walkthrough.Screen.Style
import Walkthrough.Text.Alphanumeric

/-! Colours for source lines and for values. Highlighting cuts a text into spans and loses none of
it. -/

namespace Walkthrough.Screen

/-- The words that a language keeps for itself, as far as they are coloured. -/
def keywords : Language → List String
  | .jikiScript =>
    ["set", "to", "change", "log", "if", "else", "repeat", "times", "do", "end", "function", "with",
     "return", "for", "each", "in", "indexed", "by", "while", "and", "or", "not", "is", "equals",
     "break", "continue", "next", "repeat_until_game_over"]
  | .javaScript =>
    ["let", "const", "function", "return", "if", "else", "for", "of", "while", "break", "continue"]

def wordStyle (language : Language) (word : List Char) (isCalled : Bool) : Style :=
  let text := String.ofList word
  if (keywords language).contains text then (Style.ofColour Theme.keyword).emphasised
  else if ["true", "false", "null", "undefined"].contains text || (Number.read? word).isSome then
    .ofColour Theme.number
  else if isCalled then .ofColour Theme.function
  else .ofColour Theme.plain

/-- A span for what has been read backwards, unless that is nothing. -/
def spanOf (style : List Char → Style) (read : List Char) : List Span :=
  if read.isEmpty then [] else [{ chars := read.reverse, style := style read.reverse }]

/-- A quoted text after its opening quote, with the closing one, and the rest of the line. A
backslash takes the meaning from the character after it; without a closing quote all is text. -/
def quotedPart : List Char → List Char × List Char
  | [] => ([], [])
  | '"' :: rest => (['"'], rest)
  | '\\' :: c :: rest =>
    let (part, tail) := quotedPart rest
    ('\\' :: c :: part, tail)
  | c :: rest =>
    let (part, tail) := quotedPart rest
    (c :: part, tail)

theorem quotedPart_append (cs : List Char) : (quotedPart cs).1 ++ (quotedPart cs).2 = cs := by
  fun_induction quotedPart cs <;> simp_all

theorem quotedPart_length (cs : List Char) : (quotedPart cs).2.length ≤ cs.length := by
  have h := congrArg List.length (quotedPart_append cs)
  simp only [List.length_append] at h
  omega

def isWordChar (c : Char) : Bool := Text.isAlphanumeric c || c = '_'

def isBracket (c : Char) : Bool :=
  c = '(' || c = ')' || c = '[' || c = ']' || c = '\x7b' || c = '\x7d'

/-- The spans of a source line; `word` is the word being read, backwards. A word before a quotation
or a comment has no look of its own. -/
def lineSpans (language : Language) (word : List Char) : List Char → List Span
  | [] => spanOf (wordStyle language · false) word
  | '/' :: '/' :: rest =>
    spanOf (fun _ => {}) word
      ++ [{ chars := '/' :: '/' :: rest, style := .ofColour Theme.faint }]
  | '"' :: rest =>
    let quotation := quotedPart rest
    spanOf (fun _ => {}) word
      ++ [{ chars := '"' :: quotation.1, style := .ofColour Theme.quoted }]
      ++ lineSpans language [] quotation.2
  | c :: rest =>
    if isWordChar c then lineSpans language (c :: word) rest
    else
      let colour := if isBracket c then Theme.primary else Theme.plain
      spanOf (wordStyle language · (c = '(')) word
        ++ [{ chars := [c], style := .ofColour colour }]
        ++ lineSpans language [] rest
termination_by cs => cs.length
decreasing_by
  · have := quotedPart_length rest
    simp only [List.length_cons]
    omega
  all_goals simp

def highlightLine (language : Language) (line : String) : List Span :=
  lineSpans language [] line.toList

def tokenStyle (token : List Char) : Style :=
  let text := String.ofList token
  if token.head? = some '"' then .ofColour Theme.quoted
  else if ["true", "false", "null"].contains text then .ofColour Theme.keyword
  else if (Number.read? token).isSome || ["NaN", "Infinity", "-Infinity"].contains text then
    .ofColour Theme.number
  else .ofColour Theme.plain

/-- What divides the parts of a value's text. -/
def isDelimiter (c : Char) : Bool :=
  c = '[' || c = ']' || c = '\x7b' || c = '\x7d' || c = ',' || c = ':' || c = ' '

/-- The spans of a value's text; `token` is the part being read, backwards. Every quote opens or
closes a quotation. -/
def valueSpans (inQuotes : Bool) (token : List Char) : List Char → List Span
  | [] => spanOf tokenStyle token
  | c :: rest =>
    if c = '"' then
      if inQuotes then spanOf tokenStyle (c :: token) ++ valueSpans false [] rest
      else valueSpans true (c :: token) rest
    else if !inQuotes && isDelimiter c then
      spanOf tokenStyle token ++ [{ chars := [c], style := .ofColour Theme.plain }]
        ++ valueSpans false [] rest
    else valueSpans inQuotes (c :: token) rest

def highlightValue (text : String) : List Span :=
  valueSpans false [] text.toList

end Walkthrough.Screen
