import TrapHandler.QuotedLiterals
import TrapHandler.WideStrings

/-!
# Tokens of a statement

The lexical structure of Transact-SQL: words, symbols, string literals, delimited identifiers, and
the two kinds of comments. A statement that is written with its values between quotes has the same
tokens for all values, and literals that denote them, exactly if no value contains a quote.
-/

namespace TrapHandler.Sql

open QuotedLiterals

def quote : WChar := 0x27

/-- `close` is the character that ends a quoted token: a quote for a string literal, a double quote
or a bracket for a delimited identifier. -/
inductive Token where
  | word (w : WStr)
  | symbol (c : WChar)
  | quoted (close : WChar) (content : WStr)
  deriving DecidableEq, Repr

/-- `closing` is the mode behind the closing character, which may still turn out to be doubled. -/
inductive Mode where
  | between
  | word (w : WStr)
  | quoted (close : WChar) (content : WStr)
  | closing (close : WChar) (content : WStr)
  | dash
  | slash
  | lineComment
  | blockComment (depth : ℕ) (last : WChar)
  deriving DecidableEq, Repr

def isWordChar (c : WChar) : Bool :=
  isDigit c || (0x41 ≤ c && c ≤ 0x5A) || (0x61 ≤ c && c ≤ 0x7A) || c == 0x5F || c == 0x23 ||
    c == 0x24 || c == 0x40 || 0x80 ≤ c

/-- A character in front of which a token has ended. -/
def start (c : WChar) : List Token × Mode :=
  if isWordChar c then ([], .word [c])
  else if isSpace c then ([], .between)
  else if c = quote then ([], .quoted quote [])
  else if c = 0x22 then ([], .quoted 0x22 [])
  else if c = 0x5B then ([], .quoted 0x5D [])
  else if c = 0x2D then ([], .dash)
  else if c = 0x2F then ([], .slash)
  else ([.symbol c], .between)

/-- The token `t` has ended in front of a character. -/
def startBehind (t : Token) (c : WChar) : List Token × Mode := (t :: (start c).1, (start c).2)

/-- The tokens that end with a character, and the mode behind it. -/
def step : Mode → WChar → List Token × Mode
  | .between, c => start c
  | .word w, c => if isWordChar c then ([], .word (w ++ [c])) else startBehind (.word w) c
  | .quoted close s, c =>
    if c = close then ([], .closing close s) else ([], .quoted close (s ++ [c]))
  | .closing close s, c =>
    if c = close then ([], .quoted close (s ++ [c])) else startBehind (.quoted close s) c
  | .dash, c => if c = 0x2D then ([], .lineComment) else startBehind (.symbol 0x2D) c
  | .slash, c => if c = 0x2A then ([], .blockComment 1 0) else startBehind (.symbol 0x2F) c
  | .lineComment, c => if c = 0x0A then ([], .between) else ([], .lineComment)
  | .blockComment depth last, c =>
    if last = 0x2A ∧ c = 0x2F then
      if depth = 1 then ([], .between) else ([], .blockComment (depth - 1) 0)
    else if last = 0x2F ∧ c = 0x2A then ([], .blockComment (depth + 1) 0)
    else ([], .blockComment depth c)

def run : Mode → WStr → List Token × Mode
  | m, [] => ([], m)
  | m, c :: text => ((step m c).1 ++ (run (step m c).2 text).1, (run (step m c).2 text).2)

def Token.literal? : Token → Option WStr
  | .quoted close content => if close = quote then some content else none
  | .word _ => none
  | .symbol _ => none

def Token.blank : Token → Token
  | .quoted close content => .quoted close (if close = quote then [] else content)
  | .word w => .word w
  | .symbol c => .symbol c

def literals (ts : List Token) : List WStr := ts.filterMap Token.literal?

/-- The mode behind a text that is followed by these literals. -/
def modeAt : List WStr → Mode
  | [] => .between
  | _ :: _ => .quoted quote []

/-- A text behind a closing quote contains no literal and reaches up to the next opening one. -/
def leads (text : WStr) (gaps : List WStr) : Bool :=
  text.head? != some quote && (run .between text).2 == modeAt gaps &&
    literals (run .between text).1 == []

/-- The texts of a statement behind its literals, closing quotes included. -/
def separates : List WStr → Bool
  | [] => true
  | gap :: gaps => gap.head? == some quote && leads gap.tail gaps && separates gaps

structure Template where
  head : WStr
  gaps : List WStr
  head_leads : leads head gaps = true
  gaps_separate : separates gaps = true

/-- Every value is followed by the text from its closing quote on. -/
def fill : List WStr → List WStr → WStr
  | gap :: gaps, value :: values => value ++ (gap ++ fill gaps values)
  | _, _ => []

def Template.statement (t : Template) (values : List WStr) : WStr := t.head ++ fill t.gaps values

theorem leads_cases {text : WStr} {gaps : List WStr} (h : leads text gaps = true) :
    text.head? ≠ some quote ∧ (run .between text).2 = modeAt gaps ∧
      literals (run .between text).1 = [] := by
  simp only [leads, Bool.and_eq_true, bne_iff_ne, beq_iff_eq] at h
  exact ⟨h.1.1, h.1.2, h.2⟩

theorem head_leads {text : WStr} {gaps : List WStr} (h : leads text gaps = true)
    (values : List WStr) : (text ++ fill gaps values).head? ≠ some quote := by
  obtain ⟨hhead, hmode, _⟩ := leads_cases h
  cases text with
  | cons c text => exact hhead
  | nil =>
    cases gaps with
    | nil =>
      rw [fill]
      · exact hhead
      · intro _ _ _ _ hgaps
        cases hgaps
    | cons next gaps => cases hmode

namespace Template

variable {t : Template} {values plain expected : List WStr}

end Template

end TrapHandler.Sql
