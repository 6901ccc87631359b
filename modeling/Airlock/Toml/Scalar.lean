import Airlock.Number.Double
import Airlock.Toml.Basic

/-!
# TOML scalars

Strings in their four forms, and the words that numbers, truth values, dates and times are. A word
is judged as a whole: it is taken up to the first character that no such word can hold.
-/

set_option autoImplicit false

namespace Airlock.Toml

def isBlank (c : Char) : Bool :=
  c = ' ' || c = '\t'

/-- A character that comments and strings of one line may hold. -/
def isPlain (c : Char) : Bool :=
  c = '\t' || (0x20 ≤ c.toNat && c.toNat ≠ 0x7f)

/-- Adds a character to the text read by the rest of a reader. -/
def prepend (c : Char) : Option (List Char × List Char) → Option (List Char × List Char) :=
  Option.map fun (text, rest) => (c :: text, rest)

/-! ## Strings -/

def hexValue? (digits : List Char) : Option Nat :=
  digits.foldl
    (fun n? c => do
      let n ← n?
      if c.isDigit then some (n * 16 + (c.toNat - 48))
      else if 'a' ≤ c && c ≤ 'f' then some (n * 16 + (c.toNat - 87))
      else if 'A' ≤ c && c ≤ 'F' then some (n * 16 + (c.toNat - 55))
      else none)
    (some 0)

/-- The character of a code point, if it is one. -/
def charOf? (codePoint : Nat) : Option Char :=
  if codePoint.isValidChar then some (Char.ofNat codePoint) else none

/-- The character that a letter behind a backslash stands for. -/
def escapeOf? (c : Char) : Option Char :=
  if c = 'b' then some '\x08'
  else if c = 't' then some '\t'
  else if c = 'n' then some '\n'
  else if c = 'f' then some '\x0c'
  else if c = 'r' then some '\r'
  else if c = '"' then some '"'
  else if c = '\\' then some '\\'
  else none

/-- Where the reading of a string in double quotes stands. -/
inductive QuoteState where
  | plain
  /-- behind a backslash -/
  | escape
  /-- in hexadecimal digits, held in reverse, of which so many are due -/
  | digits (taken : List Char) (due : Nat)
  /-- behind a backslash that ends a line, before or behind the line break -/
  | folding (broken : Bool)

/-- What follows a backslash: an escape of a letter, digits, or, in a string of several lines, the
end of the line. -/
def afterBackslash (multiline : Bool) (c : Char) : Option (QuoteState × List Char) :=
  if c = 'u' then some (.digits [] 4, [])
  else if c = 'U' then some (.digits [] 8, [])
  else
    match escapeOf? c with
    | some meant => some (.plain, [meant])
    | none =>
      if multiline && isBlank c then some (.folding false, [])
      else if multiline && c = '\n' then some (.folding true, [])
      else none

/-- The text of a string of one line in double quotes, behind its opening quote. -/
def basicFrom (state : QuoteState) : List Char → Option (List Char × List Char)
  | [] => none
  | c :: rest =>
    match state with
    | .plain =>
      if c = '"' then some ([], rest)
      else if c = '\\' then basicFrom .escape rest
      else if isPlain c then prepend c (basicFrom .plain rest)
      else none
    | .escape => do
      let (next, meant) ← afterBackslash false c
      (basicFrom next rest).map fun (text, rest) => (meant ++ text, rest)
    | .digits taken due =>
      if due ≤ 1 then do
        let meant ← charOf? (← hexValue? (c :: taken).reverse)
        prepend meant (basicFrom .plain rest)
      else basicFrom (.digits (c :: taken) (due - 1)) rest
    | .folding _ => none

/-- The text of a string of one line in single quotes, behind its opening quote. -/
def literalFrom : List Char → Option (List Char × List Char)
  | [] => none
  | c :: rest =>
    if c = '\'' then some ([], rest)
    else if isPlain c then prepend c (literalFrom rest)
    else none

/-- The text in front of a run of at least three quotes, where up to two belong to the text. -/
def closing? (quote : Char) (text : List Char) : Option (List Char × List Char) :=
  match text with
  | a :: b :: c :: rest =>
    if a = quote && b = quote && c = quote then
      match rest with
      | d :: e :: behind =>
        if d = quote && e = quote then some ([quote, quote], behind)
        else if d = quote then some ([quote], e :: behind)
        else some ([], rest)
      | [d] => if d = quote then some ([quote], []) else some ([], rest)
      | [] => some ([], [])
    else none
  | _ => none

/-- Whether a carriage return that is part of a line break stands here. -/
def isReturn (c : Char) (rest : List Char) : Bool :=
  c = '\r' && rest.head? = some '\n'

/-- Whether a line break, of either form, stands here; a carriage return alone is none. -/
def isBreak (c : Char) (rest : List Char) : Bool :=
  c = '\n' || isReturn c rest

/-- The text of a string of several lines in double quotes, behind its opening quotes. A line break
of either form counts as a line feed. -/
def basicLinesFrom (state : QuoteState) : List Char → Option (List Char × List Char)
  | [] => none
  | c :: rest =>
    match state with
    | .plain =>
      match closing? '"' (c :: rest) with
      | some found => some found
      | none =>
        if c = '\\' then basicLinesFrom .escape rest
        else if isReturn c rest then basicLinesFrom .plain rest
        else if isPlain c || c = '\n' then prepend c (basicLinesFrom .plain rest)
        else none
    | .escape =>
      if isReturn c rest then basicLinesFrom (.folding false) rest
      else do
        let (next, meant) ← afterBackslash true c
        (basicLinesFrom next rest).map fun (text, rest) => (meant ++ text, rest)
    | .digits taken due =>
      if due ≤ 1 then do
        let meant ← charOf? (← hexValue? (c :: taken).reverse)
        prepend meant (basicLinesFrom .plain rest)
      else basicLinesFrom (.digits (c :: taken) (due - 1)) rest
    | .folding broken =>
      if c = '\n' then basicLinesFrom (.folding true) rest
      else if isBlank c || isBreak c rest then basicLinesFrom (.folding broken) rest
      else if !broken then none
      else
        match closing? '"' (c :: rest) with
        | some found => some found
        | none =>
          if c = '\\' then basicLinesFrom .escape rest
          else if isPlain c then prepend c (basicLinesFrom .plain rest)
          else none

/-- The text of a string of several lines in single quotes, behind its opening quotes. A line break
of either form counts as a line feed. -/
def literalLinesFrom : List Char → Option (List Char × List Char)
  | [] => none
  | c :: rest =>
    match closing? '\'' (c :: rest) with
    | some found => some found
    | none =>
      if isReturn c rest then literalLinesFrom rest
      else if isPlain c || c = '\n' then prepend c (literalLinesFrom rest)
      else none

/-- The text behind a line break right at the start. -/
def dropBreak (text : List Char) : List Char :=
  match text with
  | '\n' :: rest => rest
  | '\r' :: '\n' :: rest => rest
  | _ => text

/-- A string in any of its forms, from its opening quote on. -/
def readString (text : List Char) : Option (List Char × List Char) :=
  match text with
  | '"' :: '"' :: '"' :: rest => basicLinesFrom .plain (dropBreak rest)
  | '\'' :: '\'' :: '\'' :: rest => literalLinesFrom (dropBreak rest)
  | '"' :: rest => basicFrom .plain rest
  | '\'' :: rest => literalFrom rest
  | _ => none

/-! ## Words -/

/-- Digits with single underscores between them. The flag says whether a digit came just before. -/
def isDigitRun (isDigit : Char → Bool) (afterDigit : Bool) : List Char → Bool
  | [] => afterDigit
  | c :: rest =>
    if isDigit c then isDigitRun isDigit true rest
    else c = '_' && afterDigit && isDigitRun isDigit false rest

/-- Digits with single underscores between them, and no zero in front of others. -/
def isDecimal (digits : List Char) : Bool :=
  digits = ['0'] || (digits.head? ≠ some '0' && isDigitRun Char.isDigit false digits)

/-- The number that digits spell in a base, underscores aside. -/
def valueOf (base : Nat) (digits : List Char) : Nat :=
  ((digits.filter (· ≠ '_')).map fun c => ((hexValue? [c]).getD 0)).foldl
    (fun n digit => n * base + digit) 0

/-- An integer, if it fits in 64 bits with a sign. -/
def boundedInteger (n : Int) : Option Item :=
  if -0x8000000000000000 ≤ n ∧ n < 0x8000000000000000 then some (.integer n) else none

def readBased (base : Nat) (isDigit : Char → Bool) (digits : List Char) : Option Item :=
  if isDigitRun isDigit false digits then boundedInteger (valueOf base digits) else none

def splitSign (word : List Char) : Bool × List Char :=
  match word with
  | '+' :: rest => (false, rest)
  | '-' :: rest => (true, rest)
  | _ => (false, word)

def isHuge (wholes decimals : List Char) (exponent : Int) : Bool :=
  let significand := valueOf 10 (wholes ++ decimals)
  let size : Int := (Nat.toDigits 10 significand).length
  let power := exponent - ((decimals.filter (· ≠ '_')).length : Int)
  if significand = 0 then false
  else if 320 < size + power then true
  else if size + power < 300 then false
  else
    2047 * Nat.pow 2 52 ≤
      (Ratio.mk (significand * Nat.pow 10 power.toNat) (Nat.pow 10 (-power).toNat)).magnitudeBits

/-- A number with point or exponent. One beyond the greatest double is refused when positive. -/
def readFloat (negative : Bool) (digits : List Char) : Option Item :=
  let wholes := digits.takeWhile fun c => c.isDigit || c = '_'
  let behind := digits.drop wholes.length
  let (decimals?, behind) : Option (List Char) × List Char :=
    match behind with
    | '.' :: rest =>
      let decimals := rest.takeWhile fun c => c.isDigit || c = '_'
      (some decimals, rest.drop decimals.length)
    | _ => (none, behind)
  let exponent? : Option (Option (Bool × List Char)) :=
    match behind with
    | [] => some none
    | mark :: rest =>
      let (down, power) := splitSign rest
      if (mark = 'e' || mark = 'E') && isDigitRun Char.isDigit false power then
        some (some (down, power))
      else none
  match exponent? with
  | none => none
  | some exponent =>
    let decimalsFine := match decimals? with
      | some decimals => isDigitRun Char.isDigit false decimals
      | none => exponent.isSome
    let power : Int := match exponent with
      | some (down, power) => if down then -(valueOf 10 power : Int) else valueOf 10 power
      | none => 0
    if isDecimal wholes && decimalsFine
        && (negative || !isHuge wholes (decimals?.getD []) power) then some .float
    else none

/-- A number of exactly `count` digits within bounds, and what follows. -/
def readField (count low high : Nat) (text : List Char) : Option (Nat × List Char) :=
  let digits := text.take count
  let n := valueOf 10 digits
  if digits.length = count && digits.all Char.isDigit && low ≤ n && n ≤ high then
    some (n, text.drop count)
  else none

def expect (c : Char) (text : List Char) : Option (List Char) :=
  match text with
  | head :: rest => if head = c then some rest else none
  | [] => none

def daysIn (year month : Nat) : Nat :=
  if month = 2 then
    if year % 4 = 0 ∧ (year % 100 ≠ 0 ∨ year % 400 = 0) then 29 else 28
  else if month = 4 ∨ month = 6 ∨ month = 9 ∨ month = 11 then 30
  else 31

def readDate (text : List Char) : Option (List Char) := do
  let (year, text) ← readField 4 0 9999 text
  let text ← expect '-' text
  let (month, text) ← readField 2 1 12 text
  let text ← expect '-' text
  let (_, text) ← readField 2 1 (daysIn year month) text
  return text

def readTime (text : List Char) : Option (List Char) := do
  let (_, text) ← readField 2 0 23 text
  let text ← expect ':' text
  let (_, text) ← readField 2 0 59 text
  let text ← expect ':' text
  let (_, text) ← readField 2 0 60 text
  match text with
  | '.' :: rest =>
    let decimals := rest.takeWhile Char.isDigit
    if decimals.isEmpty then none else some (rest.drop decimals.length)
  | _ => some text

/-- Whether a text is an offset from universal time, or nothing. -/
def isOffset (text : List Char) : Bool :=
  match text with
  | [] | ['Z'] | ['z'] => true
  | sign :: rest =>
    (sign = '+' || sign = '-') &&
      ((do
        let (_, rest) ← readField 2 0 23 rest
        let rest ← expect ':' rest
        let (_, rest) ← readField 2 0 59 rest
        return rest.isEmpty : Option Bool).getD false)

/-- Whether a word is a date, a time of day, or both. -/
def isMoment (word : List Char) : Bool :=
  match readDate word with
  | some [] => true
  | some (separator :: rest) =>
    (separator = 'T' || separator = 't') &&
      (match readTime rest with
        | some offset => isOffset offset
        | none => false)
  | none => readTime word = some []

def wordItem (word : List Char) : Option Item :=
  let (negative, digits) := splitSign word
  if word = "true".toList then some (.bool true)
  else if word = "false".toList then some (.bool false)
  else if digits = "inf".toList || digits = "nan".toList then some .float
  else if isDecimal digits then
    boundedInteger (if negative then -(valueOf 10 digits : Int) else valueOf 10 digits)
  else
    match word with
    | '0' :: 'x' :: rest => readBased 16 (fun c => c.isDigit || (hexValue? [c]).isSome) rest
    | '0' :: 'o' :: rest => readBased 8 (fun c => '0' ≤ c && c ≤ '7') rest
    | '0' :: 'b' :: rest => readBased 2 (fun c => c = '0' || c = '1') rest
    | _ => if isMoment word then some .moment else readFloat negative digits

def isWordPart (c : Char) : Bool :=
  c.isAlphanum || c = '_' || c = '+' || c = '-' || c = '.' || c = ':'

/-- A word, and what follows it. A date and a time of day may be parted by one space. -/
def readWord (text : List Char) : Option (Item × List Char) :=
  let word := text.takeWhile isWordPart
  let rest := text.drop word.length
  let timed? : Option (Item × List Char) :=
    match rest with
    | ' ' :: behind =>
      let time := behind.takeWhile isWordPart
      if readDate word = some [] && isMoment (word ++ 'T' :: time) then
        some (.moment, behind.drop time.length)
      else none
    | _ => none
  match timed? with
  | some found => some found
  | none => (wordItem word).map fun item => (item, rest)

end Airlock.Toml
