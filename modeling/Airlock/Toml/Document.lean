import Airlock.Toml.Scalar

/-!
# TOML documents

Lines of keys and values under headers. Keys may be dotted and quoted; arrays may span lines, tables
in braces may not. Whatever the format refuses gives no document. The loops over items and lines are
bounded by the length of the text, since each round takes at least one character.
-/

set_option autoImplicit false

namespace Airlock.Toml

/-- How deep arrays and tables in braces may be nested, and how many parts a key may have. -/
def maxNesting : Nat := 79

def isKeyChar (c : Char) : Bool :=
  c.isAlphanum || c = '_' || c = '-'

def skipBlanks (text : List Char) : List Char :=
  text.dropWhile isBlank

/-- What follows blanks, line breaks and comments; nothing when a comment holds a control. -/
def skipSpacing (inComment : Bool) : List Char → Option (List Char)
  | [] => some []
  | c :: rest =>
    if c = '\n' then skipSpacing false rest
    else if isBreak c rest then skipSpacing inComment rest
    else if inComment then if isPlain c then skipSpacing true rest else none
    else if isBlank c then skipSpacing false rest
    else if c = '#' then skipSpacing true rest
    else some (c :: rest)

/-- What follows the end of a line, which may be the end of the text. -/
def skipLineEnd (text : List Char) : Option (List Char) :=
  let behind :=
    match skipBlanks text with
    | '#' :: rest => rest.dropWhile isPlain
    | rest => rest
  match behind with
  | [] => some []
  | '\n' :: rest => some rest
  | '\r' :: '\n' :: rest => some rest
  | _ => none

/-- One part of a key: without quotes, or a string of one line. -/
def readSimpleKey (text : List Char) : Option (List Char × List Char) :=
  match text with
  | '"' :: rest => basicFrom .plain rest
  | '\'' :: rest => literalFrom rest
  | _ =>
    let key := text.takeWhile isKeyChar
    if key.isEmpty then none else some (key, text.drop key.length)

/-- The parts of a key, with blanks around its dots, where `room` parts may follow; what follows the
key begins behind the blanks. -/
def readParts : Nat → List Char → Option (List (List Char) × List Char)
  | 0, _ => none
  | room + 1, text => do
    let (part, rest) ← readSimpleKey (skipBlanks text)
    match skipBlanks rest with
    | '.' :: rest => do
      let (path, rest) ← readParts room rest
      return (part :: path, rest)
    | rest => return ([part], rest)

/-- A key: its parts, and what follows the blanks behind it. -/
def readKey (text : List Char) : Option (List (List Char) × List Char) :=
  readParts maxNesting text

/-- The items of an array, behind its bracket or a comma. -/
def readItems (read : List Char → Option (Item × List Char)) :
    Nat → List Char → Option (List Item × List Char)
  | 0, _ => none
  | bound + 1, text => do
    match ← skipSpacing false text with
    | ']' :: rest => return ([], rest)
    | text =>
      let (item, rest) ← read text
      match ← skipSpacing false rest with
      | ',' :: rest =>
        let (items, rest) ← readItems read bound rest
        return (item :: items, rest)
      | ']' :: rest => return ([item], rest)
      | _ => none

/-- The entries of a table in braces, from a key on. -/
def readEntries (read : List Char → Option (Item × List Char)) (entries : Entries) :
    Nat → List Char → Option (Entries × List Char)
  | 0, _ => none
  | bound + 1, text => do
    let (key, rest) ← readKey text
    let rest ← expect '=' rest
    let (item, rest) ← read (skipBlanks rest)
    let entries ← entries.addValue .named (1 < key.length) item key
    match skipBlanks rest with
    | ',' :: rest => readEntries read entries bound rest
    | '\x7d' :: rest => return (entries, rest)
    | _ => none

/-- A value, where `room` more arrays and tables may be opened. -/
def readItem : Nat → List Char → Option (Item × List Char)
  | room, text =>
    match text with
    | '"' :: _ | '\'' :: _ => (readString text).map fun (s, rest) => (.string s, rest)
    | '[' :: rest =>
      match room with
      | 0 => none
      | room + 1 =>
        (readItems (readItem room) (rest.length + 1) rest).map fun (items, rest) =>
          (.array items, rest)
    | '\x7b' :: rest =>
      match room with
      | 0 => none
      | room + 1 =>
        match skipBlanks rest with
        | '\x7d' :: behind => some (.table [], behind)
        | behind =>
          (readEntries (readItem room) [] (behind.length + 1) behind).map fun (entries, rest) =>
            (.table (itemsOf entries), rest)
    | _ => readWord text

/-- A header, behind its first bracket: whether it has double brackets, its key, what follows. -/
def readHeader (text : List Char) : Option (Bool × List (List Char) × List Char) := do
  match text with
  | '[' :: rest =>
    let (key, rest) ← readKey rest
    let rest ← expect ']' rest
    let rest ← expect ']' rest
    return (true, key, rest)
  | _ =>
    let (key, rest) ← readKey text
    let rest ← expect ']' rest
    return (false, key, rest)

def addHeader (root : Entries) (repeated : Bool) (key : List (List Char)) : Option Entries := do
  let last ← key.getLast?
  root.changeAt .named (if repeated then Entries.nameNext last else Entries.nameTable last)
    key.dropLast

/-- Reads lines into a document, under the header whose key is given. -/
def readLines (root : Entries) (header : List (List Char)) : Nat → List Char → Option Entries
  | 0, _ => none
  | bound + 1, text => do
    match ← skipSpacing false text with
    | [] => return root
    | '[' :: rest =>
      let (repeated, key, rest) ← readHeader rest
      let root ← addHeader root repeated key
      readLines root key bound (← skipLineEnd rest)
    | text =>
      let (key, rest) ← readKey text
      let rest ← expect '=' rest
      let (item, rest) ← readItem maxNesting (skipBlanks rest)
      let add (entries : Entries) (origin : Origin) :=
        entries.addValue origin (1 < key.length) item key
      let root ← root.changeAt .named add header
      readLines root header bound (← skipLineEnd rest)

/-- The entries of a document. A byte order mark may stand in front. -/
def parse? (text : List Char) : Option (List (List Char × Item)) :=
  let text := match text with
    | '\ufeff' :: rest => rest
    | _ => text
  (readLines [] [] (text.length + 1) text).map itemsOf

end Airlock.Toml
