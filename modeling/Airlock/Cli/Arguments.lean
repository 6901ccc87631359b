import Airlock.Cli.Settings
import Airlock.Text.Digits

/-!
# Command lines

A command line is read word by word. Options may stand before and behind other words; the value of
an option is attached with an equals sign, or right behind a one-letter name, or is the next word,
which then must not look like an option. Behind a double dash all words are plain. Every option may
be given once, but those that belong to every command once before and once behind its name, where
the later one holds. Asking for the version or for help ends the reading at that word.
-/

set_option autoImplicit false

namespace Airlock.Cli

inductive Kind where
  | flag
  | text
  /-- a text that is not empty -/
  | path
  /-- a natural number below 2^64 -/
  | count
  | oneOf (names : List String)
  | version
  | help

def Kind.takesValue : Kind → Bool
  | .flag | .version | .help => false
  | _ => true

def Kind.accepts (kind : Kind) (value : String) : Bool :=
  match kind with
  | .path => !value.isEmpty
  | .count => (Text.readSize value.toList).isOk
  | .oneOf names => names.contains value
  | _ => true

structure Parameter where
  long : String
  short? : Option Char
  kind : Kind

inductive Halt where
  | misuse
  | version
  | help

/-- The options given so far, the newest first; a flag has an empty value. -/
abbrev Given := List (String × String)

def take (parameter : Parameter) (value : String) (given : Given) : Except Halt Given :=
  match parameter.kind with
  | .version => .error .version
  | .help => .error .help
  | kind =>
    if (given.lookup parameter.long).isSome || !kind.accepts value then .error .misuse
    else .ok ((parameter.long, value) :: given)

inductive Word where
  | plain (text : String)
  | escape
  | long (name : String) (value? : Option String)
  | short (letters : List Char)

def Word.ofString (word : String) : Word :=
  match word.toList with
  | ['-', '-'] => .escape
  | '-' :: '-' :: rest =>
    let name := rest.takeWhile (· ≠ '=')
    match rest.dropWhile (· ≠ '=') with
    | _ :: value => .long (String.ofList name) (some (String.ofList value))
    | [] => .long (String.ofList name) none
  | '-' :: letter :: letters => .short (letter :: letters)
  | _ => .plain word

/-- What the letters of a word come to: all of them were flags, or the last one is an option that
waits for its value. -/
inductive Letters where
  | done (given : Given)
  | waiting (parameter : Parameter) (given : Given)

/-- Reads the letters of a word. What stands behind a letter that takes a value is the value. -/
def readLetters (parameters : List Parameter) (given : Given) : List Char → Except Halt Letters
  | [] => .ok (.done given)
  | letter :: rest =>
    match parameters.find? (·.short? = some letter) with
    | none => .error .misuse
    | some parameter =>
      if parameter.kind.takesValue then
        match rest with
        | [] => .ok (.waiting parameter given)
        | '=' :: value => (take parameter (String.ofList value) given).map .done
        | value => (take parameter (String.ofList value) given).map .done
      else do readLetters parameters (← take parameter "" given) rest

/-- What may be written at one place of a command line: options, and plain words, of which there is
one. Where no plain word is expected, the first one is the name of a command. -/
structure Level where
  options : List Parameter
  plain? : Option Parameter

/-- Takes up words that are plain whatever they look like. -/
def readPlain (plain : Parameter) (given : Given) : List String → Except Halt Given
  | [] => .ok given
  | word :: rest => do readPlain plain (← take plain word given) rest

/-- Reads words. The name of a command ends the reading; it is left with all words behind it.
`waiting?` is an option that waits for its value. -/
def readWords (level : Level) (waiting? : Option Parameter) (given : Given) :
    List String → Except Halt (Given × List String)
  | [] => if waiting?.isSome then .error .misuse else .ok (given, [])
  | word :: rest =>
    match waiting?, Word.ofString word with
    | some option, .plain value => do
      readWords level none (← take option value given) rest
    | some _, _ => .error .misuse
    | none, .plain value =>
      match level.plain? with
      | none => .ok (given, word :: rest)
      | some plain => do readWords level none (← take plain value given) rest
    | none, .escape =>
      match level.plain? with
      | none => .error .misuse
      | some plain => (readPlain plain given rest).map fun given => (given, [])
    | none, .long name value? =>
      match level.options.find? (·.long = name), value? with
      | none, _ => .error .misuse
      | some option, some value =>
        if option.kind.takesValue then do readWords level none (← take option value given) rest
        else .error .misuse
      | some option, none =>
        if option.kind.takesValue then readWords level (some option) given rest
        else do readWords level none (← take option "" given) rest
    | none, .short letters =>
      match readLetters level.options given letters with
      | .error halt => .error halt
      | .ok (.done given) => readWords level none given rest
      | .ok (.waiting option given) => readWords level (some option) given rest

/-! ## The commands -/

/-- Options that may stand before and behind the name of a command. -/
def sharedOptions : List Parameter :=
  [⟨"config", some 'c', .path⟩, ⟨"verbose", some 'v', .flag⟩, ⟨"help", some 'h', .help⟩]

def outerLevel : Level :=
  ⟨⟨"version", some 'V', .version⟩ :: sharedOptions, none⟩

def settingOptions : List Parameter :=
  [⟨"format", none, .oneOf ["json", "msgpack"]⟩,
    ⟨"framing", none, .oneOf ["bare", "content-length"]⟩,
    ⟨"high-water-mark", none, .count⟩,
    ⟨"timeout-ms", none, .count⟩,
    ⟨"no-initialized", none, .flag⟩]

def methodWord : String := "METHOD"

def callLevel : Level :=
  ⟨[⟨"params", some 'p', .text⟩, ⟨"open", none, .path⟩, ⟨"language-id", none, .text⟩]
      ++ settingOptions ++ sharedOptions,
    some ⟨methodWord, none, .text⟩⟩

def scriptWord : String := "SCRIPT"

def replayLevel : Level :=
  ⟨settingOptions ++ sharedOptions, some ⟨scriptWord, none, .path⟩⟩

structure CallArguments where
  method : String
  params? : Option String
  open? : Option String
  languageId : String

inductive Command where
  | call (arguments : CallArguments)
  | replay (script : String)

structure Arguments where
  config? : Option String
  overrides : Overrides
  command : Command

def overridesOf (given : Given) : Overrides where
  format? := (given.lookup "format").map fun name =>
    if name = "json" then .json else .messagePack
  framing? := (given.lookup "framing").map fun name =>
    if name = "bare" then .bare else .contentLength
  highWaterMark? := (given.lookup "high-water-mark").bind fun count =>
    (Text.readSize count.toList).toOption
  timeoutMs? := (given.lookup "timeout-ms").bind fun count =>
    (Text.readSize count.toList).toOption
  noInitialized := (given.lookup "no-initialized").isSome

/-- The command that the options and the plain word behind its name make. -/
def commandOf (name : String) (given : Given) : Option Command :=
  match name with
  | "call" => (given.lookup methodWord).map fun method =>
    .call {
      method
      params? := given.lookup "params"
      open? := given.lookup "open"
      languageId := (given.lookup "language-id").getD "plaintext" }
  | "replay" => (given.lookup scriptWord).map .replay
  | _ => none

def levelOf : String → Except Halt Level
  | "call" => .ok callLevel
  | "replay" => .ok replayLevel
  | _ => .error .misuse

/-- What may stand behind `help`: nothing, or the name of a command. -/
def readHelp : List String → Halt
  | [] | ["call"] | ["replay"] | ["help"] => .help
  | _ => .misuse

def parse (words : List String) : Except Halt Arguments := do
  let (outer, rest) ← readWords outerLevel none [] words
  match rest with
  | [] => throw .misuse
  | "help" :: rest => throw (readHelp rest)
  | name :: rest =>
    let (given, _) ← readWords (← levelOf name) none [] rest
    match commandOf name given with
    | none => throw .misuse
    | some command =>
      return {
        config? := (given.lookup "config").or (outer.lookup "config")
        overrides := overridesOf given
        command }

end Airlock.Cli
