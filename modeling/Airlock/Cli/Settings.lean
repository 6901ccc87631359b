import Airlock.Options
import Airlock.Toml.Document

/-!
# Settings from a file and from the command line

What the command line says holds over what the file says, and that over the defaults. A name in the
file that the command line overrides is not even looked at. The command line can only switch the
initialized notification off.
-/

set_option autoImplicit false

namespace Airlock.Cli

structure Settings where
  format? : Option String := none
  framing? : Option String := none
  highWaterMark? : Option Nat := none
  timeoutMs? : Option Nat := none
  sendsInitialized? : Option Bool := none
  eventCapacity? : Option Nat := none
  deriving DecidableEq, Repr

namespace Settings

open Toml in
/-- The items of a section by the names of its fields. A list gives them in their order; a date or
time counts as a section that says nothing. -/
def sectionItems (fields : List String) : Option Item → Option (String → Option Item)
  | none | some .moment => some fun _ => none
  | some (.table entries) => some fun name => entries.lookup name.toList
  | some (.array items) => some fun name => (fields.zip items).lookup name
  | some _ => none

def stringOf : Option Toml.Item → Option (Option String)
  | none => some none
  | some (.string s) => some (some (String.ofList s))
  | some _ => none

def sizeOf : Option Toml.Item → Option (Option Nat)
  | none => some none
  | some (.integer n) => if 0 ≤ n then some (some n.toNat) else none
  | some _ => none

def flagOf : Option Toml.Item → Option (Option Bool)
  | none => some none
  | some (.bool b) => some (some b)
  | some _ => none

/-- The settings that a document spells; nothing when one of them has the wrong type. Unknown names
are ignored. -/
def ofDocument (entries : List (List Char × Toml.Item)) : Option Settings := do
  let transport ← sectionItems ["format", "framing", "high_water_mark"]
    (entries.lookup "transport".toList)
  let client ← sectionItems ["request_timeout_ms", "send_initialized", "event_capacity"]
    (entries.lookup "client".toList)
  return {
    format? := ← stringOf (transport "format")
    framing? := ← stringOf (transport "framing")
    highWaterMark? := ← sizeOf (transport "high_water_mark")
    timeoutMs? := ← sizeOf (client "request_timeout_ms")
    sendsInitialized? := ← flagOf (client "send_initialized")
    eventCapacity? := ← sizeOf (client "event_capacity") }

def parse? (text : List Char) : Option Settings :=
  (Toml.parse? text).bind ofDocument

end Settings

structure Overrides where
  format? : Option Format := none
  framing? : Option Framing := none
  highWaterMark? : Option Nat := none
  timeoutMs? : Option Nat := none
  noInitialized : Bool := false
  deriving DecidableEq, Repr

inductive SettingsFault where
  | unknownFormat (name : String)
  | unknownFraming (name : String)
  | unsound (fault : Config.Fault)
  deriving DecidableEq, Repr

def SettingsFault.chain : SettingsFault → List String
  | .unknownFormat name => ["invalid format in config: " ++ name]
  | .unknownFraming name => ["invalid framing in config: " ++ name]
  | .unsound fault => ["invalid session configuration", fault.toError.message]

def formatOfName (name : String) : Except SettingsFault Format :=
  match Format.variants.names.lookup name with
  | some format => .ok format
  | none => .error (.unknownFormat name)

def framingOfName (name : String) : Except SettingsFault Framing :=
  match Framing.variants.names.lookup name with
  | some framing => .ok framing
  | none => .error (.unknownFraming name)

/-- What the command line says, else what the name in the file means, else the default. -/
def choose {α : Type} (override? : Option α) (name? : Option String) (default : α)
    (read : String → Except SettingsFault α) : Except SettingsFault α :=
  match override?, name? with
  | some chosen, _ => .ok chosen
  | none, some name => read name
  | none, none => .ok default

/-- The configuration that a settings file and the command line make together. -/
def Settings.merge (settings : Settings) (overrides : Overrides) : Except SettingsFault Config := do
  let defaults : Options := {}
  let format ← choose overrides.format? settings.format? defaults.format formatOfName
  let framing ← choose overrides.framing? settings.framing? defaults.framing framingOfName
  let timeoutMs? := overrides.timeoutMs?.or settings.timeoutMs?
  let options : Options := {
    format, framing
    highWaterMark :=
      (overrides.highWaterMark?.or settings.highWaterMark?).getD defaults.highWaterMark
    eventCapacity := settings.eventCapacity?.getD defaults.eventCapacity
    sendsInitialized := !overrides.noInitialized && settings.sendsInitialized?.getD true
    timeout? := timeoutMs?.map Duration.ofMilliseconds }
  (Config.ofOptions options).mapError .unsound

end Airlock.Cli
