import Airlock.Codec.Header
import Airlock.Rpc.Error
import Airlock.Json.Printer
import Airlock.Json.Reader
import Airlock.MessagePack.Reader
import Airlock.MessagePack.Writer

/-!
# Codecs

A codec turns one message into one unit and back. The payload is JSON or MessagePack; the unit is
the payload itself, or a header and the payload. Writing always succeeds. Reading judges the size
first, then the header, then the payload, then the shape of the value.
-/

set_option autoImplicit false

namespace Airlock

inductive Format where
  | json
  | messagePack
  deriving DecidableEq, Repr

inductive Framing where
  | bare
  | contentLength
  deriving DecidableEq, Repr

def Format.name : Format → String
  | .json => "json"
  | .messagePack => "message-pack"

def Format.variants : Json.Variants Format where
  names := [("json", .json), ("message-pack", .messagePack), ("msgpack", .messagePack)]
  expected := "one of `json`, `message-pack`, `msgpack`"

def Framing.name : Framing → String
  | .bare => "bare"
  | .contentLength => "content-length"

def Framing.variants : Json.Variants Framing where
  names := [("bare", .bare), ("content-length", .contentLength)]
  expected := "`bare` or `content-length`"

structure Codec where
  format : Format
  framing : Framing
  deriving DecidableEq, Repr

namespace Codec

def default : Codec := ⟨.json, .bare⟩

def maxUnitLength : Nat := 16777216

def writePayload (format : Format) (value : Value) : Bytes :=
  match format with
  | .json => Json.encode value
  | .messagePack => MessagePack.encode value

def readPayload (format : Format) (payload : Bytes) : Except DecodeError Value :=
  match format with
  | .json => (Json.parse payload).mapError .payload
  | .messagePack =>
    match MessagePack.decode? payload with
    | some value => .ok value
    | none => .error (.payload "not a MessagePack value")

def frame (framing : Framing) (payload : Bytes) : Bytes :=
  match framing with
  | .bare => payload
  | .contentLength => Header.attach payload

def unframe (framing : Framing) (unit : Bytes) : Except DecodeError Bytes :=
  match framing with
  | .bare => .ok unit
  | .contentLength => (Header.strip unit).mapError fun fault => .framing fault.message

def encode (codec : Codec) (message : Message) : Bytes :=
  frame codec.framing (writePayload codec.format message.toValue)

def checkLength (unit : Bytes) : Except DecodeError Unit :=
  if unit.isEmpty then .error (.framing "empty unit")
  else if maxUnitLength < unit.length then
    .error (.framing ("unit of " ++ toString unit.length ++ " bytes exceeds the "
      ++ toString maxUnitLength ++ " byte limit"))
  else .ok ()

def readMessage (value : Value) : Except DecodeError Message :=
  (Message.ofValue value).mapError fun fault => .shape fault.message

def decode (codec : Codec) (unit : Bytes) : Except DecodeError Message := do
  checkLength unit
  let payload ← unframe codec.framing unit
  let value ← readPayload codec.format payload
  readMessage value

/-- The unit of one codec as the unit of another that carries the same message. -/
def transcode (source target : Codec) (unit : Bytes) : Except DecodeError Bytes :=
  (source.decode unit).map target.encode

end Codec

end Airlock
