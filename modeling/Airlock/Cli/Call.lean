import Airlock.Cli.Arguments
import Airlock.Cli.Conversation

/-!
# The call command

Introduces the client, opens a document if there is one, sends one request and shows its result. The
handshake can be the request itself; its params are then those of the handshake, unless they are
null. Otherwise the client introduces itself with the number of its process.
-/

set_option autoImplicit false

namespace Airlock.Cli

/-- The params of a handshake that nobody gave params for. -/
def introduction (process : UInt32) : Value :=
  .ofMembers [
    ("processId", .ofNat process.toNat),
    ("clientInfo", .ofMembers [
      ("name", .string "sandlink"), ("version", .string Document.version)]),
    ("capabilities", .object [])]

structure OpenedDocument where
  uri : String
  languageId : String
  text : String

def handshakeParams (process : UInt32) (method : String) (params : Value) : Value :=
  if method = Methods.handshake && !params.isNull then params else introduction process

def callTalk (process : UInt32) (method : String) (params : Value)
    (document? : Option OpenedDocument) : Talk Value := do
  let handshake ← Talk.request (.handshake (handshakeParams process method params))
  match document? with
  | some document =>
    Talk.notify (.didOpen document.uri document.languageId 1 document.text)
  | none => pure ()
  let pending? ←
    if method = Methods.handshake then pure none
    else do pure (some (← Talk.request ⟨method, params⟩))
  let capabilities ← Talk.within "initialize failed" (Talk.await handshake)
  let result ← match pending? with
    | some pending => Talk.within (method ++ " failed") (Talk.await pending)
    | none => pure capabilities
  Talk.within "shutdown failed" Talk.shutdown
  return result

def callParams (params? : Option String) : Except Failure Value :=
  match params? with
  | none => .ok .null
  | some text =>
    inContext "--params is not valid JSON" .badJson (Json.parse (Text.Utf8.ofString text))

def callDocument (files : Files) (arguments : CallArguments) :
    Except Failure (Option OpenedDocument) :=
  match arguments.open? with
  | none => .ok none
  | some path => do
    let text ← inContext ("failed to read " ++ path) .file (files.readText path)
    return some ⟨"file://" ++ path, arguments.languageId, text⟩

def call (process : UInt32) (files : Files) (config : Config) (arguments : CallArguments) :
    Except Break String := do
  let params ← (callParams arguments.params?).mapError .failed
  let document? ← (callDocument files arguments).mapError .failed
  let result ← Talk.converse config (callTalk process arguments.method params document?)
  return Json.indented result ++ "\n"

end Airlock.Cli
