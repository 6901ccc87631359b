import Airlock.Methods
import Airlock.Rpc.Message

/-!
# Calls

A call is a method with its params. The calls about documents have the shapes that cores of the
language server protocol expect; a change carries the whole new text.
-/

set_option autoImplicit false

namespace Airlock

structure Call where
  method : String
  params : Value

namespace Call

def documentMember (uri : String) : String × Value :=
  ("textDocument", .ofMembers [("uri", .string uri)])

def onDocument (method uri : String) : Call :=
  ⟨method, .ofMembers [documentMember uri]⟩

def onPosition (method uri : String) (line character : UInt32) : Call :=
  ⟨method, .ofMembers [
    documentMember uri,
    ("position", .ofMembers [
      ("line", .ofNat line.toNat), ("character", .ofNat character.toNat)])]⟩

def handshake (params : Value) : Call :=
  ⟨Methods.handshake, params⟩

def handshakeDone : Call :=
  ⟨Methods.handshakeDone, .object []⟩

def shutdown : Call :=
  ⟨Methods.shutdown, .null⟩

def exit : Call :=
  ⟨Methods.exit, .null⟩

def versionValue (version : Int32) : Value :=
  .number (.integer (.ofInt64 version.toInt64))

def didOpen (uri languageId : String) (version : Int32) (text : String) : Call :=
  ⟨Methods.didOpen, .ofMembers [
    ("textDocument", .ofMembers [
      ("uri", .string uri),
      ("languageId", .string languageId),
      ("version", versionValue version),
      ("text", .string text)])]⟩

def didChange (uri : String) (version : Int32) (text : String) : Call :=
  ⟨Methods.didChange, .ofMembers [
    ("textDocument", .ofMembers [("uri", .string uri), ("version", versionValue version)]),
    ("contentChanges", .array [.ofMembers [("text", .string text)]])]⟩

def documentSymbols (uri : String) : Call :=
  onDocument Methods.documentSymbol uri

def semanticTokens (uri : String) : Call :=
  onDocument Methods.semanticTokensFull uri

def hover (uri : String) (line character : UInt32) : Call :=
  onPosition Methods.hover uri line character

def documentHighlight (uri : String) (line character : UInt32) : Call :=
  onPosition Methods.documentHighlight uri line character

def toRequest (call : Call) (id : Id) : Message :=
  .request id call.method call.params

def toNotification (call : Call) : Message :=
  .notification call.method call.params

end Call

end Airlock
