import Airlock.Document.Word
import Airlock.Text.Alphanumeric
import Airlock.Methods
import Airlock.Handlers

/-!
# The document core

A core that keeps the texts of opened documents and answers questions about the words in them. A
change carries the whole new text, and of several changes the last one counts. Params that do not
read in full change nothing.
-/

set_option autoImplicit false

namespace Airlock.Document

open Json

/-- The version that the core and the command line report. -/
def version : String := "0.1.0"

/-- Texts by the names of their documents, each name once. -/
structure Store where
  texts : List (String × String) := []

namespace Store

def get? (store : Store) (uri : String) : Option String :=
  store.texts.lookup uri

def put (store : Store) (uri text : String) : Store :=
  ⟨(uri, text) :: store.texts.filter (·.1 ≠ uri)⟩

end Store

/-! ## Shapes of params -/

/-- Who the client says it is. -/
structure ClientInfo where
  name : String

def ClientInfo.decoder : Decoder ClientInfo :=
  (Fields.map ClientInfo.mk (.required "name" Decoder.string)).read "ClientInfo"

def initializeDecoder : Decoder (Option ClientInfo) :=
  (Fields.optional "clientInfo" (Decoder.option ClientInfo.decoder) none).read "Initialize"

structure TextItem where
  uri : String
  text : String

def TextItem.decoder : Decoder TextItem :=
  (Fields.both (.required "uri" Decoder.string) (.required "text" Decoder.string) TextItem.mk).read
    "TextDocumentItem"

def openDecoder : Decoder TextItem :=
  (Fields.required "textDocument" TextItem.decoder).read "DidOpen"

def documentDecoder : Decoder String :=
  (Fields.required "uri" Decoder.string).read "DocumentId"

def changeDecoder : Decoder String :=
  (Fields.required "text" Decoder.string).read "ContentChange"

def changesDecoder : Decoder (String × List String) :=
  (Fields.both (.required "textDocument" documentDecoder)
    (.required "contentChanges" (Decoder.list changeDecoder)) Prod.mk).read "DidChange"

def positionDecoder : Decoder Position :=
  (Fields.both (.required "line" Decoder.size) (.required "character" Decoder.size)
    fun line character => ⟨line.toNat, character.toNat⟩).read "Position"

def questionDecoder : Decoder (String × Position) :=
  (Fields.both (.required "textDocument" documentDecoder) (.required "position" positionDecoder)
    Prod.mk).read "PositionParams"

/-! ## Answers -/

def positionValue (line character : Nat) : Value :=
  .ofMembers [("line", .ofNat line), ("character", .ofNat character)]

def rangeValue (line start stop : Nat) : Value :=
  .ofMembers [("start", positionValue line start), ("end", positionValue line stop)]

def capabilities : Value :=
  .ofMembers [
    ("textDocumentSync", .ofNat 1),
    ("hoverProvider", .bool true),
    ("documentHighlightProvider", .bool true),
    ("documentSymbolProvider", .bool true),
    ("semanticTokensProvider", .ofMembers [
      ("legend", .ofMembers [("tokenTypes", .array []), ("tokenModifiers", .array [])]),
      ("full", .bool true)])]

def introduction : Value :=
  .ofMembers [
    ("capabilities", capabilities),
    ("serverInfo", .ofMembers [("name", .string "sandlink-echo"), ("version", .string version)])]

def notOpen (uri : String) : ResponseError :=
  (ResponseError.invalidParams ("document not open: " ++ uri)).withData
    (.ofMembers [("uri", .string uri)])

/-- The answer to hovering: the word and its range, or null between words. -/
def hoverAnswer (text : String) (position : Position) : Value :=
  match touchedWord Text.isAlphanumeric text.toList position with
  | none => .null
  | some word =>
    .ofMembers [
      ("contents", .ofMembers [
        ("kind", .string "plaintext"), ("value", .string (String.ofList word.text))]),
      ("range", rangeValue position.line word.start word.stop)]

def highlightValue (span : Span) : Value :=
  .ofMembers [("range", rangeValue span.line span.start span.stop), ("kind", .ofNat 1)]

/-- The answer to highlighting: every place where the word at the position stands alone. -/
def highlightAnswer (text : String) (position : Position) : Value :=
  match touchedWord Text.isAlphanumeric text.toList position with
  | none => .array []
  | some word => .array ((places Text.isAlphanumeric text.toList word.text).map highlightValue)

/-- Answers a question about a position in an open document. -/
def question (answer : String → Position → Value) : Handler Store :=
  Handler.typed questionDecoder fun (uri, position) store =>
    match store.get? uri with
    | some text => (.ok (answer text position), store)
    | none => (.error (notOpen uri), store)

def handlers : Handlers Store :=
  Handlers.empty
    |>.insert Methods.handshake (Handler.typed initializeDecoder fun _ store =>
      (.ok introduction, store))
    |>.insert Methods.shutdown (Handler.typed (Decoder.unit "Shutdown") fun _ store =>
      (.ok .null, store))
    |>.insert Methods.didOpen (Handler.typed openDecoder fun item store =>
      (.ok .null, store.put item.uri item.text))
    |>.insert Methods.didChange (Handler.typed changesDecoder fun (uri, changes) store =>
      match changes.getLast? with
      | some text => (.ok .null, store.put uri text)
      | none => (.ok .null, store))
    |>.insert Methods.hover (question hoverAnswer)
    |>.insert Methods.documentHighlight (question highlightAnswer)
    |>.insert Methods.documentSymbol (fun _ store => (.ok (.array []), store))
    |>.insert Methods.semanticTokensFull (fun _ store =>
      (.ok (.ofMembers [("data", .array [])]), store))

end Airlock.Document
