/-!
# Names of methods

The methods that clients and cores of the language server protocol know by name.
-/

set_option autoImplicit false

namespace Airlock.Methods

def handshake : String := "initialize"

def handshakeDone : String := "initialized"

def shutdown : String := "shutdown"

def exit : String := "exit"

def didOpen : String := "textDocument/didOpen"

def didChange : String := "textDocument/didChange"

def documentSymbol : String := "textDocument/documentSymbol"

def documentHighlight : String := "textDocument/documentHighlight"

def hover : String := "textDocument/hover"

def semanticTokensFull : String := "textDocument/semanticTokens/full"

end Airlock.Methods
