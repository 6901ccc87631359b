import Airlock.Duration
import Airlock.Rpc.Message

/-!
# What can go wrong while messages cross the boundary
-/

set_option autoImplicit false

namespace Airlock

/-- Why a unit is no message: its framing, the text of its payload, or the shape of its value. -/
inductive DecodeError where
  | framing (reason : String)
  | payload (reason : String)
  | shape (reason : String)
  deriving DecidableEq

def DecodeError.message : DecodeError → String
  | .framing reason => "bad framing: " ++ reason
  | .payload reason => "malformed payload: " ++ reason
  | .shape reason => "unrecognized message shape: " ++ reason

/-- The error of a call on a session, a client or a channel. -/
inductive Error where
  | closed
  | aborted (reason : String)
  | alreadyStarted
  | notInitialized
  | invalidState (what : String)
  | timeout (id : Id) (after : Duration)
  | peer (error : ResponseError)
  | decode (error : DecodeError)
  | encode (reason : String)
  | config (reason : String)

namespace Error

def message : Error → String
  | .closed => "session closed"
  | .aborted reason => "channel aborted: " ++ reason
  | .alreadyStarted => "already started"
  | .notInitialized => "session not initialized"
  | .invalidState what => "invalid state: " ++ what
  | .timeout id after => "request " ++ id.display ++ " timed out after " ++ after.text
  | .peer error => "peer error: " ++ error.display
  | .decode error => "decode error: " ++ error.message
  | .encode reason => "encode error: " ++ reason
  | .config reason => "configuration error: " ++ reason

def isTerminal : Error → Bool
  | .closed | .aborted _ => true
  | _ => false

end Error

end Airlock
