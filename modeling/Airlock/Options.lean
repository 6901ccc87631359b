import Airlock.Codec.Basic

/-!
# Configuration of a session

Options are free; a configuration is options that were found sound, and carries the proofs. Of
several unsound options the high-water mark counts first, then the event capacity, then the timeout.
-/

set_option autoImplicit false

namespace Airlock

/-- What a session can be told, with what holds when nothing is said. -/
structure Options where
  format : Format := .json
  framing : Framing := .bare
  highWaterMark : Nat := 16
  eventCapacity : Nat := 64
  sendsInitialized : Bool := true
  timeout? : Option Duration := none
  deriving DecidableEq, Repr

structure Config extends Options where
  highWaterMark_pos : 0 < highWaterMark
  eventCapacity_pos : 0 < eventCapacity
  timeout_ne_zero : timeout? ≠ some ⟨0⟩

namespace Config

inductive Fault where
  | noHighWaterMark
  | noEventCapacity
  | zeroTimeout
  deriving DecidableEq, Repr

def Fault.message : Fault → String
  | .noHighWaterMark => "high water mark must be at least 1"
  | .noEventCapacity => "event capacity must be at least 1"
  | .zeroTimeout => "request timeout must be non-zero"

def ofOptions (options : Options) : Except Fault Config :=
  if highWaterMark : 0 < options.highWaterMark then
    if eventCapacity : 0 < options.eventCapacity then
      if timeout : options.timeout? ≠ some ⟨0⟩ then
        .ok ⟨options, highWaterMark, eventCapacity, timeout⟩
      else .error .zeroTimeout
    else .error .noEventCapacity
  else .error .noHighWaterMark

def Fault.toError (fault : Fault) : Error :=
  .config fault.message

def codec (config : Config) : Codec :=
  ⟨config.format, config.framing⟩

def default : Config :=
  ⟨{}, by decide, by decide, by decide⟩

end Config

end Airlock
