/-!
# Bytes
-/

set_option autoImplicit false

namespace Airlock

/-- The bytes of a unit, a payload or a file. -/
abbrev Bytes := List UInt8

end Airlock
