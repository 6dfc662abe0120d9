import MainLocator.Code.Body
import MainLocator.Program.Platform
import MainLocator.Program.Symbol

/-!
# Procedures
-/

namespace MainLocator

/-- A procedure as analysed for one platform, with what is known of it so far. -/
structure Procedure where
  start : Word
  platform : Platform
  symbol : Option Symbol
  convention : Option CallingConvention
  /-- Absent until the code is lifted. -/
  body : Option Body

end MainLocator
