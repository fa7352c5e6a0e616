/-!
# Registrations
-/

namespace LuaHost

/-- What a script says about itself when it registers. -/
structure Registration where
  name : String
  author : String
  version : String
  license : String
  description : String
  /-- The function called just before the script is unloaded; empty for none. -/
  shutdown : String
  charset : String
  deriving DecidableEq

end LuaHost
