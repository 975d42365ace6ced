import DesiredState.Object.Kind

/-!
# Served kinds

A kind as a server serves it: its objects are found in paths under a plural name.
-/

namespace DesiredState

structure ServedKind where
  gvk : GroupVersionKind
  plural : String
  deriving DecidableEq

end DesiredState
