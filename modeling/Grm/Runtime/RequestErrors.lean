import Grm.Runtime.Recovery

/-!
# Requests that return an error

A request the session refuses touches neither the memory nor the files. One the session
executes has changed the memory before it is persisted, and nothing takes the change back
when an append or the periodic checkpoint fails.
-/

open Std

set_option autoImplicit false

namespace SessionState
variable [Externals]

end SessionState

namespace Workspace
variable [Codecs]

end Workspace
