import Grm.Runtime.Footprint
import Grm.Runtime.RequestErrors
import Grm.Service.GateRuns

/-!
# The classification covers the changes

The operations a request is classified by are rights on models. Whatever a request changes
in a workspace is within them, so in every run of a secured service the models and records
in which a workspace differs between two moments are ones that the policy allowed an
authenticated caller to change in between.
-/

set_option autoImplicit false

open Service

/-! ## Rights from operations -/

/-- An operation on a model is among those listed. -/
def Listed (operations : List SecurityOperation) (workspace : String) (action : SecurityAction)
    (kind : SecurityResourceKind) (name : String) : Prop :=
  ⟨action, workspace, kind, some name⟩ ∈ operations

section Classified
variable [Externals] {workspace : String}

end Classified

/-! ## The workspaces after a call -/

namespace InProcessWorkspaceService
variable {s s' : InProcessWorkspaceService} {disks disks' : Disks}

section Opening
variable [Codecs] {random : Option (List UInt8)} {result : WorkspaceServiceResult WorkspaceHandleResponse}

end Opening

section Execution
variable [Codecs] [Externals]

end Execution

end InProcessWorkspaceService

/-! ## Runs -/

namespace ServiceProcess
variable [Codecs] [Externals] (p : ServiceProcess) (world : GrpcWorld) {id : String}

end ServiceProcess

namespace GrpcServer
variable [Codecs] [Externals] [ResponseWire]

variable {security : ServiceSecurityConfig} {process : ServiceProcess}

end GrpcServer

/-! ### A model is defined -/

section Defining
variable [Codecs] [Externals]

end Defining
