import Linework.Main
import Linework.Memory
import Linework.Proofs.Interchange
import Linework.Proofs.Memory.Editing
import Linework.Script
import Linework.Proofs.Memory.ReadBack
import Linework.Proofs.Memory.WorkingDir
import Linework.Proofs.Memory.Shape
import Linework.Proofs.Edit.Block
import Linework.Proofs.Composition
import Linework.Proofs.Disk.Reaches
import Linework.Proofs.Line.Uniform
import Linework.Proofs.Disk.Carries
import Linework.Proofs.Disk.Change
import Linework.Proofs.Disk.Writing
import Linework.Proofs.Disk.ReadBack
import Linework.Proofs.Disk.Failing
import Linework.Proofs.Disk.Grounded
import Linework.Proofs.Disk.WorkingDir
import Linework.Proofs.Endings
import Linework.Proofs.Command.Status
import Linework.Proofs.Block.Nesting
import Linework.Proofs.Memory.Scope
import Linework.Proofs.Memory.Independence
import Linework.Proofs.Edit.Append
import Linework.Proofs.Memory.Appending
import Linework.Proofs.Course
import Linework.Proofs.Edit.Exhaust
import Linework.Proofs.Edit.Undo
import Linework.Proofs.Edit.Class
import Linework.Proofs.Path.Normal
import Linework.Proofs.Expansion
import Linework.Proofs.Edit.Strict
import Linework.Proofs.Block.Markers
import Linework.Proofs.Path.Joining
import Linework.Proofs.Line.Factor
import Linework.Proofs.Memory.Parents
import Linework.Proofs.Line.Expanded
import Linework.Proofs.Edit.Indented
