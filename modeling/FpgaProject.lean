import FpgaProject.Main
import FpgaProject.Proofs.Config.Serialization
import FpgaProject.Proofs.Project.History
import FpgaProject.Proofs.Project.Reach
import FpgaProject.Proofs.Registry.Libraries
import FpgaProject.Proofs.Registry.Roots
import FpgaProject.Proofs.Script.Building
import FpgaProject.Proofs.Script.Recovery
import FpgaProject.Proofs.Project.Refusal
import FpgaProject.Proofs.Config.Root
import FpgaProject.Proofs.Registry.Spelling
import FpgaProject.Proofs.Script.Scoping
import FpgaProject.Proofs.Config.Decoding
import FpgaProject.Proofs.Config.Generation
import FpgaProject.Proofs.Registry.EntityConstraints
import FpgaProject.Proofs.Script.Bindings
import FpgaProject.Proofs.Config.Problems
import FpgaProject.Proofs.Text.Lowering
import FpgaProject.Proofs.Registry.Duplicates
import FpgaProject.Proofs.Module.Benches
import FpgaProject.Proofs.CommandLine.Building
