import ComponentPack.Main
import ComponentPack.Proofs.Code.Reference
import ComponentPack.Proofs.Code.Comments
import ComponentPack.Proofs.Render.WholeNames
import ComponentPack.Proofs.Render.Splitting
import ComponentPack.Proofs.Render.PublicNames
import ComponentPack.Proofs.Localization.Algebra
import ComponentPack.Proofs.Build.Schedule
import ComponentPack.Proofs.Build.Acceptance
import ComponentPack.Proofs.Build.Agreement
import ComponentPack.Proofs.Module.Literals
import ComponentPack.Proofs.Module.Indentation
import ComponentPack.Proofs.Component.DefaultExport
import ComponentPack.Proofs.Compiler.Matching
import ComponentPack.Proofs.Component.Slices
import ComponentPack.Proofs.Localization.Collecting
import ComponentPack.Proofs.Build.Tally
import ComponentPack.Proofs.Localization.Faithful
import ComponentPack.Proofs.Localization.Order
import ComponentPack.Proofs.Component.Offsets
import ComponentPack.Proofs.Code.RegexLines
import ComponentPack.Proofs.Command.Starting
import ComponentPack.Proofs.Files.Atomic
