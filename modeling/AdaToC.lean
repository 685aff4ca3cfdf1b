import AdaToC.Main
import AdaToC.Run
import AdaToC.Proofs.Ada.Accounting
import AdaToC.Proofs.Ada.LetterCase
import AdaToC.Proofs.Ada.Parameters
import AdaToC.Proofs.Artifacts
import AdaToC.Proofs.C.Guard
import AdaToC.Proofs.C.Meaning
import AdaToC.Proofs.Diagnostic
import AdaToC.Proofs.Manifest.Defaults
import AdaToC.Proofs.Pool
import AdaToC.Proofs.Reference
import AdaToC.Proofs.Run.Effects
import AdaToC.Proofs.Run.Include
import AdaToC.Proofs.Run.Inputs
import AdaToC.Proofs.Run.Reporting
import AdaToC.Proofs.Run.Sources
import AdaToC.Proofs.Run.WorkDirectory
import AdaToC.Proofs.Settings
import AdaToC.Proofs.Source.Walk
import AdaToC.Proofs.Validity
