import GoSpy.Main
import GoSpy.Disk.Simulated
import GoSpy.Run.Rehearsal
import GoSpy.Proofs.Artifact.Resolution
import GoSpy.Proofs.Run.Overwriting
import GoSpy.Proofs.Grammar.RoundTrip
import GoSpy.Proofs.Artifact.Generated
import GoSpy.Proofs.Grammar.IndexedTokens
import GoSpy.Proofs.Grammar.ParsedFiles
import GoSpy.Proofs.Grammar.ArrayLengths
import GoSpy.Proofs.Grammar.GenericSpecs
import GoSpy.Proofs.Token.LineNumbers
import GoSpy.Proofs.Artifact.PackageMentions
import GoSpy.Proofs.Artifact.Printers
import GoSpy.Proofs.Artifact.Capture
import GoSpy.Proofs.Artifact.FileScope
import GoSpy.Proofs.Artifact.LockType
import GoSpy.Proofs.Run.Rerunning
import GoSpy.Proofs.Run.Reentry
import GoSpy.Proofs.Spy.Parameters
import GoSpy.Proofs.Spy.Agreement
import GoSpy.Proofs.Spy.ParsedContracts
import GoSpy.Proofs.Spy.Emission
import GoSpy.Proofs.Spy.Introduced
import GoSpy.Proofs.Store.Grouping
import GoSpy.Proofs.Run.Command
import GoSpy.Proofs.Syntax.Visits
import GoSpy.Proofs.Grammar.PassedOver
import GoSpy.Proofs.Store.Marks
import GoSpy.Proofs.Store.Directories
import GoSpy.Proofs.Spy.Locking
import GoSpy.Proofs.Artifact.Columns
import GoSpy.Proofs.Spy.Searching
