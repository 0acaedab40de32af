import Folio.Files.FileSystem
import Folio.Main
import Folio.Context.Store
import Folio.Proofs.Expansion
import Folio.Proofs.Plain
import Folio.Proofs.Simulation
import Folio.Proofs.Scoping
import Folio.Proofs.Persistence
import Folio.Proofs.Validation
import Folio.Proofs.Yields
import Folio.Proofs.NormalForm
import Folio.Proofs.RunningText
import Folio.Proofs.Joining
import Folio.Proofs.Pruning
import Folio.Proofs.Building
import Folio.Proofs.Strictness
import Folio.Proofs.Nesting
import Folio.Proofs.Templates
import Folio.Proofs.Closure
import Folio.Proofs.Accounts
import Folio.Proofs.FileSystems
import Folio.Proofs.Disks
import Folio.Proofs.FileOutput
import Folio.Proofs.FontChecks
import Folio.Proofs.Lookups
import Folio.Proofs.Assembly
import Folio.Proofs.Reading
import Folio.Proofs.JsonReader
import Folio.Proofs.Doubles
import Folio.Proofs.TextRuns
import Folio.Proofs.LoneNumbers
import Folio.Proofs.Delivery
import Folio.Proofs.Machines
import Folio.Proofs.AllOrNothing
import Folio.Proofs.Depth
import Folio.Proofs.Splicing
import Folio.Proofs.Serialized
import Folio.Proofs.Rounding
import Folio.Proofs.Shortest
import Folio.Proofs.Numerals
import Folio.Proofs.FloatTexts
import Folio.Proofs.JsonText
import Folio.Proofs.Forms
import Folio.Proofs.Parts
import Folio.Proofs.StaticTrees
import Folio.Proofs.Equality
import Folio.Proofs.SignedZeros
import Folio.Proofs.PartialOutput
import Folio.Proofs.FailingWriters
