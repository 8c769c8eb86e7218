import Graft.Main
import Graft.Regex.Cache
import Graft.Json.Reader
import Graft.Proofs.Edit.Links
import Graft.Proofs.Print.Closing
import Graft.Proofs.Print.Reading
import Graft.Proofs.Print.Leaves
import Graft.Proofs.Source.Gives
import Graft.Proofs.Source.Parts
import Graft.Proofs.Edit.Fitting
import Graft.Proofs.Edit.Misplaced
import Graft.Proofs.Edit.Atomic
import Graft.Proofs.Patch.Session
import Graft.Proofs.Manifest.Valid
import Graft.Proofs.Mods.Identifiers
import Graft.Proofs.Command.Writing
import Graft.Proofs.Edit.Lasting
import Graft.Proofs.Edit.Visiting
import Graft.Proofs.Edit.Chains
import Graft.Proofs.Source.Readback
import Graft.Proofs.Source.Weave.Programs
import Graft.Proofs.Edit.Inserting
import Graft.Proofs.Edit.Wrapping
import Graft.Proofs.Edit.Overwriting
import Graft.Proofs.Print.Initializers
import Graft.Proofs.Print.Starts
import Graft.Proofs.Print.Targets
import Graft.Proofs.Print.Kept
import Graft.Proofs.Print.Alternates
import Graft.Proofs.Query.View
import Graft.Proofs.Text.Occurrences
import Graft.Proofs.Source.Radix
import Graft.Proofs.Query.NumberKeys
import Graft.Proofs.Regex.References
import Graft.Proofs.Version.Header
import Graft.Proofs.Query.Keys
import Graft.Proofs.Regex.Caching
import Graft.Proofs.Files.Refusals
import Graft.Proofs.Source.Elements
