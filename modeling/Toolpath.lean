import Toolpath.Load.Direct
import Toolpath.Load.Watch
import Toolpath.Machine.Operation
import Toolpath.Main
import Toolpath.Proofs.Answers
import Toolpath.Proofs.AxisIndependence
import Toolpath.Proofs.AxisSpellings
import Toolpath.Proofs.BoundingBox
import Toolpath.Proofs.ByteAccounts
import Toolpath.Proofs.Cancelling
import Toolpath.Proofs.CaseBlindness
import Toolpath.Proofs.CommentTags
import Toolpath.Proofs.Completion
import Toolpath.Proofs.Connection
import Toolpath.Proofs.Consistency
import Toolpath.Proofs.Decoding
import Toolpath.Proofs.DirectLoads
import Toolpath.Proofs.Directives
import Toolpath.Proofs.EmitModes
import Toolpath.Proofs.Encoding
import Toolpath.Proofs.FiniteNumbers
import Toolpath.Proofs.InertRecords
import Toolpath.Proofs.JsonLines
import Toolpath.Proofs.LayerNumbers
import Toolpath.Proofs.LineEnds
import Toolpath.Proofs.LoadModes
import Toolpath.Proofs.MistypedTags
import Toolpath.Proofs.ModalSettings
import Toolpath.Proofs.Numbering
import Toolpath.Proofs.ReaderItems
import Toolpath.Proofs.ReadingBack
import Toolpath.Proofs.Reloads
import Toolpath.Proofs.Renaming
import Toolpath.Proofs.Reruns
import Toolpath.Proofs.Session
import Toolpath.Proofs.TextLines
