import Nsl.ApprovalReadBack
import Nsl.ApprovalResume
import Nsl.ApprovedWrites
import Nsl.Base.Base64Url
import Nsl.BoundsSound
import Nsl.Canonical
import Nsl.Composition
import Nsl.ControlledChain
import Nsl.EngineReturns
import Nsl.JsonBoundary
import Nsl.LanguageHeader
import Nsl.McpAdapter
import Nsl.MoneySums
import Nsl.NspSignatures
import Nsl.ParserDepth
import Nsl.ParserSections
import Nsl.ParserStrings
import Nsl.Printing
import Nsl.ReplayCalls
import Nsl.ReplayRuns
import Nsl.ResumeClaims
import Nsl.Verification
import Nsl.Worker
import Nsl.WriteReplay
import Nsl.AuditFile
import Nsl.AuditLog
