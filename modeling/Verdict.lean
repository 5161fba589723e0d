import Verdict.Main
import Verdict.Proofs.ProgramAgreement
import Verdict.Proofs.Provenance
import Verdict.Proofs.Replacement
import Verdict.Proofs.SoftMode
import Verdict.Proofs.AuthorizationGuards
import Verdict.Proofs.Repair
import Verdict.Proofs.ModesAgree
import Verdict.Proofs.TrueReasons
import Verdict.Proofs.NonemptyReasons
import Verdict.Proofs.TrueExplanations
import Verdict.Proofs.Replay
import Verdict.Proofs.CreditLineDecision
import Verdict.Proofs.DeclaredResult
import Verdict.Proofs.Updates
import Verdict.Proofs.DayCount
import Verdict.Proofs.AuthorizationOrder
import Verdict.Proofs.ProgramIdentity
import Verdict.Proofs.UnknownFaults
import Verdict.Proofs.ChannelProbe
import Verdict.Proofs.MoreFacts
import Verdict.Proofs.CreditLineOrder
import Verdict.Proofs.ProposalCheck
import Verdict.Proofs.ProgramClosed
import Verdict.Proofs.ReportParts
import Verdict.Proofs.UnreadMembers
import Verdict.Proofs.RequestShapes
import Verdict.Proofs.CommandArguments
import Verdict.Proofs.CommandStreams
import Verdict.Proofs.ExactReading
import Verdict.Proofs.Numerals
import Verdict.Proofs.NumberText
import Verdict.Proofs.ShortestDigits
import Verdict.Proofs.WrittenNumbers
import Verdict.Proofs.Restatement
import Verdict.Proofs.DocumentPlaces
import Verdict.Proofs.WrittenDigits
import Verdict.Proofs.NegationNormalForm
import Verdict.Proofs.GroupedDecimals
import Verdict.Proofs.DisputeRouting
