import TrapHandler.EventCommands
import TrapHandler.RuleInForce
import TrapHandler.ThresholdLevels
import TrapHandler.FieldStores
import TrapHandler.ObjectIdentifiers
import TrapHandler.LengthChecks
import TrapHandler.AddressText
import TrapHandler.DiskMetricNumbers
import TrapHandler.GenericCommand
import TrapHandler.ModelConfiguration
import TrapHandler.MalformedRows
import TrapHandler.ThresholdCopies
import TrapHandler.StatusFlags
import TrapHandler.CaseInsensitive
import TrapHandler.VersionFormats
import TrapHandler.OidCache
import TrapHandler.OctetTexts
import TrapHandler.CommandBuffers
import TrapHandler.TextReplacement
import TrapHandler.OidBuilder
import TrapHandler.FileSystemKeys
import TrapHandler.QueueReclaim
import TrapHandler.CommandRefinement
import TrapHandler.TraceLines
import TrapHandler.TrapPipeline
import TrapHandler.AgentMessages
import TrapHandler.CorrelatorRuns
import TrapHandler.GlobalConf
import TrapHandler.ModelLifetimes
import TrapHandler.ServiceControl
