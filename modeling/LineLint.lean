import LineLint.Main
import LineLint.Rules.Occurrence
import LineLint.Proofs.Patterns
import LineLint.Proofs.CallSites
import LineLint.Proofs.Offsets
import LineLint.Proofs.Words
import LineLint.Proofs.BuiltIn
import LineLint.Proofs.IndentWidths
import LineLint.Proofs.CompactOutput
import LineLint.Proofs.PrintedLines
import LineLint.Proofs.TextReport
import LineLint.Proofs.Schedule
import LineLint.Proofs.ReportOrder
import LineLint.Proofs.Selection
import LineLint.Proofs.FileReport
import LineLint.Proofs.Layout
import LineLint.Proofs.Decoding
import LineLint.Proofs.Checking
import LineLint.Proofs.RuleFilters
import LineLint.Proofs.ExitStatus
import LineLint.Proofs.Overrides
import LineLint.Proofs.Locality
import LineLint.Proofs.Registration
import LineLint.Proofs.JsonText
import LineLint.Proofs.JsonReport
import LineLint.Proofs.FindingLayouts
import LineLint.Proofs.Paths
import LineLint.Proofs.Scan
import LineLint.Proofs.Figures
import LineLint.Proofs.Severities
import LineLint.Proofs.Sections
import LineLint.Proofs.SilentRules
import LineLint.Proofs.PathOrder
import LineLint.Proofs.ScanOrder
import LineLint.Proofs.ScanFilters
import LineLint.Proofs.BuildOutput
import LineLint.Proofs.Listings
import LineLint.Proofs.Walks
import LineLint.Proofs.DiscoveryOrder
import LineLint.Proofs.Faults
import LineLint.Proofs.IndentUnits
import LineLint.Proofs.Following
import LineLint.Proofs.Renaming
import LineLint.Proofs.DirectChecks
import LineLint.Proofs.Ways
import LineLint.Proofs.RealPaths
import LineLint.Proofs.Spellings
import LineLint.Proofs.FileNames
import LineLint.Proofs.Writing
import LineLint.Proofs.NearestSettings
import LineLint.Proofs.Creations
import LineLint.Proofs.StarterSettings
import LineLint.Proofs.Additions
import LineLint.Proofs.FreshSettings
