import EngineBench.Main
import EngineBench.Settings.Json
import EngineBench.Command.Json
import EngineBench.Json.Reader
import EngineBench.Proofs.Journal
import EngineBench.Proofs.Projection
import EngineBench.Proofs.Waiting
import EngineBench.Proofs.Teardown
import EngineBench.Proofs.GuardLife
import EngineBench.Proofs.HealthGate
import EngineBench.Proofs.Client
import EngineBench.Proofs.Run
import EngineBench.Proofs.Summary
import EngineBench.Proofs.RunTeardown
import EngineBench.Proofs.Interruption
import EngineBench.Proofs.RunSummary
import EngineBench.Proofs.Spawns
import EngineBench.Proofs.LastAttempt
import EngineBench.Proofs.CommandLines
import EngineBench.Proofs.Literals
import EngineBench.Proofs.OptionGrammar
import EngineBench.Proofs.Resolution
import EngineBench.Proofs.Digits
import EngineBench.Proofs.JsonText
import EngineBench.Proofs.ShortestDecimals
import EngineBench.Proofs.JsonNumbers
import EngineBench.Proofs.JsonRecords
import EngineBench.Proofs.ReportText
import EngineBench.Proofs.ConfigurationText
import EngineBench.Proofs.LoadedSettings
import EngineBench.Proofs.RunReport
import EngineBench.Proofs.StopDeadline
import EngineBench.Proofs.PlainNumbers
import EngineBench.Proofs.CommandOptions
import EngineBench.Proofs.PathArguments
import EngineBench.Proofs.SideEffects
import EngineBench.Proofs.ReportedSignal
import EngineBench.Proofs.GateSessions
import EngineBench.Proofs.TomlHeaders
import EngineBench.Proofs.DefaultSettings
import EngineBench.Proofs.EngineGroup
import EngineBench.Proofs.ClientReaped
import EngineBench.Proofs.ClientVerdict
import EngineBench.Proofs.NearestMagnitude
import EngineBench.Proofs.DurationText
import EngineBench.Proofs.ExactDurations
import EngineBench.Proofs.MissingOptions
import EngineBench.Proofs.OptionRefusals
import EngineBench.Proofs.FirstFatalToken
import EngineBench.Proofs.ConfigurationCheck
import EngineBench.Proofs.FlagLookup
import EngineBench.Proofs.Overlays
import EngineBench.Proofs.SearchPath
import EngineBench.Proofs.SettingsText
import EngineBench.Proofs.NearestSettings
import EngineBench.Proofs.ReportFiles
import EngineBench.Proofs.SlicedWaits
