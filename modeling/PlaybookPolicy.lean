import PlaybookPolicy.Json.Parser
import PlaybookPolicy.Program
import PlaybookPolicy.Main
import PlaybookPolicy.Proofs.LintSoundness
import PlaybookPolicy.Proofs.LoadedFile
import PlaybookPolicy.Proofs.MailRecipients
import PlaybookPolicy.Proofs.NumberText
import PlaybookPolicy.Proofs.OutcomeOrder
import PlaybookPolicy.Proofs.PathOrder
import PlaybookPolicy.Proofs.ResolvedRules
import PlaybookPolicy.Proofs.StableSort
import PlaybookPolicy.Proofs.TaskFlattening
import PlaybookPolicy.Proofs.Trimming
import PlaybookPolicy.Proofs.WrittenYaml
import PlaybookPolicy.Proofs.DecodedText
import PlaybookPolicy.Proofs.JsonRoundTrip
import PlaybookPolicy.Proofs.RecordStream
import PlaybookPolicy.Proofs.ExitCode
import PlaybookPolicy.Proofs.JoinedPath
import PlaybookPolicy.Proofs.TreePlaces
import PlaybookPolicy.Proofs.FoundFiles
import PlaybookPolicy.Proofs.MovedFile
import PlaybookPolicy.Proofs.RootSpelling
import PlaybookPolicy.Proofs.RecordTally
import PlaybookPolicy.Proofs.FreeFormWords
import PlaybookPolicy.Proofs.MapEntries
import PlaybookPolicy.Proofs.RuleIndependence
import PlaybookPolicy.Proofs.MappingOrder
import PlaybookPolicy.Proofs.TaskSpelling
import PlaybookPolicy.Proofs.ClaimedLines
import PlaybookPolicy.Proofs.CommandAgreement
import PlaybookPolicy.Proofs.ReportLines
import PlaybookPolicy.Proofs.PatternMatching
import PlaybookPolicy.Proofs.FilePath
import PlaybookPolicy.Proofs.SelectedFiles
import PlaybookPolicy.Proofs.NewFile
import PlaybookPolicy.Proofs.FreshConfig
import PlaybookPolicy.Proofs.OctetOrder
import PlaybookPolicy.Proofs.ListOptions
import PlaybookPolicy.Proofs.SoundConfig
import PlaybookPolicy.Proofs.ConfiguredRules
import PlaybookPolicy.Proofs.TaskReading
import PlaybookPolicy.Proofs.DeclaredNames
import PlaybookPolicy.Proofs.OwnLines
import PlaybookPolicy.Proofs.PlayReading
import PlaybookPolicy.Proofs.AddressGrammar
import PlaybookPolicy.Proofs.AllowedLists
import PlaybookPolicy.Proofs.PlayLines
import PlaybookPolicy.Proofs.TomlTables
import PlaybookPolicy.Proofs.OptionTables
import PlaybookPolicy.Proofs.RuleTables
import PlaybookPolicy.Proofs.KeyOrder
import PlaybookPolicy.Proofs.WrittenArguments
import PlaybookPolicy.Proofs.RootSets
import PlaybookPolicy.Proofs.RepeatedInit
import PlaybookPolicy.Proofs.RegistrationOrder
import PlaybookPolicy.Proofs.ColorControls
import PlaybookPolicy.Proofs.SingleRecipient
import PlaybookPolicy.Proofs.WordPartition
import PlaybookPolicy.Proofs.LeftoverWords
import PlaybookPolicy.Proofs.LineNumbers
import PlaybookPolicy.Proofs.BuiltTrees
import PlaybookPolicy.Proofs.NamedOptions
