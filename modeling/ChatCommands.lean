import ChatCommands.Blueprint
import ChatCommands.Bundled.Echo
import ChatCommands.Bundled.Schedule
import ChatCommands.Calendar.Date
import ChatCommands.Calendar.DateTime
import ChatCommands.Calendar.Iso8601
import ChatCommands.Catalogue
import ChatCommands.Command
import ChatCommands.CommandLine.Arguments
import ChatCommands.CommandLine.Run
import ChatCommands.CommandLine.Shell
import ChatCommands.Console
import ChatCommands.Decimal.Shortest
import ChatCommands.Document
import ChatCommands.Event
import ChatCommands.Failure
import ChatCommands.FileTree
import ChatCommands.Host
import ChatCommands.Json
import ChatCommands.Location
import ChatCommands.Log
import ChatCommands.Main
import ChatCommands.OrderedMap
import ChatCommands.Parameter
import ChatCommands.Proofs.IsoRoundTrip
import ChatCommands.Proofs.OrderedMaps
import ChatCommands.Proofs.Occurrences
import ChatCommands.Proofs.RegistryCalls
import ChatCommands.Proofs.Registering
import ChatCommands.Proofs.RegistryIsolation
import ChatCommands.Proofs.Running
import ChatCommands.Proofs.ScheduleLanguage
import ChatCommands.Proofs.ScheduleRoundTrip
import ChatCommands.Proofs.Segmentation
import ChatCommands.Proofs.StoreContent
import ChatCommands.Proofs.StoreParts
import ChatCommands.Proofs.Views
import ChatCommands.Proofs.Words
import ChatCommands.Registry
import ChatCommands.Router
import ChatCommands.Samples
import ChatCommands.Schema
import ChatCommands.Segment
import ChatCommands.Session.Perform
import ChatCommands.Session.State
import ChatCommands.Session.Step
import ChatCommands.Settings
import ChatCommands.Settings.File
import ChatCommands.Startup
import ChatCommands.Store.Memory
import ChatCommands.Store.Table
import ChatCommands.Text.Blank
import ChatCommands.Text.Digits
import ChatCommands.Text.Printable
import ChatCommands.Text.Quoted
import ChatCommands.Text.Search
import ChatCommands.Text.Utf8
import ChatCommands.Value
import ChatCommands.Value.Order
import ChatCommands.Violation
import ChatCommands.Workbench
import ChatCommands.Yaml.Base64
import ChatCommands.Yaml.Characters
import ChatCommands.Yaml.Cursor
import ChatCommands.Yaml.Decode
import ChatCommands.Yaml.Fault
import ChatCommands.Yaml.Implicit
import ChatCommands.Yaml.Meaning
import ChatCommands.Yaml.Moment
import ChatCommands.Yaml.Node
import ChatCommands.Yaml.Number
import ChatCommands.Yaml.Scalar.Block
import ChatCommands.Yaml.Scalar.Plain
import ChatCommands.Yaml.Scalar.Quoted
import ChatCommands.Yaml.Tag
import ChatCommands.Yaml.Token
import ChatCommands.Yaml.Token.Lexer
import ChatCommands.Proofs.StoreEquivalence
import ChatCommands.Proofs.FirstAdded
import ChatCommands.Proofs.PublishingRace
import ChatCommands.Proofs.CommandWork
import ChatCommands.Proofs.Routing
import ChatCommands.Proofs.CallHistory
import ChatCommands.Proofs.ParseThenRun
import ChatCommands.Proofs.SegmentRoundTrip
import ChatCommands.Proofs.Ownership
import ChatCommands.Proofs.OwnedWrites
import ChatCommands.Proofs.LeftOpen
import ChatCommands.Proofs.Conversation
import ChatCommands.Proofs.DefaultCommands
import ChatCommands.Proofs.SettingsFaults
import ChatCommands.Proofs.ImportPaths
import ChatCommands.Proofs.Registrations
import ChatCommands.Proofs.HelpTopics
import ChatCommands.Proofs.DeclarationOrder
import ChatCommands.Proofs.Additions
import ChatCommands.Proofs.SegmentOrder
import ChatCommands.Proofs.WindowOrder
import ChatCommands.Proofs.StoredMoments
import ChatCommands.Proofs.JsonDocuments
import ChatCommands.Proofs.CheckedRecords
import ChatCommands.Proofs.SettingsSchema
import ChatCommands.Proofs.MentionOfHelp
import ChatCommands.Proofs.RepeatedParameters
