import Phrasebook.Args
import Phrasebook.Config.Basic
import Phrasebook.Config.File
import Phrasebook.Config.Reading
import Phrasebook.Config.Validation
import Phrasebook.Decimal.Numeral
import Phrasebook.Decimal.Positional
import Phrasebook.Decimal.Shortest
import Phrasebook.Distinct
import Phrasebook.Document.Reading
import Phrasebook.Document.View
import Phrasebook.Entries
import Phrasebook.Event
import Phrasebook.Files.Location
import Phrasebook.Files.Path
import Phrasebook.Files.Tree
import Phrasebook.Fluent.Engine
import Phrasebook.Fluent.Pattern
import Phrasebook.Fluent.Reader
import Phrasebook.Fluent.Resolution
import Phrasebook.Fluent.Value
import Phrasebook.Json.Reader
import Phrasebook.Json.Reading
import Phrasebook.Json.Value
import Phrasebook.Key
import Phrasebook.LanguageTag
import Phrasebook.Localizer.Basic
import Phrasebook.Localizer.Inspect
import Phrasebook.Localizer.Setup
import Phrasebook.Logging.Directive
import Phrasebook.Logging.Line
import Phrasebook.Logging.Output
import Phrasebook.Markup.Render
import Phrasebook.Markup.Token
import Phrasebook.Name
import Phrasebook.Navigation
import Phrasebook.Plural.Cardinal
import Phrasebook.Plural.Rule
import Phrasebook.Problem
import Phrasebook.Proofs.Reference.Chain
import Phrasebook.Proofs.Reference.Occurrence
import Phrasebook.Proofs.Reference.Splice
import Phrasebook.Proofs.Reference.Standing
import Phrasebook.Proofs.Reference.Tree
import Phrasebook.Reference.Expansion
import Phrasebook.Reference.Marker
import Phrasebook.Reference.Target
import Phrasebook.Resource.Basic
import Phrasebook.Store.Basic
import Phrasebook.Store.Delivery
import Phrasebook.Store.Directory
import Phrasebook.Store.Loader
import Phrasebook.Store.Selection
import Phrasebook.Store.Waiting
import Phrasebook.Template.Engine
import Phrasebook.Template.Placeholder
import Phrasebook.Text.Blank
import Phrasebook.Text.Hidden
import Phrasebook.Text.Pieces
import Phrasebook.Text.Quoted
import Phrasebook.Toml.Moment
import Phrasebook.Toml.Reader
import Phrasebook.Toml.Reading
import Phrasebook.Toml.Text
import Phrasebook.Toml.Value
import Phrasebook.Yaml.Cursor
import Phrasebook.Yaml.Document
import Phrasebook.Yaml.Node
import Phrasebook.Yaml.Plain
import Phrasebook.Yaml.Reading
import Phrasebook.Yaml.Scalar
import Phrasebook.Yaml.Token
import Phrasebook.Proofs.Store.Step
import Phrasebook.Proofs.Store.Run
import Phrasebook.Proofs.Store.Ledger
import Phrasebook.Proofs.Localizer.Session
import Phrasebook.Proofs.Localizer.Transparency
import Phrasebook.Proofs.Reference.Lasting
import Phrasebook.Proofs.Store.Settlement
import Phrasebook.Proofs.Store.Change
import Phrasebook.Proofs.Store.Course
import Phrasebook.Proofs.Store.Removal
import Phrasebook.Proofs.Store.Freshness
import Phrasebook.Proofs.Store.WaitingRoom
import Phrasebook.Proofs.Store.Barrier
import Phrasebook.Proofs.Store.Once
import Phrasebook.Proofs.Localizer.Rereading
import Phrasebook.Proofs.Reference.Cycle
import Phrasebook.Proofs.Localizer.Addressing
import Phrasebook.Proofs.Resource.Flattening
import Phrasebook.Proofs.Reference.Layout
import Phrasebook.Proofs.Store.Roster
import Phrasebook.Proofs.Store.Subscription
import Phrasebook.Proofs.Reference.Visits
import Phrasebook.Proofs.Localizer.Trace
import Phrasebook.Proofs.Markup.Grammar
import Phrasebook.Proofs.Markup.Matching
import Phrasebook.Proofs.Markup.Calls
import Phrasebook.Proofs.Markup.Rendering
import Phrasebook.Proofs.Markup.Printing
import Phrasebook.Proofs.Reference.Label
import Phrasebook.Proofs.Reference.Place
import Phrasebook.Proofs.Reference.Cutting
import Phrasebook.Proofs.Markup.Spelling
import Phrasebook.Proofs.Template.Substitution
import Phrasebook.Proofs.Navigation.Interning
import Phrasebook.Proofs.Localizer.Handles
import Phrasebook.Proofs.Config.Breach
import Phrasebook.Proofs.Localizer.Configured
import Phrasebook.Proofs.Reference.Naming
import Phrasebook.Proofs.Fluent.Lines
import Phrasebook.Proofs.Fluent.Texts
import Phrasebook.Proofs.Fluent.Keeping
import Phrasebook.Proofs.Files.Place
import Phrasebook.Proofs.Files.Containment
import Phrasebook.Proofs.Resource.Dotted
import Phrasebook.Proofs.Localizer.Missing
import Phrasebook.Proofs.Distinct
import Phrasebook.Proofs.Offset.Slice
import Phrasebook.Proofs.Offset.Loop
import Phrasebook.Proofs.Offset.Marker
import Phrasebook.Proofs.Offset.Expansion
import Phrasebook.Proofs.Offset.Markup
import Phrasebook.Proofs.Offset.Placeholder
import Phrasebook.Proofs.Offset.Scanning
