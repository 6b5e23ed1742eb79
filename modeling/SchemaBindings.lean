import SchemaBindings.Main
import SchemaBindings.Proofs.Keyed
import SchemaBindings.Proofs.Json.Reordered
import SchemaBindings.Proofs.Schema.Success
import SchemaBindings.Proofs.Schema.Grammar
import SchemaBindings.Proofs.Schema.RefChains
import SchemaBindings.Proofs.Schema.Acceptance
import SchemaBindings.Proofs.Schema.WellFormed
import SchemaBindings.Proofs.Schema.FaultPlaces
import SchemaBindings.Proofs.Schema.MapMetadata
import SchemaBindings.Proofs.Schema.KeyOrder
import SchemaBindings.Proofs.Catalog.Links
import SchemaBindings.Proofs.Naming.Claims
import SchemaBindings.Proofs.Naming.Distinct
import SchemaBindings.Proofs.Binding.Cycles
import SchemaBindings.Proofs.Naming.Capital
import SchemaBindings.Proofs.Naming.Legal
import SchemaBindings.Proofs.Binding.Drafts
import SchemaBindings.Proofs.Binding.ByValue
import SchemaBindings.Proofs.Binding.RustItems
import SchemaBindings.Proofs.Binding.GoTypes
import SchemaBindings.Proofs.Binding.FiniteSize
import SchemaBindings.Proofs.Binding.GoNames
import SchemaBindings.Proofs.Catalog.Places
import SchemaBindings.Proofs.Catalog.Described
import SchemaBindings.Proofs.Catalog.Growth
import SchemaBindings.Proofs.Catalog.Consistent
import SchemaBindings.Proofs.Catalog.PreOrder
import SchemaBindings.Proofs.Catalog.NullAcceptance
import SchemaBindings.Proofs.Catalog.ReadBack
import SchemaBindings.Proofs.Catalog.MapMetadata
import SchemaBindings.Proofs.Binding.MapMetadata
import SchemaBindings.Proofs.Binding.KeyOrder
import SchemaBindings.Proofs.Binding.OtherMetadata
import SchemaBindings.Proofs.Catalog.Pointers
import SchemaBindings.Proofs.Binding.UnsupportedPlaces
import SchemaBindings.Proofs.Catalog.Ownership
import SchemaBindings.Proofs.Binding.Emitted
import SchemaBindings.Proofs.Text.Lines
import SchemaBindings.Proofs.Text.Literals
import SchemaBindings.Proofs.Binding.Spelling
import SchemaBindings.Proofs.Binding.DocComments
import SchemaBindings.Proofs.Binding.Printable
import SchemaBindings.Proofs.Binding.JavaLines
import SchemaBindings.Proofs.Binding.RustLines
import SchemaBindings.Proofs.Binding.GoLines
import SchemaBindings.Proofs.Binding.TypeScriptLines
import SchemaBindings.Proofs.Binding.Undescribed
import SchemaBindings.Proofs.Binding.Readers
import SchemaBindings.Proofs.Binding.JavaReading
import SchemaBindings.Proofs.Binding.RustReading
import SchemaBindings.Proofs.Binding.GoReading
import SchemaBindings.Proofs.Binding.TypeScriptReading
import SchemaBindings.Proofs.Binding.Unhinted
import SchemaBindings.Proofs.Binding.Telling
import SchemaBindings.Proofs.Binding.Recalling
import SchemaBindings.Proofs.Binding.WireNames
import SchemaBindings.Proofs.Binding.Roster
import SchemaBindings.Proofs.Binding.Renderable
import SchemaBindings.Proofs.Output.Places
import SchemaBindings.Proofs.Binding.FileNames
import SchemaBindings.Proofs.Output.Rollback
import SchemaBindings.Proofs.Output.Home
import SchemaBindings.Proofs.Output.AtHome
import SchemaBindings.Proofs.Schema.Writing
import SchemaBindings.Proofs.Catalog.Enclosing
import SchemaBindings.Proofs.Binding.Overrides
import SchemaBindings.Proofs.Binding.MalformedHints
import SchemaBindings.Proofs.Output.Isolation
import SchemaBindings.Proofs.Output.Repetition
import SchemaBindings.Proofs.Output.Lasting
import SchemaBindings.Proofs.Command.Requests
import SchemaBindings.Proofs.Command.Summaries
import SchemaBindings.Proofs.Command.ExitCode
import SchemaBindings.Proofs.Binding.CommentBounds
import SchemaBindings.Proofs.Text.UnicodeEscapes
import SchemaBindings.Proofs.Unicode.Letter
import SchemaBindings.Proofs.Binding.Javadoc
import SchemaBindings.Proofs.Binding.GoTags
import SchemaBindings.Proofs.Text.SourceLiterals
import SchemaBindings.Proofs.Binding.MemberFields
import SchemaBindings.Proofs.Binding.RustOptions
import SchemaBindings.Proofs.Binding.GoAbsence
import SchemaBindings.Proofs.Naming.TypePrefix
import SchemaBindings.Proofs.Text.CarriageReturns
import SchemaBindings.Proofs.Binding.RustComments
import SchemaBindings.Proofs.TypeScript.Lists
import SchemaBindings.Proofs.Binding.GoImports
import SchemaBindings.Proofs.Binding.JavaFiles
import SchemaBindings.Proofs.Binding.JavaAccessors
import SchemaBindings.Proofs.Text.Fitting
import SchemaBindings.Proofs.Naming.Freshness
import SchemaBindings.Proofs.Naming.Rejoined
import SchemaBindings.Proofs.Naming.Separators
import SchemaBindings.Proofs.Binding.RustDerives
import SchemaBindings.Proofs.Binding.Indirection
import SchemaBindings.Proofs.Binding.InheritedMarks
import SchemaBindings.Proofs.Schema.RefCycles
import SchemaBindings.Proofs.Json.Decoding
