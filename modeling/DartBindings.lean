import DartBindings.Binding
import DartBindings.Bridge.Entity
import DartBindings.Bridge.Merge
import DartBindings.CommandLine.Execution
import DartBindings.CommandLine.Options
import DartBindings.CommandLine.Usage
import DartBindings.Dart.Library
import DartBindings.Dart.Proxy
import DartBindings.Dart.TypeMapping
import DartBindings.Declaration.Dialect
import DartBindings.Declaration.Extraction
import DartBindings.Declaration.Header
import DartBindings.Declaration.Parameters
import DartBindings.Declaration.Signature
import DartBindings.Declaration.SourceTree
import DartBindings.Files.Listing
import DartBindings.Files.Path
import DartBindings.Files.Tree
import DartBindings.Generator
import DartBindings.Main
import DartBindings.Markup.ContentModel
import DartBindings.Markup.Definition
import DartBindings.Markup.Document
import DartBindings.Markup.Element
import DartBindings.Markup.Encoding
import DartBindings.Markup.EntitySize
import DartBindings.Markup.Heading
import DartBindings.Markup.NameChar
import DartBindings.Markup.Piece
import DartBindings.Markup.Reference
import DartBindings.Markup.Symbol
import DartBindings.Markup.Tag
import DartBindings.Markup.TypeDeclaration
import DartBindings.Proofs.Bridge.Associativity
import DartBindings.Proofs.Bridge.Bridgeable
import DartBindings.Proofs.Bridge.Merge
import DartBindings.Proofs.Bridge.Reports
import DartBindings.Proofs.Bridge.Succession
import DartBindings.Proofs.CommandLine.Execution
import DartBindings.Proofs.CommandLine.Options
import DartBindings.Proofs.CommandLine.Task
import DartBindings.Proofs.Dart.Fragments
import DartBindings.Proofs.Dart.KeptTypes
import DartBindings.Proofs.Dart.Literals
import DartBindings.Proofs.Dart.Mappings
import DartBindings.Proofs.Dart.Nullability
import DartBindings.Proofs.Dart.Outline
import DartBindings.Proofs.Dart.ParameterNames
import DartBindings.Proofs.Dart.RawCode
import DartBindings.Proofs.Dart.Structure
import DartBindings.Proofs.Dart.Targets
import DartBindings.Proofs.Declaration.Attribution
import DartBindings.Proofs.Declaration.Bodies
import DartBindings.Proofs.Declaration.Canonical
import DartBindings.Proofs.Declaration.Commented
import DartBindings.Proofs.Declaration.Confinement
import DartBindings.Proofs.Declaration.Course
import DartBindings.Proofs.Declaration.FrontWalk
import DartBindings.Proofs.Declaration.GenericDefaults
import DartBindings.Proofs.Declaration.GenericMembers
import DartBindings.Proofs.Declaration.Invariant
import DartBindings.Proofs.Declaration.LabelledParameters
import DartBindings.Proofs.Declaration.Lines
import DartBindings.Proofs.Declaration.Lockstep
import DartBindings.Proofs.Declaration.Loose
import DartBindings.Proofs.Declaration.Members
import DartBindings.Proofs.Declaration.Names
import DartBindings.Proofs.Declaration.Overloads
import DartBindings.Proofs.Declaration.Passage
import DartBindings.Proofs.Declaration.PrintedParameters
import DartBindings.Proofs.Declaration.QuotedMember
import DartBindings.Proofs.Declaration.QuotedNames
import DartBindings.Proofs.Declaration.Reaches
import DartBindings.Proofs.Declaration.Readable
import DartBindings.Proofs.Declaration.Respaced
import DartBindings.Proofs.Declaration.RespacedParameters
import DartBindings.Proofs.Declaration.RoundTrip
import DartBindings.Proofs.Declaration.Rounds
import DartBindings.Proofs.Declaration.Seam
import DartBindings.Proofs.Declaration.SeamSignature
import DartBindings.Proofs.Declaration.SeamWalk
import DartBindings.Proofs.Declaration.SignatureText
import DartBindings.Proofs.Declaration.SourceTree
import DartBindings.Proofs.Declaration.SpacedType
import DartBindings.Proofs.Declaration.Spelling
import DartBindings.Proofs.Declaration.SpreadType
import DartBindings.Proofs.Declaration.Suffix
import DartBindings.Proofs.Declaration.TypeLevel
import DartBindings.Proofs.Declaration.TypeParameters
import DartBindings.Proofs.Declaration.Walk
import DartBindings.Proofs.Files.Listing
import DartBindings.Proofs.Files.Path
import DartBindings.Proofs.Files.Tree
import DartBindings.Proofs.Generator.Outcome
import DartBindings.Proofs.Generator.Printing
import DartBindings.Proofs.Lookup
import DartBindings.Proofs.Markup.Document
import DartBindings.Proofs.Markup.Grammar
import DartBindings.Proofs.Markup.Heading
import DartBindings.Proofs.Markup.Pieces
import DartBindings.Proofs.Markup.Reading
import DartBindings.Proofs.Markup.Reference
import DartBindings.Proofs.Markup.Tag
import DartBindings.Proofs.Markup.Writing
import DartBindings.Proofs.Removal
import DartBindings.Proofs.Removal.Laws
import DartBindings.Proofs.Results
import DartBindings.Proofs.Session.History
import DartBindings.Proofs.Settings.Reading
import DartBindings.Proofs.Settings.RoundTrip
import DartBindings.Proofs.Settings.Usable
import DartBindings.Proofs.Source.Bare
import DartBindings.Proofs.Source.BeforeBrace
import DartBindings.Proofs.Source.ClosedLiteral
import DartBindings.Proofs.Source.Closing
import DartBindings.Proofs.Source.ClosingToken
import DartBindings.Proofs.Source.Code
import DartBindings.Proofs.Source.Comment
import DartBindings.Proofs.Source.Coverage
import DartBindings.Proofs.Source.Crossing
import DartBindings.Proofs.Source.CutOffsets
import DartBindings.Proofs.Source.Cuts
import DartBindings.Proofs.Source.Front
import DartBindings.Proofs.Source.Gap
import DartBindings.Proofs.Source.Groups
import DartBindings.Proofs.Source.Interlude
import DartBindings.Proofs.Source.Joined
import DartBindings.Proofs.Source.Listed
import DartBindings.Proofs.Source.Literal
import DartBindings.Proofs.Source.Locality
import DartBindings.Proofs.Source.Nested
import DartBindings.Proofs.Source.Passage
import DartBindings.Proofs.Source.Pieces
import DartBindings.Proofs.Source.RawLiteral
import DartBindings.Proofs.Source.Scans
import DartBindings.Proofs.Source.Sealed
import DartBindings.Proofs.Source.Stretch
import DartBindings.Proofs.Source.StrippedTokens
import DartBindings.Proofs.Source.Token
import DartBindings.Proofs.Source.TokenWindow
import DartBindings.Proofs.Source.Trivia
import DartBindings.Proofs.Source.TypeText
import DartBindings.Proofs.Text.Classes
import DartBindings.Proofs.Text.Raw
import DartBindings.Proofs.Text.Strip
import DartBindings.Proofs.Text.Utf8
import DartBindings.Regex.Branches
import DartBindings.Regex.CharSet
import DartBindings.Regex.CharacterNames
import DartBindings.Regex.Escape
import DartBindings.Regex.Flaw
import DartBindings.Regex.Groups
import DartBindings.Regex.Matching
import DartBindings.Regex.Membership
import DartBindings.Regex.Reader
import DartBindings.Regex.Sign
import DartBindings.Regex.Syntax
import DartBindings.Removal
import DartBindings.Session
import DartBindings.Settings
import DartBindings.Source.Closing
import DartBindings.Source.Pieces
import DartBindings.Source.Token
import DartBindings.Source.Trivia
import DartBindings.Source.TypeText
import DartBindings.Text.Alnum
import DartBindings.Text.Casing
import DartBindings.Text.Character
import DartBindings.Text.Charset
import DartBindings.Text.CodePage
import DartBindings.Text.Identifier
import DartBindings.Text.Printable
import DartBindings.Text.Raw
import DartBindings.Text.Unicode
