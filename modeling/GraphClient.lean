import GraphClient.CacheKey.Ancestry
import GraphClient.CacheKey.EntityKeys
import GraphClient.CacheKey.Expression
import GraphClient.CacheKey.Files
import GraphClient.CacheKey.Store
import GraphClient.Document.Basic
import GraphClient.Document.Literal
import GraphClient.FileTree
import GraphClient.Json.Basic
import GraphClient.Json.Decode
import GraphClient.Json.Outline
import GraphClient.Json.PassOver
import GraphClient.Json.Printer
import GraphClient.Json.Quoted
import GraphClient.Json.Reader
import GraphClient.Json.Token
import GraphClient.Keyed
import GraphClient.NameSet
import GraphClient.Naming.Entity
import GraphClient.Naming.Operation
import GraphClient.Number.Binary64
import GraphClient.Number.Shortest
import GraphClient.Number.Word
import GraphClient.Package.Accessor
import GraphClient.Package.Basic
import GraphClient.Package.Blueprint
import GraphClient.Package.ClientFile
import GraphClient.Package.CustomFiles
import GraphClient.Package.Definitions
import GraphClient.Package.Fragment
import GraphClient.Package.SelectTypes
import GraphClient.Package.TableFiles
import GraphClient.Package.TypesFile
import GraphClient.Projection.Basic
import GraphClient.Projection.Nodes
import GraphClient.Projection.Typed
import GraphClient.Proofs.CacheKey.Ancestry
import GraphClient.Proofs.CacheKey.CustomNamespace
import GraphClient.Proofs.CacheKey.FactoryNames
import GraphClient.Proofs.CacheKey.Hierarchy
import GraphClient.Proofs.CacheKey.Separate
import GraphClient.Proofs.CacheKey.Stale
import GraphClient.Proofs.Document.Frame
import GraphClient.Proofs.Document.Harmless
import GraphClient.Proofs.Document.Integers
import GraphClient.Proofs.Document.Legible
import GraphClient.Proofs.Document.Literal
import GraphClient.Proofs.Document.Outline
import GraphClient.Proofs.Json.Compact
import GraphClient.Proofs.Json.Quoted
import GraphClient.Proofs.Naming.Forms
import GraphClient.Proofs.Naming.Spelling
import GraphClient.Proofs.Number.Rounded
import GraphClient.Proofs.Package.Closure
import GraphClient.Proofs.Package.Consistent
import GraphClient.Proofs.Package.Contents
import GraphClient.Proofs.Package.DefinedOnce
import GraphClient.Proofs.Package.Descriptions
import GraphClient.Proofs.Package.DistinctExports
import GraphClient.Proofs.Package.DistinctPaths
import GraphClient.Proofs.Package.DocumentConstants
import GraphClient.Proofs.Package.Exports
import GraphClient.Proofs.Package.Filters
import GraphClient.Proofs.Package.HookToggle
import GraphClient.Proofs.Package.Hookless
import GraphClient.Proofs.Package.Imports
import GraphClient.Proofs.Package.Independence
import GraphClient.Proofs.Package.Invalidation
import GraphClient.Proofs.Package.Manifest
import GraphClient.Proofs.Package.OperationExports
import GraphClient.Proofs.Package.Place
import GraphClient.Proofs.Package.Rejection
import GraphClient.Proofs.Package.Resolution
import GraphClient.Proofs.Package.RowTypes
import GraphClient.Proofs.Package.SelectDocument
import GraphClient.Proofs.Package.StrictLevels
import GraphClient.Proofs.Package.TopLevel
import GraphClient.Proofs.Package.Views
import GraphClient.Proofs.Projection.Arguments
import GraphClient.Proofs.Projection.Faithful
import GraphClient.Proofs.Projection.Lists
import GraphClient.Proofs.Projection.Skeleton
import GraphClient.Proofs.Projection.Unchecked
import GraphClient.Proofs.Request.Call
import GraphClient.Proofs.Request.DefaultAnswer
import GraphClient.Proofs.Request.Frames
import GraphClient.Proofs.Request.Inlined
import GraphClient.Proofs.Request.Layout
import GraphClient.Proofs.Request.Restriction
import GraphClient.Proofs.Request.Variables
import GraphClient.Proofs.Schema.OptionalField
import GraphClient.Proofs.Schema.TypeRefChain
import GraphClient.Proofs.Schema.WellFormed
import GraphClient.Proofs.Selection.AllScalars
import GraphClient.Proofs.Selection.Depth
import GraphClient.Proofs.Selection.Legal
import GraphClient.Proofs.Selection.Verdict
import GraphClient.Proofs.Shape.Invariant
import GraphClient.Proofs.Shape.Origin
import GraphClient.Proofs.Text.Ending
import GraphClient.Proofs.Text.Joined
import GraphClient.Proofs.Text.Lines
import GraphClient.Proofs.Text.Nesting
import GraphClient.Proofs.Text.Script
import GraphClient.Proofs.Traversal
import GraphClient.Proofs.TypeScript.Comments
import GraphClient.Proofs.TypeScript.Documented
import GraphClient.Proofs.TypeScript.Flat
import GraphClient.Proofs.TypeScript.Lookahead
import GraphClient.Proofs.TypeScript.Nesting
import GraphClient.Proofs.TypeScript.Phrase
import GraphClient.Proofs.TypeScript.Readable
import GraphClient.Proofs.TypeScript.Reading
import GraphClient.Proofs.TypeScript.Rendered
import GraphClient.Proofs.TypeScript.TemplateLiteral
import GraphClient.Proofs.TypeScript.Weight
import GraphClient.Proofs.Typing.Layers
import GraphClient.Proofs.Typing.Overrides
import GraphClient.Request.Basic
import GraphClient.Request.Binding
import GraphClient.Request.Custom
import GraphClient.Request.Table
import GraphClient.Request.Wire
import GraphClient.Schema.Basic
import GraphClient.Schema.NamedType
import GraphClient.Schema.Table
import GraphClient.Schema.TypeRef
import GraphClient.Schema.TypeRefWire
import GraphClient.Schema.Wire
import GraphClient.Selection.Basic
import GraphClient.Selection.Check
import GraphClient.Selection.Default
import GraphClient.Selection.Wire
import GraphClient.Settings.Basic
import GraphClient.Settings.File
import GraphClient.Settings.Wire
import GraphClient.Shape.Catalog
import GraphClient.Text.Blank
import GraphClient.Text.Casing
import GraphClient.Text.CharClass
import GraphClient.Text.Lowercase
import GraphClient.Text.Plural
import GraphClient.Text.Property.Alphabetic
import GraphClient.Text.Property.CaseIgnorable
import GraphClient.Text.Property.LetterCase
import GraphClient.Text.Property.LowercaseShift
import GraphClient.Text.Property.Numeric
import GraphClient.Text.Property.RecentLetter
import GraphClient.Text.Property.WordJoiner
import GraphClient.Toml.Number
import GraphClient.Toml.Quoted
import GraphClient.Toml.Reader
import GraphClient.Toml.Tree
import GraphClient.TypeScript.Declaration
import GraphClient.TypeScript.Imports
import GraphClient.TypeScript.SourceFile
import GraphClient.TypeScript.Text
import GraphClient.TypeScript.TypeExpr
import GraphClient.Typing.References
import GraphClient.Typing.Resolve
import GraphClient.Typing.Scalar
