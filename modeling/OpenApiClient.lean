import OpenApiClient.Text.Numeral
import OpenApiClient.Text.Utf8
import OpenApiClient.Text.LineEnd
import OpenApiClient.Text.Occurrence
import OpenApiClient.Text.LowerCase
import OpenApiClient.Text.UpperCase
import OpenApiClient.Decimal.Notation
import OpenApiClient.Decimal.Literal
import OpenApiClient.Document.Json
import OpenApiClient.Binding.Document
import OpenApiClient.TypeScript.Draft
import OpenApiClient.Client.Generation
import OpenApiClient.Document.Yaml.NodeReader
import OpenApiClient.Document.Yaml.Tree
import OpenApiClient.Document.Yaml
import OpenApiClient.Run
import OpenApiClient.CommandLine
import OpenApiClient.Main
import OpenApiClient.Proofs.LowerCase
import OpenApiClient.Proofs.Path.Filling
import OpenApiClient.Proofs.Identifier
import OpenApiClient.Proofs.Path.Literal
import OpenApiClient.Proofs.Path.Evaluation
import OpenApiClient.Proofs.TypeExpression.Grammar
import OpenApiClient.Proofs.TypeExpression.Reading
import OpenApiClient.Proofs.TypeExpression.OfSchema
import OpenApiClient.Proofs.Binding.Canonical
import OpenApiClient.Proofs.Binding.Fields
import OpenApiClient.Proofs.Binding.Reading
import OpenApiClient.Proofs.Binding.Valid
import OpenApiClient.Proofs.Binding.Inlining
import OpenApiClient.Proofs.Binding.Methods
import OpenApiClient.Proofs.Generation.Naming
import OpenApiClient.Proofs.Generation.Source
import OpenApiClient.Proofs.Generation.Insertion
import OpenApiClient.Proofs.Generation.Delimiting
import OpenApiClient.Proofs.Generation.Blocks
import OpenApiClient.Proofs.Generation.Determination
import OpenApiClient.Proofs.Utf8
import OpenApiClient.Proofs.Portion
import OpenApiClient.Proofs.Yaml.Blame
import OpenApiClient.Proofs.Yaml.Scanning
import OpenApiClient.Proofs.Yaml.Nodes
import OpenApiClient.Proofs.Yaml.Contents
import OpenApiClient.Proofs.JsonNumerals
import OpenApiClient.Proofs.Binding.Writable
import OpenApiClient.Proofs.Generation.Relevance
import OpenApiClient.Proofs.Generation.Identifiers
import OpenApiClient.Proofs.FileTree.Places
import OpenApiClient.Proofs.FileTree.Writing
import OpenApiClient.Proofs.Run.Confinement
import OpenApiClient.Proofs.Run.Accidents
import OpenApiClient.Proofs.Generation.Closedness
import OpenApiClient.Proofs.Binding.Keys
import OpenApiClient.Proofs.Generation.Declarations
import OpenApiClient.Proofs.Generation.Signatures
import OpenApiClient.Proofs.Binding.Shape
import OpenApiClient.Proofs.Binding.Replacement
import OpenApiClient.Proofs.Binding.Outline
import OpenApiClient.Proofs.Generation.Anomalies
import OpenApiClient.Proofs.FileTree.Descending
import OpenApiClient.Proofs.Generation.Endpoints
import OpenApiClient.Proofs.Run.Independence
import OpenApiClient.Proofs.Binding.ParameterLists
import OpenApiClient.Proofs.Binding.Images
import OpenApiClient.Proofs.Binding.MethodSpelling
import OpenApiClient.Proofs.Generation.Spelling
import OpenApiClient.Proofs.SharedParameters
import OpenApiClient.Proofs.Generation.NamingErrors
import OpenApiClient.Proofs.Generation.Accounting
import OpenApiClient.Proofs.Generation.Members
import OpenApiClient.Proofs.TypeScript.Depth
import OpenApiClient.Proofs.TypeScript.Placement
import OpenApiClient.Proofs.Run.Refusals
import OpenApiClient.Proofs.Binding.Selection
import OpenApiClient.Proofs.Generation.Results
import OpenApiClient.Proofs.TypeExpression.Nesting
import OpenApiClient.Proofs.TypeExpression.TypeLists
import OpenApiClient.Proofs.Numerals
import OpenApiClient.Proofs.Generation.Versions
import OpenApiClient.Proofs.Binding.Respelling
