import SchemaApi.Api.Binding
import SchemaApi.Api.Description
import SchemaApi.Api.Inference
import SchemaApi.Api.Naming
import SchemaApi.Api.Shape
import SchemaApi.Check.Condition
import SchemaApi.Check.Rule
import SchemaApi.CommandLine.Execution
import SchemaApi.CommandLine.Files
import SchemaApi.CommandLine.Options
import SchemaApi.Data.Json.Printer
import SchemaApi.Data.Json.Reader
import SchemaApi.Data.Shape
import SchemaApi.Data.Value
import SchemaApi.Data.Yaml.Printer
import SchemaApi.Data.Yaml.Reader
import SchemaApi.Data.Yaml.Scalar
import SchemaApi.Dialect
import SchemaApi.Dialect.Keyword
import SchemaApi.Dialect.TypeRule
import SchemaApi.Fault
import SchemaApi.Finding
import SchemaApi.Listing
import SchemaApi.Main
import SchemaApi.Naming
import SchemaApi.Number.Binary64
import SchemaApi.Reading.Column
import SchemaApi.Reading.Cursor
import SchemaApi.Reading.Statement
import SchemaApi.Refusal
import SchemaApi.Run
import SchemaApi.Run.Summary
import SchemaApi.Schema.Basic
import SchemaApi.Schema.Build
import SchemaApi.Schema.Change
import SchemaApi.Schema.Dependence
import SchemaApi.Schema.ColumnType
import SchemaApi.Schema.Draft
import SchemaApi.Schema.Problem
import SchemaApi.Schema.Record
import SchemaApi.Schema.Relationship
import SchemaApi.Schema.Resolution
import SchemaApi.Schema.Shape
import SchemaApi.Script
import SchemaApi.Settings
import SchemaApi.Settings.File
import SchemaApi.Statement
import SchemaApi.Text.Blank
import SchemaApi.Text.Case
import SchemaApi.Text.CodeRange
import SchemaApi.Text.Digit
import SchemaApi.Text.Find
import SchemaApi.Text.Letter
import SchemaApi.Text.Printable
import SchemaApi.Text.Quoted
import SchemaApi.Text.Word
import SchemaApi.Token
import SchemaApi.Token.Lexer
import SchemaApi.Token.Phrase
import SchemaApi.Proofs.Fallible
import SchemaApi.Proofs.Text.LetterCase
import SchemaApi.Proofs.Text.OneLine
import SchemaApi.Proofs.Text.Capitals
import SchemaApi.Proofs.Schema.WellFormed
import SchemaApi.Proofs.Schema.Table
import SchemaApi.Proofs.Schema.Change
import SchemaApi.Proofs.Schema.Passes
import SchemaApi.Proofs.Schema.Resolution
import SchemaApi.Proofs.Schema.Agreement
import SchemaApi.Proofs.Schema.Sound
import SchemaApi.Proofs.Schema.Regular
import SchemaApi.Proofs.Schema.InPlace
import SchemaApi.Proofs.Schema.Untouched
import SchemaApi.Proofs.Schema.Replacement
import SchemaApi.Proofs.Schema.Move
import SchemaApi.Proofs.Schema.Tidy
import SchemaApi.Proofs.Schema.Step
import SchemaApi.Proofs.Schema.Report
import SchemaApi.Proofs.Schema.Spelling
import SchemaApi.Proofs.Listing.ReadBack
import SchemaApi.Proofs.Schema.Model
import SchemaApi.Proofs.Schema.Cascade
import SchemaApi.Proofs.Schema.Rename
import SchemaApi.Proofs.Schema.Locality
import SchemaApi.Proofs.Schema.Declarations
import SchemaApi.Proofs.Schema.Place
import SchemaApi.Proofs.Schema.Order
import SchemaApi.Proofs.Schema.Alteration
import SchemaApi.Proofs.Schema.Execution
import SchemaApi.Proofs.Schema.View
import SchemaApi.Proofs.Schema.Number
import SchemaApi.Proofs.Schema.Lifetime
import SchemaApi.Proofs.Schema.TableName
import SchemaApi.Proofs.Schema.Idle
import SchemaApi.Proofs.Schema.Recreation
import SchemaApi.Proofs.Schema.Guarded
import SchemaApi.Proofs.Schema.Kahn
import SchemaApi.Proofs.Schema.Dependence
import SchemaApi.Proofs.Schema.Circle
import SchemaApi.Proofs.Schema.Relationship
import SchemaApi.Proofs.Schema.Removal
import SchemaApi.Proofs.Schema.Edit
import SchemaApi.Proofs.Schema.Restriction
import SchemaApi.Proofs.Schema.OneTable
import SchemaApi.Proofs.Schema.Commuting
import SchemaApi.Proofs.Token.Shift
import SchemaApi.Proofs.Token.Lexer
import SchemaApi.Proofs.Token.Phrase
import SchemaApi.Proofs.Token.Lossless
import SchemaApi.Proofs.Token.Locality
import SchemaApi.Proofs.Token.Cut
import SchemaApi.Proofs.Token.Bundle
import SchemaApi.Proofs.Token.AsWritten
import SchemaApi.Proofs.Token.Merger
import SchemaApi.Proofs.Token.Piece
import SchemaApi.Proofs.Token.Print
import SchemaApi.Proofs.Token.Quotation
import SchemaApi.Proofs.Check.Meaning
import SchemaApi.Proofs.Check.Grammar
import SchemaApi.Proofs.Check.Reading
import SchemaApi.Proofs.Check.Oversized
import SchemaApi.Proofs.Check.Translation
import SchemaApi.Proofs.Check.Documented
import SchemaApi.Proofs.Check.Passing
import SchemaApi.Proofs.Check.Splitting
import SchemaApi.Proofs.Check.Acceptance
import SchemaApi.Proofs.Reading.Shift
import SchemaApi.Proofs.Reading.Likeness
import SchemaApi.Proofs.Reading.Alike
import SchemaApi.Proofs.Reading.Column
import SchemaApi.Proofs.Reading.Statement
import SchemaApi.Proofs.Reading.Report
import SchemaApi.Proofs.Reading.Progress
import SchemaApi.Proofs.Reading.Takes
import SchemaApi.Proofs.Reading.Declaration
import SchemaApi.Proofs.Reading.Remainder
import SchemaApi.Proofs.Reading.Grammar
import SchemaApi.Proofs.Reading.Result
import SchemaApi.Proofs.Reading.Default
import SchemaApi.Proofs.Script.Alike
import SchemaApi.Proofs.Script.Rewritten
import SchemaApi.Proofs.Script.Verbatim
import SchemaApi.Proofs.Script.Layout
import SchemaApi.Proofs.Script.LetterCase
import SchemaApi.Proofs.Script.Isolation
import SchemaApi.Proofs.Script.CreateTable
import SchemaApi.Proofs.Script.TokenList
import SchemaApi.Proofs.Script.Accounting
import SchemaApi.Proofs.Schema.Registration
import SchemaApi.Proofs.Naming.Kebab
import SchemaApi.Proofs.Api.Naming
import SchemaApi.Proofs.Api.Closure
import SchemaApi.Proofs.Api.Totality
import SchemaApi.Proofs.Api.Binding
import SchemaApi.Proofs.Api.ResourceName
import SchemaApi.Proofs.Api.Identity
import SchemaApi.Proofs.Api.UniqueRule
import SchemaApi.Proofs.Run.Outcome
