import ColouredPetri.Table
import ColouredPetri.Value
import ColouredPetri.Binding
import ColouredPetri.Expr.Basic
import ColouredPetri.Error
import ColouredPetri.Bag
import ColouredPetri.Binding.Merge
import ColouredPetri.Marking
import ColouredPetri.Text.CharSet
import ColouredPetri.Text.Alphabetic
import ColouredPetri.Text.Numeric
import ColouredPetri.Text.Mark
import ColouredPetri.Text.Unprintable
import ColouredPetri.Text.Classes
import ColouredPetri.Text.Quoted
import ColouredPetri.Expr.Token
import ColouredPetri.Expr.Parser
import ColouredPetri.Expr.Words
import ColouredPetri.Expr.Eval
import ColouredPetri.Formula
import ColouredPetri.Arc.Basic
import ColouredPetri.Arc.Flow
import ColouredPetri.Arc.Modes
import ColouredPetri.TokenType
import ColouredPetri.Place
import ColouredPetri.Transition
import ColouredPetri.Net.Basic
import ColouredPetri.Net.Edit
import ColouredPetri.Net.Merge
import ColouredPetri.Net.Tokens
import ColouredPetri.Net.Firing
import ColouredPetri.Net.Dot
import ColouredPetri.Stateful
import ColouredPetri.StateGraph.Numbered
import ColouredPetri.StateGraph.Basic
import ColouredPetri.StateGraph.Explore
import ColouredPetri.StateGraph.Summary
import ColouredPetri.Text.Reader
import ColouredPetri.Document.Json
import ColouredPetri.Text.Identifier
import ColouredPetri.Text.Utf8
import ColouredPetri.Document.Ron.Lexeme
import ColouredPetri.Document.Ron.Number
import ColouredPetri.Document.Ron
import ColouredPetri.Description
import ColouredPetri.Document.View
import ColouredPetri.Document.Doc
import ColouredPetri.Description.Decode
import ColouredPetri.Description.Encode
import ColouredPetri.Description.Format
import ColouredPetri.Files.Path
import ColouredPetri.Files.Tree
import ColouredPetri.Document.Toml
import ColouredPetri.Files.Access
import ColouredPetri.Description.Storage
import ColouredPetri.Settings
import ColouredPetri.CommandLine.Words
import ColouredPetri.CommandLine.Options
import ColouredPetri.CommandLine.Program
import ColouredPetri.Main
import ColouredPetri.Proofs.TableSums
import ColouredPetri.Proofs.Outcomes
import ColouredPetri.Proofs.BagArithmetic
import ColouredPetri.Proofs.MarkingArithmetic
import ColouredPetri.Proofs.Extensions
import ColouredPetri.Proofs.Arcs.Tokens
import ColouredPetri.Proofs.Arcs.Search
import ColouredPetri.Proofs.Nets.Keys
import ColouredPetri.Proofs.Nets.WellFormed
import ColouredPetri.Proofs.Nets.Steps
import ColouredPetri.Proofs.Nets.ArcEdits
import ColouredPetri.Proofs.Nets.NodeEdits
import ColouredPetri.Proofs.Nets.Restore
import ColouredPetri.Proofs.Nets.Renaming
import ColouredPetri.Proofs.Nets.TokenEdits
import ColouredPetri.Proofs.Nets.Firing
import ColouredPetri.Proofs.Nets.Built
import ColouredPetri.Proofs.Nets.Enabling
import ColouredPetri.Proofs.FiringOutcome
import ColouredPetri.Proofs.EnabledModes
import ColouredPetri.Proofs.StateGraph.Recording
import ColouredPetri.Proofs.StateGraph.Firings
import ColouredPetri.Proofs.StateGraph.Exploration
import ColouredPetri.Proofs.Reachability
import ColouredPetri.Proofs.Failures
import ColouredPetri.Proofs.Arcs.Failures
import ColouredPetri.Proofs.Nets.Lookups
import ColouredPetri.Proofs.Nets.Copies
import ColouredPetri.Proofs.NetIntegrity
import ColouredPetri.Proofs.TableKeys
import ColouredPetri.Proofs.Restrictions
import ColouredPetri.Proofs.Arcs.Completeness
import ColouredPetri.Proofs.ModeCompleteness
import ColouredPetri.Proofs.StateGraph.Collections
import ColouredPetri.Proofs.StateGraph.Operations
import ColouredPetri.Proofs.StateGraph.Schedule
import ColouredPetri.Proofs.StateGraph.Position
import ColouredPetri.Proofs.GraphCollections
import ColouredPetri.Proofs.GraphPosition
import ColouredPetri.Proofs.BulkUpdates
import ColouredPetri.Proofs.Inhibitors
import ColouredPetri.Proofs.StateGraph.Runs
import ColouredPetri.Proofs.StateGraph.Processing
import ColouredPetri.Proofs.ExplorationOrder
import ColouredPetri.Proofs.StateGraph.Limit
import ColouredPetri.Proofs.StateLimit
import ColouredPetri.Proofs.IndependentFirings
import ColouredPetri.Proofs.Expressions.Lexemes
import ColouredPetri.Proofs.Expressions.Readers
import ColouredPetri.Proofs.Expressions.Writable
import ColouredPetri.Proofs.Expressions.Printing
import ColouredPetri.Proofs.Expressions.Atoms
import ColouredPetri.Proofs.Expressions.Levels
import ColouredPetri.Proofs.Expressions.Legibility
import ColouredPetri.Proofs.ExpressionGrammar
import ColouredPetri.Proofs.Expressions.Renamed
import ColouredPetri.Proofs.Expressions.RenamedTexts
import ColouredPetri.Proofs.Variables.Parallel
import ColouredPetri.Proofs.Variables.Bindings
import ColouredPetri.Proofs.Variables.Formulas
import ColouredPetri.Proofs.Variables.Arcs
import ColouredPetri.Proofs.Variables.Transitions
import ColouredPetri.Proofs.VariableRenaming
import ColouredPetri.Proofs.Descriptions.Types
import ColouredPetri.Proofs.Descriptions.Rebuilding
import ColouredPetri.Proofs.Descriptions.Outlines
import ColouredPetri.Proofs.Descriptions.Views
import ColouredPetri.Proofs.Descriptions.Decoding
import ColouredPetri.Proofs.Descriptions.Texts
import ColouredPetri.Proofs.Descriptions.JsonTexts
import ColouredPetri.Proofs.Descriptions.JsonViews
import ColouredPetri.Proofs.Descriptions.RonTexts
import ColouredPetri.Proofs.DescriptionRoundTrip
import ColouredPetri.Proofs.StoredNets
import ColouredPetri.Proofs.StateGraph.Distances
import ColouredPetri.Proofs.BreadthFirst
import ColouredPetri.Proofs.ModeSoundness
import ColouredPetri.Proofs.SearchErrors
import ColouredPetri.Proofs.ModeErrors
import ColouredPetri.Proofs.StateGraph.Successes
import ColouredPetri.Proofs.StateGraph.Removal
import ColouredPetri.Proofs.StateGraph.Steady
import ColouredPetri.Proofs.FailedBuilds
import ColouredPetri.Proofs.StateVisits
import ColouredPetri.Proofs.StateRemoval
import ColouredPetri.Proofs.Variables.OpenNames
import ColouredPetri.Proofs.OpenVariables
import ColouredPetri.Proofs.Nets.Connections
import ColouredPetri.Proofs.Nets.Joins
import ColouredPetri.Proofs.Nets.Merging
import ColouredPetri.Proofs.Nets.Rollback
import ColouredPetri.Proofs.EditAtomicity
import ColouredPetri.Proofs.Nets.CopySteps
import ColouredPetri.Proofs.NodeCopies
import ColouredPetri.Proofs.Unions
import ColouredPetri.Proofs.Arcs.Joining
import ColouredPetri.Proofs.PlaceMerging
import ColouredPetri.Proofs.Nets.Relabelling
import ColouredPetri.Proofs.Nets.Refusals
import ColouredPetri.Proofs.NodeRenaming
import ColouredPetri.Proofs.Expressions.Tallies
import ColouredPetri.Proofs.ExpressionNames
import ColouredPetri.Proofs.Expressions.Closing
import ColouredPetri.Proofs.GuardConnectives
import ColouredPetri.Proofs.ValueTexts
import ColouredPetri.Proofs.WordArithmetic
import ColouredPetri.Proofs.Composition
import ColouredPetri.Proofs.Combinations
import ColouredPetri.Proofs.TextRenaming
import ColouredPetri.Proofs.VariableNames
import ColouredPetri.Proofs.BagLaws
import ColouredPetri.Proofs.TypeUnions
import ColouredPetri.Proofs.MarkingLaws
import ColouredPetri.Proofs.OptionSources
import ColouredPetri.Proofs.SearchTrees
import ColouredPetri.Proofs.TextOrder
import ColouredPetri.Proofs.ValueOrder
