import PackageRecipes.Build.Builder
import PackageRecipes.Build.Command
import PackageRecipes.Build.Context
import PackageRecipes.Build.Environment
import PackageRecipes.Build.FileSteps
import PackageRecipes.Build.Hooks
import PackageRecipes.Build.RecipeHooks
import PackageRecipes.Build.Registry
import PackageRecipes.Checksum
import PackageRecipes.CommandLine.Basic
import PackageRecipes.CommandLine.Failure
import PackageRecipes.CommandLine.Options
import PackageRecipes.CommandLine.Overview
import PackageRecipes.CommandLine.Run
import PackageRecipes.Condition.Basic
import PackageRecipes.Condition.Parser
import PackageRecipes.Configuration
import PackageRecipes.Data.Basic
import PackageRecipes.Data.Printer
import PackageRecipes.Data.Reader
import PackageRecipes.Digest.Block
import PackageRecipes.Digest.Md5
import PackageRecipes.Digest.Sha2
import PackageRecipes.Error
import PackageRecipes.Files.Glob
import PackageRecipes.Files.Path
import PackageRecipes.Files.Step
import PackageRecipes.Files.Tree
import PackageRecipes.Files.Verification
import PackageRecipes.Graph
import PackageRecipes.Main
import PackageRecipes.NameMap
import PackageRecipes.NameSet
import PackageRecipes.Phase
import PackageRecipes.Recipe.Basic
import PackageRecipes.Recipe.Declare
import PackageRecipes.Recipe.Lint
import PackageRecipes.Recipe.Reader
import PackageRecipes.Regex.Basic
import PackageRecipes.Regex.CharSet
import PackageRecipes.Regex.Parser
import PackageRecipes.Regex.Replace
import PackageRecipes.Repository
import PackageRecipes.Selection
import PackageRecipes.Settings
import PackageRecipes.Shell.Format
import PackageRecipes.Shell.Interpreter
import PackageRecipes.Shell.Process
import PackageRecipes.Shell.Programs
import PackageRecipes.Shell.Runner
import PackageRecipes.Shell.Script
import PackageRecipes.Spec.Basic
import PackageRecipes.Spec.Dependency
import PackageRecipes.Spec.Name
import PackageRecipes.Spec.Source
import PackageRecipes.Spec.Variant
import PackageRecipes.Update
import PackageRecipes.Template
import PackageRecipes.Text
import PackageRecipes.Text.Utf8
import PackageRecipes.Toml.Parser
import PackageRecipes.Toml.Scalar
import PackageRecipes.Toml.Table
import PackageRecipes.Unicode.CaseFolding
import PackageRecipes.Unicode.Category
import PackageRecipes.Unicode.Runs
import PackageRecipes.Unicode.Script
import PackageRecipes.Version.Basic
import PackageRecipes.Version.Range
import PackageRecipes.Proofs.NameMap
import PackageRecipes.Proofs.Update
import PackageRecipes.Proofs.Bytes
import PackageRecipes.Proofs.Graph.Basic
import PackageRecipes.Proofs.Graph.InstallOrder
import PackageRecipes.Proofs.Graph.Sorting
import PackageRecipes.Proofs.Graph.Cycles
import PackageRecipes.Proofs.Graph.LeastOrder
import PackageRecipes.Proofs.Graph.Mirror
import PackageRecipes.Proofs.Configuration.Walk
import PackageRecipes.Proofs.Configuration.Occurrence
import PackageRecipes.Proofs.Graph.Tree
import PackageRecipes.Proofs.Graph.Flattening
import PackageRecipes.Proofs.Recipe.Declare
import PackageRecipes.Proofs.Recipe.Clause
import PackageRecipes.Proofs.Recipe.Entries
import PackageRecipes.Proofs.Recipe.Refusal
import PackageRecipes.Proofs.Recipe.Warnings
import PackageRecipes.Proofs.Repository.Basic
import PackageRecipes.Proofs.Repository.ActiveEdges
import PackageRecipes.Proofs.Repository.Expansion
import PackageRecipes.Proofs.Repository.Exploration
import PackageRecipes.Proofs.Repository.Agreement
import PackageRecipes.Proofs.Condition.Attached
import PackageRecipes.Proofs.Repository.Completeness
import PackageRecipes.Proofs.Repository.DefaultTree
import PackageRecipes.Proofs.Repository.Attaching
import PackageRecipes.Proofs.Build.Plan
import PackageRecipes.Proofs.Build.RecipePlan
import PackageRecipes.Proofs.Build.DryRun
import PackageRecipes.Proofs.Build.Phases
import PackageRecipes.Proofs.Spec.Declaration
import PackageRecipes.Proofs.Spec.WellFormed
import PackageRecipes.Proofs.Condition.OwnVariants
import PackageRecipes.Proofs.Spec.Assignment
import PackageRecipes.Proofs.Spec.Typing
import PackageRecipes.Proofs.Spec.SingleValue
import PackageRecipes.Proofs.Spec.Preferred
import PackageRecipes.Proofs.Condition.Naming
import PackageRecipes.Proofs.Version.Reading
import PackageRecipes.Proofs.Condition.Atoms
import PackageRecipes.Proofs.Condition.Requirements
import PackageRecipes.Proofs.Build.Compilation
import PackageRecipes.Proofs.Repository.Validity
import PackageRecipes.Proofs.CommandLine.Checking
import PackageRecipes.Proofs.Condition.Printing
import PackageRecipes.Proofs.Condition.Conjunction
import PackageRecipes.Proofs.Recipe.ConflictText
import PackageRecipes.Proofs.Spec.DependencyText
import PackageRecipes.Proofs.Version.Interval
import PackageRecipes.Proofs.Version.Segmentation
import PackageRecipes.Proofs.Build.Environment
import PackageRecipes.Proofs.Template
import PackageRecipes.Proofs.Build.Drafts
import PackageRecipes.Proofs.Spec.Selection
import PackageRecipes.Proofs.Condition.LeadingName
import PackageRecipes.Proofs.Files.Basic
import PackageRecipes.Proofs.Regex.Escape
import PackageRecipes.Proofs.Replacement
import PackageRecipes.Proofs.Regex.Placeholder
import PackageRecipes.Proofs.Build.LiteralEdit
import PackageRecipes.Proofs.Build.Exports
import PackageRecipes.Proofs.Condition.Offsets
import PackageRecipes.Proofs.Digest.Streaming
import PackageRecipes.Proofs.Checksum
import PackageRecipes.Proofs.Files.Directories
import PackageRecipes.Proofs.Files.Parent
import PackageRecipes.Proofs.Build.AppendedLines
import PackageRecipes.Proofs.Build.Copies
import PackageRecipes.Proofs.Data.Json
import PackageRecipes.Proofs.Data.Plain
import PackageRecipes.Proofs.Configuration.ReadBack
import PackageRecipes.Proofs.CommandLine.ReadBack
