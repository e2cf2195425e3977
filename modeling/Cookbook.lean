import Cookbook.Action.Core
import Cookbook.Action.Expression
import Cookbook.Action.Method
import Cookbook.Action.Registry
import Cookbook.Binary64.Basic
import Cookbook.Binary64.Shortest
import Cookbook.Checkpoint.Log
import Cookbook.Checkpoint.Storage
import Cookbook.CommandLine.Appearance
import Cookbook.CommandLine.Arguments
import Cookbook.CommandLine.Completion
import Cookbook.CommandLine.Help
import Cookbook.CommandLine.Outline
import Cookbook.CommandLine.Run
import Cookbook.ConfigObject
import Cookbook.EntityType
import Cookbook.Error
import Cookbook.Extension.Basic
import Cookbook.Extension.Installer
import Cookbook.Files
import Cookbook.Files.Changes
import Cookbook.Files.Matching
import Cookbook.Import
import Cookbook.Json.Basic
import Cookbook.Json.Parser
import Cookbook.Main
import Cookbook.NameMap
import Cookbook.Path
import Cookbook.Postorder
import Cookbook.Proofs.Action.Arguments
import Cookbook.Proofs.Action.Expressions
import Cookbook.Proofs.Action.Nested
import Cookbook.Proofs.Action.Offering
import Cookbook.Proofs.Action.Permissions
import Cookbook.Proofs.Action.Resolving
import Cookbook.Proofs.Action.Shorthands
import Cookbook.Proofs.Action.Tables
import Cookbook.Proofs.Action.Untouched
import Cookbook.Proofs.Action.Updating
import Cookbook.Proofs.Action.WellFormed
import Cookbook.Proofs.Action.Wildcards
import Cookbook.Proofs.Change
import Cookbook.Proofs.Checkpoint.Failing
import Cookbook.Proofs.Checkpoint.History
import Cookbook.Proofs.Checkpoint.Ids
import Cookbook.Proofs.Checkpoint.Listing
import Cookbook.Proofs.Checkpoint.Numbering
import Cookbook.Proofs.Checkpoint.Reopening
import Cookbook.Proofs.Checkpoint.Returning
import Cookbook.Proofs.Checkpoint.Rollback
import Cookbook.Proofs.Checkpoint.Session
import Cookbook.Proofs.Checkpoint.Taking
import Cookbook.Proofs.Checkpoint.Through
import Cookbook.Proofs.EntityType
import Cookbook.Proofs.EntityType.Owners
import Cookbook.Proofs.Except
import Cookbook.Proofs.Extension.Bringing
import Cookbook.Proofs.Extension.Calls
import Cookbook.Proofs.Extension.Dropping
import Cookbook.Proofs.Extension.Installing
import Cookbook.Proofs.Extension.Listing
import Cookbook.Proofs.Extension.Planning
import Cookbook.Proofs.Extension.Recording
import Cookbook.Proofs.Extension.Requirements
import Cookbook.Proofs.Files
import Cookbook.Proofs.Files.Below
import Cookbook.Proofs.Files.Making
import Cookbook.Proofs.Files.Places
import Cookbook.Proofs.Files.Trees
import Cookbook.Proofs.Files.Writing
import Cookbook.Proofs.Import.Events
import Cookbook.Proofs.Import.Telling
import Cookbook.Proofs.Json.Reading
import Cookbook.Proofs.NameMap
import Cookbook.Proofs.NeedsFirst
import Cookbook.Proofs.Postorder
import Cookbook.Proofs.Postorder.Circles
import Cookbook.Proofs.Postorder.Reaching
import Cookbook.Proofs.Recipe.Again
import Cookbook.Proofs.Recipe.Applying
import Cookbook.Proofs.Recipe.BackingUp
import Cookbook.Proofs.Recipe.Bringing
import Cookbook.Proofs.Recipe.Circles
import Cookbook.Proofs.Recipe.Creating
import Cookbook.Proofs.Recipe.Decoding
import Cookbook.Proofs.Recipe.Execution
import Cookbook.Proofs.Recipe.Failing
import Cookbook.Proofs.Recipe.Gathering
import Cookbook.Proofs.Recipe.InstallPlan
import Cookbook.Proofs.Recipe.Installed
import Cookbook.Proofs.Recipe.Labels
import Cookbook.Proofs.Recipe.Loading
import Cookbook.Proofs.Recipe.Nodes
import Cookbook.Proofs.Recipe.OneByOne
import Cookbook.Proofs.Recipe.Order
import Cookbook.Proofs.Recipe.Reached
import Cookbook.Proofs.Recipe.Reading
import Cookbook.Proofs.Recipe.Running
import Cookbook.Proofs.Recipe.Shipping
import Cookbook.Proofs.Recipe.Siblings
import Cookbook.Proofs.Recipe.Tree
import Cookbook.Proofs.Recipe.Undoing
import Cookbook.Proofs.Recipe.WellFormed
import Cookbook.Proofs.Regex.Matching
import Cookbook.Proofs.Regex.Reading
import Cookbook.Proofs.Schema.Checking
import Cookbook.Proofs.Schema.Choosing
import Cookbook.Proofs.Snapshot
import Cookbook.Proofs.Storage.Backends
import Cookbook.Proofs.Storage.Changes
import Cookbook.Proofs.Storage.Collections
import Cookbook.Proofs.Storage.Combining
import Cookbook.Proofs.Storage.Comparing
import Cookbook.Proofs.Storage.DependencyOrder
import Cookbook.Proofs.Storage.Directory
import Cookbook.Proofs.Storage.Editing
import Cookbook.Proofs.Storage.Failing
import Cookbook.Proofs.Storage.Filing
import Cookbook.Proofs.Storage.Listing
import Cookbook.Proofs.Storage.LookUp
import Cookbook.Proofs.Storage.Naming
import Cookbook.Proofs.Storage.Reading
import Cookbook.Proofs.Storage.Renaming
import Cookbook.Proofs.Value.Building
import Cookbook.Proofs.Value.Inserting
import Cookbook.Proofs.Workspace
import Cookbook.Proofs.Yaml.Printing
import Cookbook.Proofs.Yaml.WellFormed
import Cookbook.Proofs.Yaml.Writable
import Cookbook.Recipe.Apply
import Cookbook.Recipe.Configuration
import Cookbook.Recipe.Discovery
import Cookbook.Recipe.InstallPlan
import Cookbook.Recipe.Loading
import Cookbook.Recipe.Manifest
import Cookbook.Recipe.ManifestRules
import Cookbook.Recipe.Order
import Cookbook.Recipe.Run
import Cookbook.Recipe.Tree
import Cookbook.Regex.Basic
import Cookbook.Regex.Parser
import Cookbook.Schema.Basic
import Cookbook.Schema.NamePattern
import Cookbook.Site
import Cookbook.Storage.Basic
import Cookbook.Storage.Comparison
import Cookbook.Storage.DependencyOrder
import Cookbook.Text.Blank
import Cookbook.Text.CaseFolding
import Cookbook.Text.Category
import Cookbook.Text.CategoryRuns
import Cookbook.Text.Number
import Cookbook.Text.Split
import Cookbook.Workspace
import Cookbook.Yaml.Character
import Cookbook.Yaml.Cursor
import Cookbook.Yaml.Decode
import Cookbook.Yaml.Error
import Cookbook.Yaml.Node
import Cookbook.Yaml.Printer
import Cookbook.Yaml.Scalar
import Cookbook.Yaml.ScalarText
import Cookbook.Yaml.Sketch
import Cookbook.Yaml.Token
import Cookbook.Yaml.Value
