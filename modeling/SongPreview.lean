import SongPreview.Bytes
import SongPreview.Child
import SongPreview.Colour
import SongPreview.Command.Fault
import SongPreview.Command.Running
import SongPreview.CommandLine
import SongPreview.CommandLine.Help
import SongPreview.CommandLine.Parsing
import SongPreview.Config
import SongPreview.Config.Checking
import SongPreview.Config.Loading
import SongPreview.Config.Reading
import SongPreview.Console
import SongPreview.Diagnostic
import SongPreview.Diagnostic.Reading
import SongPreview.Digest
import SongPreview.Document
import SongPreview.Json.Number
import SongPreview.Json.Reader
import SongPreview.Json.Record
import SongPreview.Json.Text
import SongPreview.Layout
import SongPreview.Machine
import SongPreview.Machine.Fault
import SongPreview.Machine.Plain
import SongPreview.Machine.Saving
import SongPreview.Machine.Tree
import SongPreview.Main
import SongPreview.Observer
import SongPreview.Path
import SongPreview.Program
import SongPreview.Query
import SongPreview.Rehearsal
import SongPreview.RendererInfo
import SongPreview.RendererInfo.Reading
import SongPreview.Rendering
import SongPreview.Rendering.Log
import SongPreview.Scan
import SongPreview.Scene
import SongPreview.Scheduler
import SongPreview.Scheduler.Debouncer
import SongPreview.Settings
import SongPreview.Shell.Arithmetic
import SongPreview.Shell.Builtins
import SongPreview.Shell.Bytes
import SongPreview.Shell.Condition
import SongPreview.Shell.Editing
import SongPreview.Shell.Expansion
import SongPreview.Shell.Fields
import SongPreview.Shell.Format
import SongPreview.Shell.Hosting
import SongPreview.Shell.Launching
import SongPreview.Shell.Options
import SongPreview.Shell.Parsing
import SongPreview.Shell.Pattern
import SongPreview.Shell.Process
import SongPreview.Shell.Regex
import SongPreview.Shell.Running
import SongPreview.Shell.Syntax
import SongPreview.Shell.Tool
import SongPreview.Shell.Tool.Texts
import SongPreview.Shell.Tool.Words
import SongPreview.Shell.Tools
import SongPreview.Shell.Translating
import SongPreview.Shell.WordParsing
import SongPreview.Terminal
import SongPreview.Text
import SongPreview.Toml.Document
import SongPreview.Toml.Draft
import SongPreview.Toml.Quoted
import SongPreview.Toml.Scalar
import SongPreview.Toml.Value
import SongPreview.Utf8
import SongPreview.Watch.ConfigChange
import SongPreview.Watch.Feeder
import SongPreview.Watch.FileChange
import SongPreview.Watch.LiveProject
import SongPreview.Watch.Session
import SongPreview.Proofs.Scheduler.Steps
import SongPreview.Proofs.Scheduler.Runs
import SongPreview.Proofs.Scheduler.Current
import SongPreview.Proofs.Scheduler.Refreshing
import SongPreview.Proofs.Scheduler.Telling
import SongPreview.Proofs.Scheduler.Timing
import SongPreview.Proofs.Scheduler.Resting
import SongPreview.Proofs.Scheduler.Superseding
import SongPreview.Proofs.Digest.Delimiting
import SongPreview.Proofs.Fingerprints
import SongPreview.Proofs.Scheduler.Standing
import SongPreview.Proofs.Scheduler.Quiescence
import SongPreview.Proofs.Scheduler.Rehearsing
import SongPreview.Proofs.Scheduler.OneRendering
import SongPreview.Proofs.Watch.Feeding
import SongPreview.Proofs.Watch.Converging
import SongPreview.Proofs.Machine.Walking
import SongPreview.Proofs.Machine.Places
import SongPreview.Proofs.Machine.Directories
import SongPreview.Proofs.Config.Sources
import SongPreview.Proofs.Watch.Reloading
import SongPreview.Proofs.Watch.Recovering
import SongPreview.Proofs.Scheduler.Publishing
import SongPreview.Proofs.Machine.Saving
import SongPreview.Proofs.Watch.Observing
import SongPreview.Proofs.Scene.History
import SongPreview.Proofs.Scheduler.Redundancy
import SongPreview.Proofs.Scheduler.Bursts
import SongPreview.Proofs.Machine.Transient
import SongPreview.Proofs.Machine.Replacing
import SongPreview.Proofs.Command.Storing
import SongPreview.Proofs.Rendering.Starting
import SongPreview.Proofs.Rendering.Outcomes
import SongPreview.Proofs.Rendering.Leaving
import SongPreview.Proofs.Config.Runnable
import SongPreview.Proofs.Watch.Noticing
import SongPreview.Proofs.Config.Layers
import SongPreview.Proofs.Diagnostic.Stripping
import SongPreview.Proofs.Diagnostic.Cutting
import SongPreview.Proofs.Rendering.Streaming
import SongPreview.Proofs.Diagnostic.Grammar
import SongPreview.Proofs.Scheduler.Logging
import SongPreview.Proofs.Machine.Spelling
import SongPreview.Proofs.Config.Paths
import SongPreview.Proofs.Machine.Naming
import SongPreview.Proofs.Watch.Touching
import SongPreview.Proofs.Terminal.Screen
import SongPreview.Proofs.Terminal.Block
import SongPreview.Proofs.Diagnostic.Rereading
import SongPreview.Proofs.Json.Grammar
import SongPreview.Proofs.Json.Tokens
import SongPreview.Proofs.Json.Passing
import SongPreview.Proofs.Json.Records
import SongPreview.Proofs.RendererInfo
import SongPreview.Proofs.Toml.Keys
import SongPreview.Proofs.Config.UnknownKeys
import SongPreview.Proofs.Sizes
