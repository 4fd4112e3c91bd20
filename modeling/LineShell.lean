import LineShell.Command.Basic
import LineShell.Command.Date
import LineShell.Command.FileManagement
import LineShell.Command.Guide
import LineShell.Command.Navigation
import LineShell.Command.Reading
import LineShell.Command.Registry
import LineShell.Command.Signature
import LineShell.Command.Standard
import LineShell.CommandLine.Options
import LineShell.CommandLine.Run
import LineShell.FileSystem.Access
import LineShell.FileSystem.Basic
import LineShell.FileSystem.Errno
import LineShell.FileSystem.Table
import LineShell.FileSystem.Tree
import LineShell.FileSystem.Walk
import LineShell.Line.Directive
import LineShell.Line.Scan
import LineShell.Paging
import LineShell.Path
import LineShell.Proofs.Command.Copying
import LineShell.Proofs.Command.InTurn
import LineShell.Proofs.Command.Listing
import LineShell.Proofs.Command.Making
import LineShell.Proofs.Command.Moving
import LineShell.Proofs.Command.Overview
import LineShell.Proofs.Command.Registered
import LineShell.Proofs.Command.Standard
import LineShell.Proofs.CommandLine.Modes
import LineShell.Proofs.FileSystem.Clear
import LineShell.Proofs.FileSystem.Copying
import LineShell.Proofs.FileSystem.Descent
import LineShell.Proofs.FileSystem.Growing
import LineShell.Proofs.FileSystem.Lookup
import LineShell.Proofs.FileSystem.Making
import LineShell.Proofs.FileSystem.Moving
import LineShell.Proofs.FileSystem.Names
import LineShell.Proofs.FileSystem.Nodes
import LineShell.Proofs.FileSystem.Removing
import LineShell.Proofs.FileSystem.Writing
import LineShell.Proofs.Line.Grammar
import LineShell.Proofs.Line.Offsets
import LineShell.Proofs.Line.Plan
import LineShell.Proofs.Line.Quoting
import LineShell.Proofs.Line.Sides
import LineShell.Proofs.Line.Spacing
import LineShell.Proofs.Paging.Showing
import LineShell.Proofs.Paging.Split
import LineShell.Proofs.Path.Joined
import LineShell.Proofs.Path.Normal
import LineShell.Proofs.Path.Stack
import LineShell.Proofs.Path.Upward
import LineShell.Proofs.Session.CurrentDirectory
import LineShell.Proofs.Session.Disabled
import LineShell.Proofs.Session.HandedOn
import LineShell.Proofs.Session.InRange
import LineShell.Proofs.Session.Input
import LineShell.Proofs.Session.Journeys
import LineShell.Proofs.Session.Leaving
import LineShell.Proofs.Session.LineEditor
import LineShell.Proofs.Session.Looking
import LineShell.Proofs.Session.Pipeline
import LineShell.Proofs.Session.ReadBack
import LineShell.Proofs.Session.Redirect
import LineShell.Proofs.Session.Replacing
import LineShell.Proofs.Session.Requests
import LineShell.Proofs.Session.Stages
import LineShell.Proofs.Session.Status
import LineShell.Proofs.Session.Transcript
import LineShell.Proofs.Session.Turns
import LineShell.Proofs.Session.Users
import LineShell.Proofs.Settings.Dump
import LineShell.Proofs.Settings.Fields
import LineShell.Proofs.Settings.Loading
import LineShell.Proofs.Settings.Merging
import LineShell.Proofs.Settings.Overlay
import LineShell.Proofs.Text.Lines
import LineShell.Proofs.Text.Order
import LineShell.Proofs.Text.Pages
import LineShell.Proofs.Text.Slices
import LineShell.Proofs.Text.Trimmed
import LineShell.Proofs.Toml.Alike
import LineShell.Proofs.Toml.Bounds
import LineShell.Proofs.Toml.Document
import LineShell.Proofs.Toml.Edited
import LineShell.Proofs.Toml.Facts
import LineShell.Proofs.Toml.Numbers
import LineShell.Proofs.Toml.Strings
import LineShell.Proofs.Toml.Values
import LineShell.Session.Directories
import LineShell.Session.Evaluate
import LineShell.Session.Event
import LineShell.Session.LineEditor
import LineShell.Session.LogLevel
import LineShell.Session.Outcome
import LineShell.Session.ReadLoop
import LineShell.Session.Terminal
import LineShell.Settings.Basic
import LineShell.Settings.Overlay
import LineShell.Settings.Writer
import LineShell.Text.Blank
import LineShell.Text.CharSet
import LineShell.Text.Escaped
import LineShell.Text.Extending
import LineShell.Text.Ignorable
import LineShell.Text.Offset
import LineShell.Text.Raw
import LineShell.Text.ShellWord
import LineShell.Text.Unprintable
import LineShell.Text.Utf8
import LineShell.Toml.DateTime
import LineShell.Toml.Document
import LineShell.Toml.Number
import LineShell.Toml.Statement
import LineShell.Toml.Table
import LineShell.Toml.Text
import LineShell.Toml.Value
import LineShell.Toml.Writer
import LineShell.Proofs.Session.Deeds
import LineShell.Proofs.Session.Recorded
