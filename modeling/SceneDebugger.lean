import SceneDebugger.Breakpoints.StepTarget
import SceneDebugger.Breakpoints.Store
import SceneDebugger.Controller
import SceneDebugger.Digest.Sha256
import SceneDebugger.EngineLayout
import SceneDebugger.Event
import SceneDebugger.Failure
import SceneDebugger.Files.Disk
import SceneDebugger.Files.Fault
import SceneDebugger.Files.Path
import SceneDebugger.Ground.Snapshot
import SceneDebugger.Ground.Tracker
import SceneDebugger.Halt.Place
import SceneDebugger.Halt.Record
import SceneDebugger.Host
import SceneDebugger.Json.Complaint
import SceneDebugger.Json.Decode
import SceneDebugger.Json.Double
import SceneDebugger.Json.Magnitude
import SceneDebugger.Json.Reader
import SceneDebugger.Json.Value
import SceneDebugger.Json.Whole
import SceneDebugger.Machine.FrameLoop
import SceneDebugger.Machine.Memory
import SceneDebugger.Machine.State
import SceneDebugger.Output.Printf
import SceneDebugger.Output.ScriptPrint
import SceneDebugger.Reload
import SceneDebugger.Report.Event
import SceneDebugger.Report.Files
import SceneDebugger.Report.Halt
import SceneDebugger.Report.Message
import SceneDebugger.Report.Session
import SceneDebugger.Request.Commands
import SceneDebugger.Request.Fields
import SceneDebugger.Request.Values
import SceneDebugger.Script.Compiler
import SceneDebugger.Script.Context
import SceneDebugger.Script.LineLanguage
import SceneDebugger.Script.Program
import SceneDebugger.Script.Record
import SceneDebugger.Session.Halting
import SceneDebugger.Session.Hooks
import SceneDebugger.Session.Operations
import SceneDebugger.Session.State
import SceneDebugger.Settings
import SceneDebugger.Source.SourceMap
import SceneDebugger.Source.Storage
import SceneDebugger.Switches
import SceneDebugger.Text.CharacterClass
import SceneDebugger.Text.Digits
import SceneDebugger.Text.Encoding
import SceneDebugger.Text.Quoted
import SceneDebugger.Workspace.Files
import SceneDebugger.Workspace.Project
import SceneDebugger.Workspace.Rom
import SceneDebugger.Workspace.ScriptFile
import SceneDebugger.Workspace.Texts
import SceneDebugger.Proofs.Workspace.Changes
import SceneDebugger.Proofs.Ground.Effects
import SceneDebugger.Proofs.Session.Run
import SceneDebugger.Proofs.Session.Tracking
import SceneDebugger.Proofs.Session.Restoring
import SceneDebugger.Proofs.Session.Steps
import SceneDebugger.Proofs.Session.Showing
import SceneDebugger.Proofs.Session.Operated
import SceneDebugger.Proofs.Ground.Notices
import SceneDebugger.Proofs.Session.Turns
import SceneDebugger.Proofs.Session.Polling
import SceneDebugger.Proofs.Session.TurnEffects
import SceneDebugger.Proofs.Session.Requests
import SceneDebugger.Proofs.Session.Guard
import SceneDebugger.Proofs.Session.Carrying
import SceneDebugger.Proofs.Session.Newest
import SceneDebugger.Proofs.Session.Joint
import SceneDebugger.Proofs.Session.Toggling
import SceneDebugger.Proofs.Workspace.Undone
import SceneDebugger.Proofs.Session.FailedSaves
import SceneDebugger.Proofs.Workspace.Threads
import SceneDebugger.Proofs.Workspace.Alone
import SceneDebugger.Proofs.Workspace.Coherence
import SceneDebugger.Proofs.Json.RoundTrip
import SceneDebugger.Proofs.Files.Replacing
import SceneDebugger.Proofs.Breakpoints.Documents
import SceneDebugger.Proofs.Breakpoints.Stored
import SceneDebugger.Proofs.Session.HaltMoves
import SceneDebugger.Proofs.Session.Stepping
import SceneDebugger.Proofs.Session.SteppingOver
import SceneDebugger.Proofs.Session.Blocking
import SceneDebugger.Proofs.Halt.Shared
import SceneDebugger.Proofs.Halt.Verdict
import SceneDebugger.Proofs.Halt.Progress
import SceneDebugger.Proofs.Halt.Once
import SceneDebugger.Proofs.Files.Frames
import SceneDebugger.Proofs.Files.Names
import SceneDebugger.Proofs.Files.PathSets
import SceneDebugger.Proofs.Json.Containers
import SceneDebugger.Proofs.Source.Storage
import SceneDebugger.Proofs.Digest.Sha256
import SceneDebugger.Proofs.Workspace.Sidecars
import SceneDebugger.Proofs.Workspace.IncludeIndex
import SceneDebugger.Proofs.Workspace.Filing
import SceneDebugger.Proofs.Workspace.Idle
import SceneDebugger.Proofs.Workspace.History
import SceneDebugger.Proofs.Workspace.Contents
import SceneDebugger.Proofs.Workspace.Recompiling
import SceneDebugger.Proofs.Session.Idle
import SceneDebugger.Proofs.Session.Filing
import SceneDebugger.Proofs.Session.Dependents
import SceneDebugger.Proofs.Session.StrictLoads
import SceneDebugger.Proofs.Session.MacroSaves
import SceneDebugger.Proofs.Breakpoints.Listening
import SceneDebugger.Proofs.Files.Footprints
import SceneDebugger.Proofs.Workspace.Footprints
import SceneDebugger.Proofs.Workspace.OneFile
import SceneDebugger.Proofs.Ground.Documents
import SceneDebugger.Proofs.Session.Footprints
import SceneDebugger.Proofs.Session.SaveStates
import SceneDebugger.Proofs.Session.Hooking
import SceneDebugger.Proofs.Session.OneFile
import SceneDebugger.Proofs.Session.Landing
import SceneDebugger.Proofs.Session.Closing
import SceneDebugger.Proofs.Machine.FrameLoop
import SceneDebugger.Proofs.Machine.FrameThread
import SceneDebugger.Proofs.Source.Positions
import SceneDebugger.Proofs.Session.Unmoved
import SceneDebugger.Proofs.Halt.Shown
import SceneDebugger.Proofs.Output.Formats
import SceneDebugger.Proofs.Output.Padding
import SceneDebugger.Proofs.Machine.Texts
import SceneDebugger.Proofs.Workspace.FailedLoads
import SceneDebugger.Proofs.Workspace.SavedTexts
import SceneDebugger.Proofs.Script.Probing
import SceneDebugger.Proofs.Script.Lookups
import SceneDebugger.Proofs.Files.Wholeness
