import SolidTrace.Arena.Basic
import SolidTrace.Arena.Compile
import SolidTrace.Arena.Error
import SolidTrace.CommandLine.Arguments
import SolidTrace.CommandLine.FileTree
import SolidTrace.CommandLine.Help
import SolidTrace.CommandLine.Run
import SolidTrace.Dict
import SolidTrace.Document.Basic
import SolidTrace.Document.Read
import SolidTrace.Document.Reader
import SolidTrace.Document.Write
import SolidTrace.Fault
import SolidTrace.Geometry.Box
import SolidTrace.Geometry.Ray
import SolidTrace.Geometry.Transform
import SolidTrace.Geometry.Vec
import SolidTrace.Json.Number
import SolidTrace.Json.Print
import SolidTrace.Json.Text
import SolidTrace.Json.Token
import SolidTrace.Json.Value
import SolidTrace.Lanes.Config
import SolidTrace.Lanes.Kernel
import SolidTrace.Lanes.Substrate
import SolidTrace.Main
import SolidTrace.Memory.Allocator
import SolidTrace.Memory.Ledger
import SolidTrace.Motion.Animator
import SolidTrace.Motion.Drive
import SolidTrace.Number.Decimal
import SolidTrace.Number.Double
import SolidTrace.Number.Dyadic
import SolidTrace.Options
import SolidTrace.Png.Checksum
import SolidTrace.Png.Inflate
import SolidTrace.Png.Read
import SolidTrace.Png.Write
import SolidTrace.Program
import SolidTrace.Scalar
import SolidTrace.Scene.Basic
import SolidTrace.Scene.Error
import SolidTrace.Scene.Frame
import SolidTrace.Scene.Platform
import SolidTrace.Scene.State
import SolidTrace.Scene.Task
import SolidTrace.Settings
import SolidTrace.Surface.Pose
import SolidTrace.Surface.Quadric
import SolidTrace.Surface.Trim
import SolidTrace.Text.Hidden
import SolidTrace.Text.Quoted
import SolidTrace.Texture
import SolidTrace.Toml.Text
import SolidTrace.Toml.Token
import SolidTrace.Toml.Value
import SolidTrace.Tracing.Nearest
import SolidTrace.Tracing.Shade
import SolidTrace.Tracing.View
import SolidTrace.Work.Command
import SolidTrace.Work.Pool
import SolidTrace.Work.Scheduler
import SolidTrace.Work.Share
import SolidTrace.Proofs.Compile.Decision
import SolidTrace.Proofs.Compile.Acceptance
import SolidTrace.Proofs.Document.Scopes
import SolidTrace.Proofs.Compile.Expansion
import SolidTrace.Proofs.Arena.Growth
import SolidTrace.Proofs.Arena.Records
import SolidTrace.Proofs.Compile.Steps
import SolidTrace.Proofs.Compile.Closing
import SolidTrace.Proofs.Compile.Walk
import SolidTrace.Proofs.Compile.Traversal
import SolidTrace.Proofs.Arena.Levels
import SolidTrace.Proofs.Compile.Trims
import SolidTrace.Proofs.Compile.Materials
import SolidTrace.Proofs.Arena.WellFormed
import SolidTrace.Proofs.Arena.Census
import SolidTrace.Proofs.Arena.Sound
import SolidTrace.Proofs.Number.Order
import SolidTrace.Proofs.Tracing.Candidates
import SolidTrace.Proofs.Tracing.Search
import SolidTrace.Proofs.Tracing.Exhaustive
import SolidTrace.Proofs.Tracing.Culling
import SolidTrace.Proofs.Lanes.Kernel
import SolidTrace.Proofs.Scene.Crew
import SolidTrace.Proofs.Scene.Dispatch
import SolidTrace.Proofs.Scene.Frame
import SolidTrace.Proofs.Work.Share
import SolidTrace.Proofs.Work.Script
import SolidTrace.Proofs.Work.Barrier
import SolidTrace.Proofs.Work.Rendezvous
import SolidTrace.Proofs.Work.Refinement
import SolidTrace.Proofs.Scene.Rows
import SolidTrace.Proofs.Scene.Painting
import SolidTrace.Proofs.Scene.Picture
import SolidTrace.Proofs.Scene.Reach
import SolidTrace.Proofs.Scene.Rendering
import SolidTrace.Proofs.Number.Extended
import SolidTrace.Proofs.Geometry.Affine
import SolidTrace.Proofs.Geometry.Enclosure
import SolidTrace.Proofs.Geometry.Containment
import SolidTrace.Proofs.Surface.Bounds
import SolidTrace.Proofs.Surface.Roots
import SolidTrace.Proofs.Surface.Lost
import SolidTrace.Proofs.Surface.Hits
import SolidTrace.Proofs.Arena.Volumes
import SolidTrace.Proofs.Arena.Extents
import SolidTrace.Proofs.Arena.Sweep
import SolidTrace.Proofs.Geometry.Slabs
import SolidTrace.Proofs.Scene.Bounds
import SolidTrace.Proofs.Memory.Search
import SolidTrace.Proofs.Memory.Leases
import SolidTrace.Proofs.Scene.Memory
import SolidTrace.Proofs.Scene.Publication
import SolidTrace.Proofs.Work.Latch
import SolidTrace.Proofs.Lanes.Negotiation
import SolidTrace.Proofs.Lanes.Optimum
import SolidTrace.Proofs.Scene.Configuration
import SolidTrace.Proofs.Arena.Complete
import SolidTrace.Proofs.Tracing.Shading
import SolidTrace.Proofs.Scene.Ready
import SolidTrace.Proofs.Scene.Unfailing
import SolidTrace.Proofs.Scene.World
import SolidTrace.Proofs.Program.Meaning
import SolidTrace.Proofs.Program.Order
import SolidTrace.Proofs.Tracing.Shuffle
import SolidTrace.Proofs.Compile.Reordering
import SolidTrace.Proofs.Document.Copies
import SolidTrace.Proofs.Compile.Recursion
import SolidTrace.Proofs.Compile.Stack
import SolidTrace.Proofs.Number.Shortest
import SolidTrace.Proofs.Json.Numbers
import SolidTrace.Proofs.Json.Printing
import SolidTrace.Proofs.Json.Reordered
import SolidTrace.Proofs.Document.Readers
import SolidTrace.Proofs.Document.Reading
import SolidTrace.Proofs.Document.RoundTrip
import SolidTrace.Proofs.Memory.Outstanding
import SolidTrace.Proofs.Compile.Reserved
import SolidTrace.Proofs.Number.Angles
import SolidTrace.Proofs.Motion.Animation
import SolidTrace.Proofs.Motion.Driving
import SolidTrace.Proofs.Scene.Stances
import SolidTrace.Proofs.Scene.Courses
import SolidTrace.Proofs.Scene.Journeys
import SolidTrace.Proofs.Lanes.Registers
import SolidTrace.Proofs.Work.Partition
import SolidTrace.Proofs.Number.Multiples
import SolidTrace.Proofs.Number.Rounding
import SolidTrace.Proofs.Number.Remainder
import SolidTrace.Proofs.Motion.Turning
import SolidTrace.Proofs.Scene.Headings
