import VirtualFs.Call
import VirtualFs.Scenario.Reading
import VirtualFs.Scenario.Rehearsal
import VirtualFs.Proofs.Accord
import VirtualFs.Proofs.Alone
import VirtualFs.Proofs.Acts
import VirtualFs.Proofs.Gate
import VirtualFs.Proofs.Habit
import VirtualFs.Proofs.Operation
import VirtualFs.Proofs.Returns
import VirtualFs.Proofs.Recorded
import VirtualFs.Proofs.SharedCalls.InFlight
import VirtualFs.Proofs.SharedCalls.Outcomes
import VirtualFs.Proofs.SharedCalls.Attended
import VirtualFs.Proofs.SharedCalls.Refinement
import VirtualFs.Proofs.SharedCalls.SmallStep
import VirtualFs.Proofs.SharedCalls.Ledger
import VirtualFs.Proofs.SharedCalls.Lifecycle
import VirtualFs.Proofs.SharedCalls.Keyed
import VirtualFs.Proofs.SharedCalls.Apart
import VirtualFs.Proofs.SharedCalls.Part
import VirtualFs.Proofs.SharedCalls.Separate
import VirtualFs.Proofs.World.Run
import VirtualFs.Proofs.World.Along
import VirtualFs.Proofs.World.Scene
import VirtualFs.Proofs.World.Task
import VirtualFs.Proofs.World.Safety
import VirtualFs.Proofs.World.Fair
import VirtualFs.Proofs.World.Progress
import VirtualFs.Proofs.Reading.Ranges
import VirtualFs.Proofs.Reading.Header
import VirtualFs.Proofs.Reading.Capped
import VirtualFs.Proofs.Spelling.Joined
import VirtualFs.Proofs.Spelling.Parted
import VirtualFs.Proofs.Spelling.Spelled
import VirtualFs.Proofs.Spelling.Routines
import VirtualFs.Proofs.Spelling.Recursion
import VirtualFs.Proofs.Reading.Steady
import VirtualFs.Proofs.Reading.Transparency
import VirtualFs.Proofs.Reading.Scripted
import VirtualFs.Proofs.Reading.Walk
import VirtualFs.Proofs.Writing.Tree
import VirtualFs.Proofs.Writing.Growth
import VirtualFs.Proofs.Writing.Lookup
import VirtualFs.Proofs.Writing.Sight
import VirtualFs.Proofs.Writing.Directories
import VirtualFs.Proofs.Writing.Writers
import VirtualFs.Proofs.Writing.Stored
import VirtualFs.Proofs.Writing.Scripted
import VirtualFs.Proofs.Writing.Readback
import VirtualFs.Proofs.Attentive.Behaviour
import VirtualFs.Proofs.Attentive.Store
import VirtualFs.Proofs.Guide.Root
import VirtualFs.Proofs.Guide.Lookup
import VirtualFs.Proofs.Guide.Directories
import VirtualFs.Proofs.Guide.Assured
import VirtualFs.Proofs.Guide.Calls
import VirtualFs.Proofs.Isolation.Confined
import VirtualFs.Proofs.Isolation.Fence
import VirtualFs.Proofs.Isolation.Calls
import VirtualFs.Proofs.Isolation.Watched
import VirtualFs.Proofs.Isolation.Mounted
import VirtualFs.Proofs.Visibility.Homing
import VirtualFs.Proofs.Visibility.Course
import VirtualFs.Proofs.Visibility.Roles
import VirtualFs.Proofs.Visibility.Seeker
import VirtualFs.Proofs.Visibility.Operations
import VirtualFs.Proofs.Visibility.Phases
import VirtualFs.Proofs.Visibility.Run
import VirtualFs.Proofs.Making.Climb
import VirtualFs.Proofs.Making.Write
import VirtualFs.Proofs.Making.Refusal
import VirtualFs.Proofs.Making.Trust
import VirtualFs.Proofs.Writing.Removal
import VirtualFs.Proofs.Writing.Overwrite
import VirtualFs.Proofs.Making.Housing
import VirtualFs.Proofs.Making.Missing
import VirtualFs.Proofs.Making.Forms
import VirtualFs.Proofs.Making.Concord
import VirtualFs.Proofs.Logging.Logs
import VirtualFs.Proofs.Logging.Redacted
import VirtualFs.Proofs.Logging.Keys
import VirtualFs.Proofs.Logging.OneLine
import VirtualFs.Proofs.Logging.Shortened
import VirtualFs.Proofs.Reading.Getter
import VirtualFs.Proofs.Reading.Agreement
import VirtualFs.Proofs.Descent.Plans
import VirtualFs.Proofs.Descent.Level
import VirtualFs.Proofs.Descent.Run
import VirtualFs.Proofs.Footing.Upheld
import VirtualFs.Proofs.Footing.Guided
import VirtualFs.Proofs.Footing.Survival
import VirtualFs.Proofs.Naming.Substitution
import VirtualFs.Proofs.Naming.Simultaneous
import VirtualFs.Proofs.Naming.Listed
import VirtualFs.Proofs.Naming.Separators
