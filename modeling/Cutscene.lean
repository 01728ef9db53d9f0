import Cutscene.Main
import Cutscene.Stage.Rehearsal
import Cutscene.Thread.Puppet
import Cutscene.Proofs.Stage.Upkeep
import Cutscene.Proofs.Tracker.Turns
import Cutscene.Proofs.Tracker.Calls
import Cutscene.Proofs.Tracker.Ending
import Cutscene.Proofs.Stage.Hosts
import Cutscene.Proofs.Tracker.Recital
import Cutscene.Proofs.Tracker.Biography
import Cutscene.Proofs.Session.SceneChanges
import Cutscene.Proofs.Session.SceneRanks
import Cutscene.Proofs.Session.SceneLoops
import Cutscene.Proofs.Thread.Watching
import Cutscene.Proofs.Thread.Custody
import Cutscene.Proofs.Session.Playing
import Cutscene.Proofs.Session.SoftLocks
import Cutscene.Proofs.Session.Locks
import Cutscene.Proofs.Thread.Keeping
import Cutscene.Proofs.Thread.Spawning
import Cutscene.Proofs.World.Firing
import Cutscene.Proofs.World.Slots
import Cutscene.Proofs.World.Tours
import Cutscene.Proofs.Session.Gates
import Cutscene.Proofs.Numeric.Exactness
import Cutscene.Proofs.Json.Records
import Cutscene.Proofs.Operation.Reading
import Cutscene.Proofs.Operation.RoundTrip
import Cutscene.Proofs.Scene.Marking
import Cutscene.Proofs.Tracker.Draining
import Cutscene.Proofs.Session.Contract
import Cutscene.Proofs.Session.Arrivals
import Cutscene.Proofs.Session.Attending
import Cutscene.Proofs.Session.Isolation
import Cutscene.Proofs.Script.Conduct
import Cutscene.Proofs.Script.History
import Cutscene.Proofs.Script.Sharing
import Cutscene.Proofs.Thread.Turns
import Cutscene.Proofs.Script.Offspring
import Cutscene.Proofs.Script.Aborts
import Cutscene.Proofs.World.Handles
import Cutscene.Proofs.World.Setting
import Cutscene.Proofs.World.Numbers
import Cutscene.Proofs.World.Acts
import Cutscene.Proofs.World.SceneSwaps
import Cutscene.Proofs.World.Dialog
import Cutscene.Proofs.Session.Asides
import Cutscene.Proofs.Session.Identities
import Cutscene.Proofs.Session.UnseenTexts
import Cutscene.Proofs.Session.Speakers
import Cutscene.Proofs.Session.OpenMouths
import Cutscene.Proofs.Stage.Mirrors
import Cutscene.Proofs.Tracker.Tallies
import Cutscene.Proofs.Session.Presses
import Cutscene.Proofs.Thread.Relating
import Cutscene.Proofs.Script.HostCalls
import Cutscene.Proofs.World.Replay
import Cutscene.Proofs.Session.FlagLog
import Cutscene.Proofs.Tracker.Stints
import Cutscene.Proofs.Tracker.Typing
import Cutscene.Proofs.Session.Clicks
import Cutscene.Proofs.World.SayingAlike
import Cutscene.Proofs.World.Selections
import Cutscene.Proofs.World.Tiles
import Cutscene.Proofs.Scene.Loading
import Cutscene.Proofs.Scene.UnknownKinds
import Cutscene.Proofs.Numeric.Rounding
import Cutscene.Proofs.Tracker.Opacity
import Cutscene.Proofs.Tracker.Fades
import Cutscene.Proofs.Session.Soundtrack
import Cutscene.Proofs.CommandLine.Clock
import Cutscene.Proofs.Session.FlagHistory
import Cutscene.Proofs.Session.OnceGates
import Cutscene.Proofs.Thread.LastResume
import Cutscene.Proofs.Session.Fates
import Cutscene.Proofs.Session.Results
import Cutscene.Proofs.Text.Parts
import Cutscene.Proofs.CommandLine.PressTexts
import Cutscene.Proofs.Tracker.Checks
