import Blehostd.Stream.Draining
import Blehostd.Gatts.Access.Invariant
import Blehostd.Gatts.Commit.Failures
import Blehostd.Gatts.Refusals
import Blehostd.Gatts.Numbering.Theorems
import Blehostd.Requests.Tables
import Blehostd.Requests.Reply
import Blehostd.Outgoing.Theorems
import Blehostd.Events.Theorems
import Blehostd.Events.Scan.Theorems
import Blehostd.Daemon.Failures
import Blehostd.Daemon.Numbering
import Blehostd.Util.Arrays
import Blehostd.Services.Ledger
import Blehostd.Gatts.Slots
import Blehostd.Util.MbufStr
import Blehostd.Util.Uuids
import Blehostd.Responses.Uuids
import Blehostd.Parse.Streams
import Blehostd.Requests.AdvUuids
import Blehostd.Library.Buffer
import Blehostd.Events.Scan.Inverse
import Blehostd.Requests.Integers
import Blehostd.System.Wire
import Blehostd.Events.Size
import Blehostd.Outgoing.Wakeups
import Blehostd.Pipeline.Theorems
import Blehostd.System.Observation
import Blehostd.System.Sessions
import Blehostd.Outgoing.Draining
import Blehostd.System.Members
import Blehostd.Gatts.Commit.Memory
import Blehostd.System.Registration
import Blehostd.Pipeline.Commands
