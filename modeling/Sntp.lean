import Sntp.Wire.RoundTrip
import Sntp.Wire.Serialize
import Sntp.Wire.Deserialize
import Sntp.Wire.Residue
import Sntp.Wire.Offset
import Sntp.Wire.Unix
import Sntp.Wire.Poll
import Sntp.Wire.Poison
import Sntp.Client.Replay
import Sntp.Client.Pending
import Sntp.Client.Deadlines
import Sntp.Client.Forward
import Sntp.Client.Request
import Sntp.Client.Attribution
import Sntp.Client.AfterSend
import Sntp.Client.Authenticated
import Sntp.Client.Rotation
import Sntp.Client.AuthCode
import Sntp.Client.Protocol
import Sntp.Client.Fallbacks
import Sntp.Client.Twin
import Sntp.Client.Measure
import Sntp.Client.Network
import Sntp.Client.Agreement
import Sntp.Client.Discipline
import Sntp.Client.Machine
import Sntp.Client.Waiting
import Sntp.Client.Recovery
import Sntp.Client.SetBack
import Sntp.Client.Guess
import Sntp.Client.Stale
import Sntp.Client.Room
import Sntp.Client.Once
import Sntp.Bench.Corpus
